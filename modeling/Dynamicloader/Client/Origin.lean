import Dynamicloader.Client.Entry
import Dynamicloader.Common.History
/-!
# Where the code that the client runs comes from

In a process that is not its own, the client opens libraries, looks functions
up in them, calls them and closes the libraries, or has the bridge load a jar.
`client_disciplined`: whatever the process answers, a library is used between
its opening and its closing only, there is one at a time and none is left
open; the functions called are the module's entry, out of the module's own
library, and the one that returns the JNI environment; and the method called of
the bridge is that of a class loaded from the bridge's path, for the module's
path.
-/

namespace Dynamicloader

namespace Client

open Prog
open Xloaderd (ascii)

abbrev History := List (Exchange Op Op.Ans)

/-! ## Libraries -/

/-- A library that is open, with what has been looked up in it. -/
structure Library where
  path : List UInt8
  handle : Ref
  lookups : List (List UInt8 × Ref)

/-- What an exchange does to the library that is open. -/
def Library.next : Option Library → Exchange Op Op.Ans → Option Library
  | o, ⟨.dlopen path, handle⟩ => if handle = (0 : Ref) then o else some ⟨path, handle, []⟩
  | o, ⟨.dlsym _ symbol, fn⟩ =>
    o.map fun library => { library with lookups := (symbol, fn) :: library.lookups }
  | _, ⟨.dlclose _, _⟩ => none
  | o, _ => o

/-- The library that is open behind the exchanges. -/
def opened (hist : History) : Option Library := hist.foldl Library.next none

theorem opened_append (hist : History) (x : Exchange Op Op.Ans) :
    opened (hist ++ [x]) = Library.next (opened hist) x := by
  rw [opened, List.foldl_append]
  rfl

/-- The library of the virtual machine. -/
def runtimePath : List UInt8 := ascii "/system/lib/libandroid_runtime.so".toList

/-- `"loadModuleFromJar"` -/
def loadModuleFromJar : List UInt8 := ascii "loadModuleFromJar".toList

/-- `"de.robv.android.xposed.XposedBridge"` -/
def bridgeClass : List UInt8 := ascii "de.robv.android.xposed.XposedBridge".toList

/-- A loader for the bridge's path. -/
def LoaderFor (bridgePath : List UInt8) (hist : History) (loader : Ref) : Prop :=
  loader ≠ 0 ∧ ∃ cls init jar rest, ⟨.newObject cls init (jar :: rest), loader⟩ ∈ hist ∧
    ⟨.stoJstring bridgePath, jar⟩ ∈ hist

/-- The class is the bridge's, of a loader for the bridge's path, the method is
the one that loads a jar, and it gets the module's path and that loader. -/
structure LoadsJar (info : XloaderInfo) (hist : History) (cls method : Ref) (args : List Ref) :
    Prop where
  arguments : ∃ path loader, args = [path, loader] ∧ ⟨.stoJstring info.modulePath, path⟩ ∈ hist ∧
    LoaderFor info.bridgePath hist loader ∧
    ∃ findClass name, ⟨.callObjectMethod loader findClass [name], cls⟩ ∈ hist ∧
      ⟨.stoJstring bridgeClass, name⟩ ∈ hist
  found : cls ≠ 0
  looked : ∃ sig, ⟨.getStaticMethodID cls loadModuleFromJar sig, method⟩ ∈ hist

/-- **What the client may ask** behind the exchanges so far. -/
def Allowed (info : XloaderInfo) (hist : History) : Op → Prop
  | .dlopen path => opened hist = none ∧ path ∈ [info.modulePath, runtimePath]
  | .dlsym handle _ => ∃ library, opened hist = some library ∧ library.handle = handle
  | .callfun symbol fn => ∃ library, opened hist = some library ∧
      (symbol, fn) ∈ library.lookups ∧
      (library.path, symbol) ∈ [(info.modulePath, moduleEntry), (runtimePath, getJNIEnv)]
  | .dlclose handle => ∃ library, opened hist = some library ∧ library.handle = handle
  | .callStaticVoidMethod cls method args =>
      opened hist = none ∧ LoadsJar info hist cls method args
  | _ => True

/-- The exchanges go on from `hist`, with no library open. -/
structure Later (hist hist' : History) : Prop where
  subset : hist ⊆ hist'
  closed : opened hist' = none

theorem Later.trans {h₁ h₂ h₃ : History} (h : Later h₁ h₂) (h' : Later h₂ h₃) : Later h₁ h₃ :=
  ⟨fun _ hx => h'.subset (h.subset hx), h'.closed⟩

/-- A call that neither uses a library nor has the bridge load. -/
def Op.Neutral : Op → Prop
  | .dlopen _ | .dlsym .. | .callfun .. | .dlclose _ | .callStaticVoidMethod .. => False
  | _ => True

variable {info : XloaderInfo} {hist hist' : History} {op : Op}

theorem Op.Neutral.allowed (hop : op.Neutral) : Allowed info hist op := by
  cases op <;> trivial

theorem Op.Neutral.opened_append (hop : op.Neutral) (x : op.Ans) :
    opened (hist ++ [⟨op, x⟩]) = opened hist := by
  rw [Client.opened_append]
  cases op <;> first | rfl | exact hop.elim

theorem Later.append (h : Later hist hist') (hop : op.Neutral) (x : op.Ans) :
    Later hist (hist' ++ [⟨op, x⟩]) :=
  ⟨fun _ hy => List.mem_append_left _ (h.subset hy), (hop.opened_append x).trans h.closed⟩

/-- What a neutral call leaves behind. -/
structure Asked (op : Op) (hist hist' : History) (x : op.Ans) : Prop where
  later : Later hist hist'
  mem : ⟨op, x⟩ ∈ hist'

theorem follows_ask (hclosed : opened hist = none) (hop : op.Neutral) :
    Follows (Allowed info) (Asked op hist) (ask op) hist := by
  refine follows_call hop.allowed fun x => ⟨?_, ?_⟩
  · exact Later.append ⟨fun _ hy => hy, hclosed⟩ hop x
  · exact List.mem_append_right _ (List.mem_singleton_self _)

/-- **A library's function** is called out of that library, which is closed. -/
theorem follows_callLibrary (hclosed : opened hist = none) {path symbol : List UInt8}
    (hpath : (path, symbol) ∈ [(info.modulePath, moduleEntry), (runtimePath, getJNIEnv)]) :
    Follows (Allowed info) (fun hist' _ => Later hist hist') (callLibrary path symbol) hist := by
  have hallowed : path ∈ [info.modulePath, runtimePath] := by
    simp only [List.mem_cons, Prod.mk.injEq, List.not_mem_nil, or_false] at hpath ⊢
    exact hpath.imp And.left And.left
  have hdlerror : Op.Neutral .dlerror := trivial
  unfold callLibrary
  refine follows_call_bind ⟨hclosed, hallowed⟩ fun handle => ?_
  split
  · next hzero =>
    refine follows_call_bind hdlerror.allowed fun _ => follows_pure ⟨fun x hx => by simp [hx], ?_⟩
    rw [hdlerror.opened_append, opened_append, Library.next, if_pos hzero, hclosed]
  · next hne =>
    refine follows_call_bind hdlerror.allowed fun _ => ?_
    generalize hist₁ : hist ++ [⟨.dlopen path, handle⟩] ++ [⟨.dlerror, _⟩] = h₁
    have hopen : opened h₁ = some ⟨path, handle, []⟩ := by
      rw [← hist₁, hdlerror.opened_append, opened_append, Library.next, if_neg hne]
    have hsub : hist ⊆ h₁ := fun x hx => by simp [← hist₁, hx]
    refine follows_call_bind ⟨_, hopen, rfl⟩ fun callfun => ?_
    refine follows_call_bind hdlerror.allowed fun err => ?_
    generalize hist₂ : h₁ ++ [⟨.dlsym handle symbol, callfun⟩] ++ [⟨.dlerror, err⟩] = h₂
    have hopen₂ : opened h₂ = some ⟨path, handle, [(symbol, callfun)]⟩ := by
      rw [← hist₂, hdlerror.opened_append, opened_append, hopen]
      rfl
    have hsub₂ : hist ⊆ h₂ := fun x hx => by simp [← hist₂, hsub hx]
    split
    · refine follows_call_bind ⟨_, hopen₂, rfl⟩ fun _ => follows_pure ⟨fun x hx => ?_, ?_⟩
      · exact List.mem_append_left _ (hsub₂ hx)
      · rw [opened_append]
        rfl
    · refine follows_call_bind ⟨_, hopen₂, List.mem_singleton_self _, hpath⟩ fun result => ?_
      have hopen₃ : opened (h₂ ++ [⟨.callfun symbol callfun, result⟩]) =
          some ⟨path, handle, [(symbol, callfun)]⟩ := (opened_append _ _).trans hopen₂
      refine follows_call_bind ⟨_, hopen₃, rfl⟩ fun _ => follows_pure ⟨fun x hx => ?_, ?_⟩
      · exact List.mem_append_left _ (List.mem_append_left _ (hsub₂ hx))
      · rw [opened_append]
        rfl

theorem follows_loadNative (hclosed : opened hist = none) :
    Follows (Allowed info) (fun hist' _ => opened hist' = none) (loadNative info.modulePath)
      hist := by
  unfold loadNative
  refine follows_bind (follows_callLibrary hclosed (by simp)) fun _ r hlater => ?_
  split
  · exact follows_pure hlater.closed
  · exact follows_pure hlater.closed
  · exact follows_pure hlater.closed

theorem follows_getEnv (hclosed : opened hist = none) :
    Follows (Allowed info) (fun hist' _ => opened hist' = none) getEnv hist := by
  have hpath : (runtimePath, getJNIEnv) ∈
      [(info.modulePath, moduleEntry), (runtimePath, getJNIEnv)] := by simp
  unfold getEnv
  refine follows_bind (follows_callLibrary hclosed hpath) fun _ r hlater => ?_
  split
  · exact follows_pure hlater.closed
  · exact follows_pure hlater.closed

theorem follows_askDexOutputCache (hclosed : opened hist = none) (apkPath : List UInt8) :
    Follows (Allowed info) (fun hist' _ => opened hist' = none) (askDexOutputCache apkPath)
      hist := by
  unfold askDexOutputCache
  split
  · exact follows_pure hclosed
  · refine follows_bind (follows_ask hclosed trivial) fun _ sdk hsdk => ?_
    split
    · exact follows_pure hsdk.later.closed
    · refine follows_bind (follows_ask hsdk.later.closed trivial) fun _ _ hstat => ?_
      exact follows_pure hstat.later.closed

/-! ## The bridge -/

/-- How a part of the bridge's load ends: with no library open. -/
abbrev Left {α : Type} (R : History → α → Prop) : History → Except Int32 α → Prop :=
  Ends (fun hist' _ => opened hist' = none) R

theorem follows_checkException (hclosed : opened hist = none) (error : Int32) :
    Follows (Allowed info) (Left fun hist' _ => Later hist hist') (checkException error).run
      hist := by
  unfold checkException
  refine follows_bind_except (follows_lift (follows_ask hclosed trivial)) fun _ b hb => ?_
  split
  · exact hb.later.closed
  · exact hb.later

theorem follows_checkReference (hclosed : opened hist = none) (error : Int32) (ref : Ref) :
    Follows (Allowed info) (Left fun hist' _ => Later hist hist' ∧ ref ≠ 0)
      (checkReference error ref).run hist := by
  unfold checkReference
  refine follows_bind_except (follows_checkException hclosed error) fun _ _ hlater => ?_
  split
  · exact hlater.closed
  · next hne => exact ⟨hlater, hne⟩

theorem follows_unchecked (hclosed : opened hist = none) (hop : op.Neutral) :
    Follows (Allowed info) (Left (Asked op hist)) (liftM (ask op) : Act op.Ans).run hist :=
  follows_lift (follows_ask hclosed hop)

theorem follows_newClassLoader (hclosed : opened hist = none) (name sig : List UInt8)
    (args : List Ref) :
    Follows (Allowed info)
      (Left fun hist' r => Later hist hist' ∧ r.2 ≠ 0 ∧
        ∃ cls init, ⟨.newObject cls init args, r.2⟩ ∈ hist')
      (newClassLoader name sig args).run hist := by
  unfold newClassLoader
  refine follows_bind_except (follows_unchecked hclosed trivial) fun _ cls hcls => ?_
  refine follows_bind_except (follows_checkException hcls.later.closed _) fun _ _ hcheck => ?_
  refine follows_bind_except (follows_unchecked hcheck.closed trivial) fun _ init hinit => ?_
  refine follows_bind_except (follows_unchecked hinit.later.closed trivial) fun _ loader hnew => ?_
  refine follows_bind_except (follows_checkReference hnew.later.closed _ loader) fun _ _ href => ?_
  refine follows_pure ⟨?_, href.2, cls, init, href.1.subset hnew.mem⟩
  exact hcls.later.trans (hcheck.trans (hinit.later.trans (hnew.later.trans href.1)))

theorem LoaderFor.mono {bridgePath : List UInt8} {loader : Ref}
    (h : LoaderFor bridgePath hist loader) (hsub : hist ⊆ hist') :
    LoaderFor bridgePath hist' loader := by
  obtain ⟨hne, cls, init, jar, rest, hnew, hjar⟩ := h
  exact ⟨hne, cls, init, jar, rest, hsub hnew, hsub hjar⟩

theorem follows_clientLoader (hclosed : opened hist = none) (bridgePath : List UInt8)
    (bridgeDexPath : Option (List UInt8)) (joAppLoader : Ref) :
    Follows (Allowed info)
      (Left fun hist' r => Later hist hist' ∧ LoaderFor bridgePath hist' r.2)
      (clientLoader bridgePath bridgeDexPath joAppLoader).run hist := by
  have hend {h₁ : History} {jar : Ref} {rest : List Ref} (hlater : Later hist h₁)
      (hjar : ⟨.stoJstring bridgePath, jar⟩ ∈ h₁) (name sig : List UInt8) :
      Follows (Allowed info)
        (Left fun hist' r => Later hist hist' ∧ LoaderFor bridgePath hist' r.2)
        (newClassLoader name sig (jar :: rest)).run h₁ := by
    refine (follows_newClassLoader hlater.closed name sig (jar :: rest)).mono fun h₂ r hr => ?_
    cases r with
    | error e => exact hr
    | ok r =>
      obtain ⟨hlater', hne, cls, init, hnew⟩ := hr
      exact ⟨hlater.trans hlater', hne, cls, init, jar, rest, hnew, hlater'.subset hjar⟩
  unfold clientLoader
  refine follows_bind_except (follows_unchecked hclosed trivial) fun _ jar hjar => ?_
  split
  · exact hend hjar.later hjar.mem _ _
  · refine follows_bind_except (follows_unchecked hjar.later.closed trivial) fun _ _ hdex => ?_
    exact hend (hjar.later.trans hdex.later) (hdex.later.subset hjar.mem) _ _

theorem follows_findClassMethod (hclosed : opened hist = none) (cls : Ref) :
    Follows (Allowed info) (fun hist' _ => Later hist hist') (findClassMethod cls) hist := by
  unfold findClassMethod
  refine follows_bind (follows_ask hclosed trivial) fun _ findClass hfind => ?_
  split
  · have hload : Op.Neutral (.getMethodID cls (ascii "loadClass".toList)
      (ascii "(Ljava/lang/String;)Ljava/lang/Class;".toList)) := trivial
    refine (follows_ask hfind.later.closed hload).mono fun _ _ hload => ?_
    exact hfind.later.trans hload.later
  · exact follows_pure hfind.later

/-- **The bridge is loaded from its path and gets the module's.** -/
theorem follows_loadBridge (hclosed : opened hist = none) (bridgeDexPath : Option (List UInt8)) :
    Follows (Allowed info) (Left fun hist' _ => opened hist' = none)
      (loadBridge info.bridgePath bridgeDexPath info.modulePath).run hist := by
  unfold loadBridge
  refine follows_bind_except (follows_unchecked hclosed trivial) fun _ _ h => ?_
  refine follows_bind_except (follows_checkException h.later.closed _) fun _ _ h => ?_
  refine follows_bind_except (follows_unchecked h.closed trivial) fun _ _ h => ?_
  refine follows_bind_except (follows_unchecked h.later.closed trivial) fun _ _ h => ?_
  refine follows_bind_except (follows_unchecked h.later.closed trivial) fun _ _ h => ?_
  refine follows_bind_except (follows_checkException h.later.closed _) fun _ _ h => ?_
  refine follows_bind_except (follows_unchecked h.closed trivial) fun _ _ h => ?_
  refine follows_bind_except (follows_unchecked h.later.closed trivial) fun _ _ h => ?_
  -- from the loader on, what was answered matters
  refine follows_bind_except (follows_clientLoader h.later.closed info.bridgePath bridgeDexPath _)
    fun _ loader ⟨h, hloader⟩ => ?_
  refine follows_bind_except (follows_lift (follows_findClassMethod h.closed _))
    fun _ findClass hfind => ?_
  refine follows_bind_except (follows_unchecked hfind.closed trivial) fun _ name hname => ?_
  refine follows_bind_except (follows_unchecked hname.later.closed trivial) fun _ cls hcls => ?_
  refine follows_bind_except (follows_checkReference hcls.later.closed _ cls)
    fun _ _ ⟨hchecked, hne⟩ => ?_
  refine follows_bind_except (follows_unchecked hchecked.closed trivial) fun _ path hpath => ?_
  refine follows_bind_except (follows_unchecked hpath.later.closed trivial)
    fun hist' method hmethod => ?_
  have hlast : Later _ hist' := hpath.later.trans hmethod.later
  have hcls' := (hchecked.trans hlast).subset hcls.mem
  have hname' := (hcls.later.trans (hchecked.trans hlast)).subset hname.mem
  have hloader' := hloader.mono
    (hfind.trans (hname.later.trans (hcls.later.trans (hchecked.trans hlast)))).subset
  have hjar : LoadsJar info hist' cls method [path, loader.2] := by
    refine ⟨?_, hne, _, hmethod.mem⟩
    exact ⟨path, loader.2, rfl, hmethod.later.subset hpath.mem, hloader', findClass, name, hcls',
      hname'⟩
  have hcall : Follows (Allowed info) (fun hist' _ => opened hist' = none)
      (ask (.callStaticVoidMethod cls method [path, loader.2])) hist' := by
    refine follows_call ⟨hlast.closed, hjar⟩ fun x => ?_
    exact (opened_append _ _).trans hlast.closed
  refine follows_bind_except (follows_lift hcall) fun _ _ hclosed => ?_
  refine (follows_checkException hclosed _).mono fun _ r hr => ?_
  cases r with
  | error e => exact hr
  | ok u => exact hr.closed

theorem follows_loadJava (hclosed : opened hist = none) (bridgeDexPath : Option (List UInt8)) :
    Follows (Allowed info) (fun hist' _ => opened hist' = none)
      (loadJava info.bridgePath bridgeDexPath info.modulePath) hist := by
  unfold loadJava
  refine follows_bind (follows_loadBridge hclosed bridgeDexPath) fun _ r hr => ?_
  cases r with
  | error ret => exact hr
  | ok u => exact hr

/-! ## The entry -/

theorem follows_doXload (hclosed : opened hist = none) (already : Int32) :
    Follows (Allowed info) (fun hist' _ => opened hist' = none) (doXload already (some info))
      hist := by
  unfold doXload
  refine follows_bind (follows_ask hclosed trivial) fun _ _ h => ?_
  replace h := h.later.closed
  split
  · exact follows_pure h
  split
  · exact follows_bind (follows_loadNative h) fun _ _ h => follows_pure h
  refine follows_bind (follows_ask h trivial) fun _ _ h => ?_
  replace h := h.later.closed
  split
  · exact follows_pure h
  refine follows_bind (follows_getEnv h) fun _ _ h => ?_
  split
  · exact follows_pure h
  refine follows_bind (follows_askDexOutputCache h _) fun _ r h => ?_
  split
  · exact follows_pure h
  · exact follows_bind (follows_loadJava h none) fun _ _ h => follows_pure h
  · split
    · exact follows_pure h
    · exact follows_bind (follows_loadJava h _) fun _ _ h => follows_pure h

theorem follows_clientEntry (already : Int32) (info : XloaderInfo) :
    Follows (Allowed info) (fun hist' _ => opened hist' = none) (clientEntry already (some info))
      [] := by
  unfold clientEntry
  split
  · exact follows_pure rfl
  · exact follows_doXload rfl already

/-- The exchanges of a call of the entry are allowed one by one, and leave no
library open. -/
def Disciplined (info : XloaderInfo) (xs : History) : Prop :=
  (∀ pre op x post, xs = pre ++ ⟨op, x⟩ :: post → Allowed info pre op) ∧ opened xs = none

/-- **The client runs what it was told to run, and tidies up.** -/
theorem client_disciplined (already : Int32) (info : XloaderInfo) {xs : History}
    {r : Option (Int32 × Int32)} (h : (clientEntry already (some info)).Makes xs r) :
    Disciplined info xs := by
  obtain ⟨hcalls, hend⟩ := (follows_clientEntry already info).makes h
  exact ⟨hcalls, hend⟩

/-- When the entry of a module is called, its library is the one that is open. -/
theorem client_disciplined_native :
    (∃ library, opened (nativeCall.exchanges.take 5) = some library ∧
      library.path = ascii "m.so".toList) ∧ opened nativeCall.exchanges = none := by
  obtain ⟨hcalls, hclosed⟩ := client_disciplined 0 _ nativeCall_makes
  obtain ⟨library, hopen, -, hpath⟩ := hcalls (nativeCall.exchanges.take 5)
    (.callfun moduleEntry 1) (1 : ℕ) (nativeCall.exchanges.drop 6) rfl
  refine ⟨⟨library, hopen, ?_⟩, hclosed⟩
  have hne : moduleEntry ≠ getJNIEnv := by decide
  simpa [hne] using hpath

end Client

end Dynamicloader
