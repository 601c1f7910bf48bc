import Dynamicloader.Client.Model
/-!
# Client — one module for each copy of the library

`client_entry` refuses a second load: `do_xload` sets `g_already_Xloader` and
the entry looks at it first. The flag is set behind `load_java` only, whether
it has worked or not. A library is loaded by a `return` before that line, so
it leaves the flag as it was and any module can be loaded after it.

`Calls` is a sequence of calls on one copy of the client, with what each asks
and returns.
-/

namespace Dynamicloader

namespace Client

open Prog
open Xloaderd (ascii)

/-- The calls of a run with their answers. -/
abbrev Trace := List (Exchange Op Op.Ans)

/-- A call of `client_entry`: the block, what is asked, and the result. -/
structure Call where
  para : Option XloaderInfo
  exchanges : Trace
  result : Int32

/-- **A sequence of calls**, from a value of `g_already_Xloader` on. -/
inductive Calls : Int32 → List Call → Prop
  | nil {already : Int32} : Calls already []
  | cons {already next : Int32} {c : Call} {cs : List Call} :
      (clientEntry already c.para).Makes c.exchanges (some (c.result, next)) →
      Calls next cs → Calls already (c :: cs)

/-- The `module_entry` of a library is called. -/
def Op.RunsNative : Op → Prop
  | .callfun symbol _ => symbol = moduleEntry
  | _ => False

/-- `loadModuleFromJar` is called: it is the only static method without a
result that is. -/
def Op.RunsJar : Op → Prop
  | .callStaticVoidMethod .. => True
  | _ => False

namespace Call

def RanNative (c : Call) : Prop := ∃ x ∈ c.exchanges, x.1.RunsNative

def RanJar (c : Call) : Prop := c.result = success ∧ ∃ x ∈ c.exchanges, x.1.RunsJar

/-- **A module has run**: a library by its entry, or a jar without an
exception. -/
def Ran (c : Call) : Prop := c.RanNative ∨ c.RanJar

end Call

/-- **At most one call runs a module**, and all that follow it are refused. -/
def LoadsOnce (cs : List Call) : Prop :=
  cs.Pairwise fun c d => c.Ran → ¬ d.Ran ∧ d.result = errorClientEntryLoader

/-! ## What the parts ask -/

/-- Asked of a process with one value of the property and one set of files,
`askDexOutputCache` is `isDexOutputCache`. -/
theorem run_askDexOutputCache {σ : Type} {process : σ → (op : Op) → op.Ans × σ}
    {sdk : List UInt8} {stat : List UInt8 → ℤ}
    (hsdk : ∀ s key, (process s (.propertyGet key)).1 = sdk)
    (hstat : ∀ s path, (process s (.stat path)).1 = decide (0 ≤ stat path))
    (apkPath : List UInt8) (s : σ) :
    ((askDexOutputCache apkPath).run process s).1 =
      (isDexOutputCache sdk stat apkPath).map fun r => decide (r.2 ≠ 0) := by
  unfold askDexOutputCache isDexOutputCache
  split
  · rfl
  · have hask : ∀ s key, ((ask (.propertyGet key)).run process s).1 = sdk := hsdk
    rw [run_bind, hask]
    cases dexPath sdk apkPath with
    | none => rfl
    | some path =>
      show some (process _ (.stat (Memory.cstr path 0))).1 = _
      rw [hstat]
      by_cases h : stat (Memory.cstr path 0) < 0
      · have hneg : ¬ 0 ≤ stat (Memory.cstr path 0) := by omega
        simp [h, hneg]
      · have hnonneg : 0 ≤ stat (Memory.cstr path 0) := by omega
        simp [h, hnonneg]

section Spec

variable {A : (op : Op) → op.Ans → Prop} {P : Op → Prop}

/-- A call that runs no module. -/
def Op.Plain (op : Op) : Prop := ¬ op.RunsNative ∧ ¬ op.RunsJar

theorem spec_ask {op : Op} (hop : P op) : Spec A P (fun _ => True) (ask op) :=
  ⟨hop, fun _ _ => trivial⟩

variable (hP : ∀ op : Op, op.Plain → P op)

include hP

theorem spec_plain (op : Op) (hop : op.Plain) : Spec A P (fun _ => True) (ask op) :=
  spec_ask (hP op hop)

theorem spec_callLibrary (path : List UInt8) {symbol : List UInt8}
    (hcall : ∀ fn, P (.callfun symbol fn)) :
    Spec A P (fun _ => True) (callLibrary path symbol) := by
  have hdlerror : Spec A P (fun _ => True) (ask .dlerror) := spec_plain hP _ ⟨id, id⟩
  unfold callLibrary
  refine spec_bind (spec_plain hP _ ⟨id, id⟩) fun handle _ => ?_
  split
  · exact spec_bind hdlerror fun _ _ => spec_pure trivial
  · refine spec_bind hdlerror fun _ _ => ?_
    refine spec_bind (spec_plain hP _ ⟨id, id⟩) fun fn _ => ?_
    refine spec_bind hdlerror fun err _ => ?_
    split
    · exact spec_bind (spec_plain hP _ ⟨id, id⟩) fun _ _ => spec_pure trivial
    · refine spec_bind (spec_ask (hcall fn)) fun result _ => ?_
      exact spec_bind (spec_plain hP _ ⟨id, id⟩) fun _ _ => spec_pure trivial

/-- A library's load is never refused. -/
theorem spec_loadNative (hcall : ∀ fn, P (.callfun moduleEntry fn)) (modulePath : List UInt8) :
    Spec A P (· ≠ errorClientEntryLoader) (loadNative modulePath) := by
  unfold loadNative
  refine spec_bind (spec_callLibrary hP modulePath hcall) fun r _ => ?_
  split
  · exact spec_pure (by decide)
  · exact spec_pure (by decide)
  · exact spec_pure (by decide)

theorem spec_getEnv : Spec A P (fun _ => True) getEnv := by
  have hcall : ∀ fn, P (.callfun getJNIEnv fn) := fun fn =>
    hP _ ⟨show getJNIEnv ≠ moduleEntry by decide, id⟩
  unfold getEnv
  refine spec_bind (spec_callLibrary hP _ hcall) fun r _ => ?_
  split
  · exact spec_pure trivial
  · exact spec_pure trivial

theorem spec_askDexOutputCache (apkPath : List UInt8) :
    Spec A P (fun _ => True) (askDexOutputCache apkPath) := by
  unfold askDexOutputCache
  split
  · exact spec_pure trivial
  · refine spec_bind (spec_plain hP _ ⟨id, id⟩) fun sdk _ => ?_
    split
    · exact spec_pure trivial
    · exact spec_bind (spec_plain hP _ ⟨id, id⟩) fun _ _ => spec_pure trivial

theorem spec_findClassMethod (jcClientLoader : Ref) :
    Spec A P (fun _ => True) (findClassMethod jcClientLoader) := by
  unfold findClassMethod
  refine spec_bind (spec_plain hP _ ⟨id, id⟩) fun findClass _ => ?_
  split
  · exact spec_plain hP _ ⟨id, id⟩
  · exact spec_pure trivial

end Spec

/-! ## The bridge is left with codes of its own -/

section Bridge

variable {A : (op : Op) → op.Ans → Prop} {P : Op → Prop} {E : Int32 → Prop}
variable (hP : ∀ op : Op, op.Plain → P op)

include hP

theorem spec_checkException {error : Int32} (herror : E (-error)) :
    Spec A P (Outcome E fun _ => True) (checkException error).run := by
  unfold checkException
  refine spec_bind_except (spec_lift (spec_plain hP _ ⟨id, id⟩)) fun b _ => ?_
  split
  · exact herror
  · exact spec_pure trivial

theorem spec_checkReference {error : Int32} (herror : E (-error)) (ref : Ref) :
    Spec A P (Outcome E fun _ => True) (checkReference error ref).run := by
  unfold checkReference
  refine spec_bind_except (spec_checkException hP herror) fun _ _ => ?_
  split
  · exact herror
  · exact spec_pure trivial

/-- What is asked without being checked. -/
theorem spec_unchecked {op : Op} (hop : op.Plain) :
    Spec A P (Outcome E fun _ => True) (liftM (ask op) : Act op.Ans).run :=
  spec_lift (spec_plain hP op hop)

theorem spec_newClassLoader (hload : E (-errorClientLoadError)) (name sig : List UInt8)
    (args : List Ref) : Spec A P (Outcome E fun _ => True) (newClassLoader name sig args).run := by
  unfold newClassLoader
  refine spec_bind_except (spec_unchecked hP ⟨id, id⟩) fun jc _ => ?_
  refine spec_bind_except (spec_checkException hP hload) fun _ _ => ?_
  refine spec_bind_except (spec_unchecked hP ⟨id, id⟩) fun init _ => ?_
  refine spec_bind_except (spec_unchecked hP ⟨id, id⟩) fun jo _ => ?_
  exact spec_bind_except (spec_checkReference hP hload jo) fun _ _ => spec_pure trivial

theorem spec_clientLoader (hload : E (-errorClientLoadError)) (bridgePath : List UInt8)
    (bridgeDexPath : Option (List UInt8)) (joAppLoader : Ref) :
    Spec A P (Outcome E fun _ => True) (clientLoader bridgePath bridgeDexPath joAppLoader).run := by
  unfold clientLoader
  refine spec_bind_except (spec_unchecked hP ⟨id, id⟩) fun jstr _ => ?_
  split
  · exact spec_newClassLoader hP hload _ _ _
  · refine spec_bind_except (spec_unchecked hP ⟨id, id⟩) fun jstrDex _ => ?_
    exact spec_newClassLoader hP hload _ _ _

theorem spec_loadBridge (hjar : ∀ cls method args, P (.callStaticVoidMethod cls method args))
    (hload : E (-errorClientLoadError)) (hbridge : E (-errorClientBridgeError))
    (hfailed : E (-errorClientBridgeFailed)) (bridgePath : List UInt8)
    (bridgeDexPath : Option (List UInt8)) (modulePath : List UInt8) :
    Spec A P (Outcome E fun _ => True) (loadBridge bridgePath bridgeDexPath modulePath).run := by
  unfold loadBridge
  refine spec_bind_except (spec_unchecked hP ⟨id, id⟩) fun _ _ => ?_
  refine spec_bind_except (spec_checkException hP hload) fun _ _ => ?_
  refine spec_bind_except (spec_unchecked hP ⟨id, id⟩) fun _ _ => ?_
  refine spec_bind_except (spec_unchecked hP ⟨id, id⟩) fun _ _ => ?_
  refine spec_bind_except (spec_unchecked hP ⟨id, id⟩) fun _ _ => ?_
  refine spec_bind_except (spec_checkException hP hload) fun _ _ => ?_
  refine spec_bind_except (spec_unchecked hP ⟨id, id⟩) fun _ _ => ?_
  refine spec_bind_except (spec_unchecked hP ⟨id, id⟩) fun _ _ => ?_
  refine spec_bind_except (spec_clientLoader hP hload bridgePath bridgeDexPath _) fun loader _ => ?_
  refine spec_bind_except (spec_lift (spec_findClassMethod hP _)) fun _ _ => ?_
  refine spec_bind_except (spec_unchecked hP ⟨id, id⟩) fun _ _ => ?_
  refine spec_bind_except (spec_unchecked hP ⟨id, id⟩) fun jcBridge _ => ?_
  refine spec_bind_except (spec_checkReference hP hbridge jcBridge) fun _ _ => ?_
  refine spec_bind_except (spec_unchecked hP ⟨id, id⟩) fun _ _ => ?_
  refine spec_bind_except (spec_unchecked hP ⟨id, id⟩) fun _ _ => ?_
  refine spec_bind_except (spec_lift (spec_ask (hjar _ _ _))) fun _ _ => ?_
  exact spec_checkException hP hfailed

/-- A jar's load is never refused either. -/
theorem spec_loadJava (hjar : ∀ cls method args, P (.callStaticVoidMethod cls method args))
    (bridgePath : List UInt8) (bridgeDexPath : Option (List UInt8)) (modulePath : List UInt8) :
    Spec A P (· ≠ errorClientEntryLoader) (loadJava bridgePath bridgeDexPath modulePath) := by
  unfold loadJava
  refine spec_bind (spec_loadBridge hP (E := (· ≠ errorClientEntryLoader)) hjar (by decide)
    (by decide) (by decide) bridgePath bridgeDexPath modulePath) fun r hr => ?_
  split
  · exact hr
  · exact spec_pure (by decide)

end Bridge

/-! ## One call -/

/-- **What a call does to the flag.** -/
inductive Entered (already : Int32) (xs : Trace) (result next : Int32) : Prop
  /-- The flag is set: the call is refused. -/
  | refused : already ≠ 0 → xs = [] → result = errorClientEntryLoader → next = already →
      Entered already xs result next
  /-- The flag is left, and no jar has run. -/
  | left : already = 0 → next = 0 → result ≠ errorClientEntryLoader →
      (∀ x ∈ xs, ¬ x.1.RunsJar) → Entered already xs result next
  /-- The flag is set now, and no library has run. -/
  | set : already = 0 → next = 1 → result ≠ errorClientEntryLoader →
      (∀ x ∈ xs, ¬ x.1.RunsNative) → Entered already xs result next

section Behind

-- what follows calls that run nothing
variable {xs ys : Trace} {result next : Int32} (hxs : ∀ x ∈ xs, x.1.Plain)

include hxs

/-- A return with a code of its own. -/
theorem entered_of_return {code : Int32} (hne : code ≠ errorClientEntryLoader)
    (h : (pure (some (code, 0)) : Io (Option (Int32 × Int32))).Makes ys (some (result, next))) :
    Entered 0 (xs ++ ys) result next := by
  obtain ⟨rfl, heq⟩ := h
  cases heq
  refine .left rfl rfl hne ?_
  rw [List.append_nil]
  exact fun x hx => (hxs x hx).2

/-- The load of a library, which leaves the flag. -/
theorem entered_of_loadNative {modulePath : List UInt8}
    (h : (loadNative modulePath >>= fun ret =>
      pure (some (ret, (0 : Int32)))).Makes ys (some (result, next))) :
    Entered 0 (xs ++ ys) result next := by
  obtain ⟨us, ret, vs, rfl, hload, rfl, heq⟩ := makes_bind.mp h
  cases heq
  have hspec : Spec (fun _ _ => True) (fun op => ¬ op.RunsJar) (· ≠ errorClientEntryLoader)
      (loadNative modulePath) := spec_loadNative (fun _ hop => hop.2) (fun _ => id) _
  obtain ⟨hus, hne⟩ := hspec.makes hload fun _ _ => trivial
  refine .left rfl rfl hne ?_
  rw [List.append_nil, List.forall_mem_append]
  exact ⟨fun x hx => (hxs x hx).2, hus⟩

/-- The load of a jar, which sets it. -/
theorem entered_of_loadJava {bridgePath modulePath : List UInt8} {dexPath : Option (List UInt8)}
    (h : (loadJava bridgePath dexPath modulePath >>= fun ret =>
      pure (some (ret, (1 : Int32)))).Makes ys (some (result, next))) :
    Entered 0 (xs ++ ys) result next := by
  obtain ⟨us, ret, vs, rfl, hload, rfl, heq⟩ := makes_bind.mp h
  cases heq
  have hspec : Spec (fun _ _ => True) (fun op => ¬ op.RunsNative) (· ≠ errorClientEntryLoader)
      (loadJava bridgePath dexPath modulePath) :=
    spec_loadJava (fun _ hop => hop.1) (fun _ _ _ => id) _ _ _
  obtain ⟨hus, hne⟩ := hspec.makes hload fun _ _ => trivial
  refine .set rfl rfl hne ?_
  rw [List.append_nil, List.forall_mem_append]
  exact ⟨fun x hx => (hxs x hx).1, hus⟩

end Behind

/-- The module's file is looked for first, then, for a jar, the bridge's, the
environment and the dex file; none of this runs a module. -/
theorem doXload_entered {para : Option XloaderInfo} {xs : Trace} {result next : Int32}
    (h : (doXload 0 para).Makes xs (some (result, next))) : Entered 0 xs result next := by
  have hstat : ∀ path, (Op.stat path).Plain := fun path => ⟨id, id⟩
  cases para with
  | none =>
    have hnil : ∀ x ∈ ([] : Trace), x.1.Plain := by simp
    exact entered_of_return hnil (by decide) h
  | some info =>
    unfold doXload at h
    obtain ⟨found, xs, rfl, hfound⟩ := makes_call_bind h
    have hmodule : ∀ x ∈ ([⟨.stat info.modulePath, found⟩] : Trace), x.1.Plain := by
      simp [hstat]
    split at hfound
    · exact entered_of_return hmodule (by decide) hfound
    split at hfound
    · -- the `return` before the flag is set
      exact entered_of_loadNative hmodule hfound
    obtain ⟨bridge, ys, rfl, hbridge⟩ := makes_call_bind hfound
    have hfiles : ∀ x ∈ ([⟨.stat info.modulePath, found⟩, ⟨.stat info.bridgePath, bridge⟩] : Trace),
        x.1.Plain := by
      simp [hstat]
    split at hbridge
    · exact entered_of_return hfiles (by decide) hbridge
    obtain ⟨ys, env, zs, rfl, hgetEnv, henv⟩ := makes_bind.mp hbridge
    have hspec : Spec (fun _ _ => True) Op.Plain (fun _ => True) getEnv := spec_getEnv fun _ => id
    have hys := List.forall_mem_append.mpr ⟨hfiles, (hspec.makes hgetEnv fun _ _ => trivial).1⟩
    split at henv
    · exact entered_of_return hys (by decide) henv
    obtain ⟨us, cached, vs, rfl, hask, hcached⟩ := makes_bind.mp henv
    have hspec : Spec (fun _ _ => True) Op.Plain (fun _ => True)
      (askDexOutputCache info.bridgePath) := spec_askDexOutputCache (fun _ => id) _
    have hus := List.forall_mem_append.mpr ⟨hys, (hspec.makes hask fun _ _ => trivial).1⟩
    rw [← List.append_assoc]
    -- with the dex file there or not, unless a path is too long for its buffer
    split at hcached
    · cases hcached.2
    · exact entered_of_loadJava hus hcached
    · split at hcached
      · cases hcached.2
      · exact entered_of_loadJava hus hcached

theorem clientEntry_entered {already : Int32} {para : Option XloaderInfo} {xs : Trace}
    {result next : Int32} (h : (clientEntry already para).Makes xs (some (result, next))) :
    Entered already xs result next := by
  unfold clientEntry at h
  split at h
  · rename_i hset
    obtain ⟨rfl, heq⟩ := h
    cases heq
    exact .refused hset rfl rfl rfl
  · rename_i hclear
    obtain rfl : already = 0 := of_not_not hclear
    exact doXload_entered h

/-! ## A sequence of calls -/

/-- Once the flag is set, every call is refused. -/
theorem Calls.refused {already : Int32} {cs : List Call} (h : Calls already cs)
    (hset : already ≠ 0) : ∀ d ∈ cs, ¬ d.Ran ∧ d.result = errorClientEntryLoader := by
  induction h with
  | nil => simp
  | @cons already next c cs hc _ ih =>
    cases clientEntry_entered hc with
    | refused _ hxs hresult hnext =>
      rw [List.forall_mem_cons]
      refine ⟨⟨?_, hresult⟩, ih (hnext ▸ hset)⟩
      simp [Call.Ran, Call.RanNative, Call.RanJar, hxs]
    | left hclear _ _ _ => exact absurd hclear hset
    | set hclear _ _ _ => exact absurd hclear hset

/-- As long as it is not set, none is. -/
theorem Calls.head_not_refused {d : Call} {ds : List Call} (h : Calls 0 (d :: ds)) :
    d.result ≠ errorClientEntryLoader := by
  cases h with
  | cons hd _ =>
    cases clientEntry_entered hd with
    | refused hset _ _ _ => exact absurd rfl hset
    | left _ _ hne _ => exact hne
    | set _ _ hne _ => exact hne

/-- What the first of some calls means for the others. -/
theorem Calls.refused_iff {already next : Int32} {c : Call} {cs : List Call}
    (hc : Entered already c.exchanges c.result next) (hcs : Calls next cs) :
    (∀ d ∈ cs, c.Ran → ¬ d.Ran ∧ d.result = errorClientEntryLoader) ↔
      ∀ d ∈ cs, ¬ c.RanNative := by
  cases hc with
  | refused _ hxs _ _ => simp [Call.Ran, Call.RanNative, Call.RanJar, hxs]
  | left _ hnext _ hjarless =>
    subst hnext
    constructor
    · intro hrefused d hd hnative
      -- the call right behind is let in
      cases cs with
      | nil => cases hd
      | cons d' ds =>
        exact hcs.head_not_refused (hrefused d' List.mem_cons_self (.inl hnative)).2
    · rintro hlast d hd (hnative | ⟨-, x, hx, hjar⟩)
      · exact absurd hnative (hlast d hd)
      · exact absurd hjar (hjarless x hx)
  | set _ hnext _ hlibless =>
    subst hnext
    constructor
    · rintro - d - ⟨x, hx, hnative⟩
      exact hlibless x hx hnative
    · intro _ d hd _
      exact hcs.refused (by decide) d hd

/-- **When a copy of the client loads one module at most**: no call is made
after one that has run a library. -/
theorem loadsOnce_iff {cs : List Call} (h : Calls 0 cs) :
    LoadsOnce cs ↔ cs.Pairwise fun c _ => ¬ c.RanNative := by
  unfold LoadsOnce
  -- the flag that one call leaves decides about all behind it, so it is any here
  generalize (0 : Int32) = already at h
  induction h with
  | nil => simp
  | cons hc hcs ih =>
    rw [List.pairwise_cons, List.pairwise_cons, ih]
    exact and_congr_left fun _ => Calls.refused_iff (clientEntry_entered hc) hcs

/-- A process in which all files are there and everything works. -/
def works : (op : Op) → op.Ans
  | .stat _ => true
  | .propertyGet _ => ([] : List UInt8)
  | .dlerror => none
  | .dlclose _ => ()
  | .callStaticVoidMethod .. => ()
  | .clearException => false
  | .dlopen _ => (1 : ℕ)
  | .dlsym .. => (1 : ℕ)
  | .callfun .. => (1 : ℕ)
  | .findClass _ => (1 : ℕ)
  | .getMethodID .. => (1 : ℕ)
  | .getStaticMethodID .. => (1 : ℕ)
  | .newObject .. => (1 : ℕ)
  | .callObjectMethod .. => (1 : ℕ)
  | .callStaticObjectMethod .. => (1 : ℕ)
  | .stoJstring _ => (1 : ℕ)

def worksAlways : Unit → (op : Op) → op.Ans × Unit := fun s op => (works op, s)

/-- The load of a library there. -/
def nativeCall : Call where
  para := some ⟨ascii "a".toList, ascii "b".toList, ascii "m.so".toList⟩
  exchanges := ((doXload 0 (some ⟨ascii "a".toList, ascii "b".toList, ascii "m.so".toList⟩)).record
    worksAlways ()).1
  result := success

theorem nativeCall_makes : (clientEntry 0 nativeCall.para).Makes nativeCall.exchanges
    (some (nativeCall.result, 0)) := by
  have h : (clientEntry 0 nativeCall.para).Makes
      ((clientEntry 0 nativeCall.para).record worksAlways ()).1
      ((clientEntry 0 nativeCall.para).record worksAlways ()).2 := record_makes _ ()
  exact h

theorem nativeCall_ranNative : nativeCall.RanNative :=
  ⟨⟨.callfun moduleEntry 1, (1 : ℕ)⟩, List.mem_of_getElem? (i := 5) rfl, rfl⟩

/-- Two libraries are loaded one after the other. -/
theorem two_libraries_run :
    Calls 0 [nativeCall, nativeCall] ∧ nativeCall.Ran ∧ ¬ LoadsOnce [nativeCall, nativeCall] := by
  refine ⟨.cons nativeCall_makes (.cons nativeCall_makes .nil), .inl nativeCall_ranNative, ?_⟩
  intro h
  have hsecond := (List.pairwise_cons.mp h).1 nativeCall (by simp) (.inl nativeCall_ranNative)
  exact hsecond.1 (.inl nativeCall_ranNative)

/-- A call without a block and then one that loads a library. -/
theorem library_run_last :
    Calls 0 [⟨none, [], -1⟩, nativeCall] ∧ LoadsOnce [⟨none, [], -1⟩, nativeCall] := by
  have hcalls : Calls 0 [⟨none, [], -1⟩, nativeCall] :=
    .cons ⟨rfl, rfl⟩ (.cons nativeCall_makes .nil)
  exact ⟨hcalls, (loadsOnce_iff hcalls).mpr (by simp [Call.RanNative])⟩

end Client

end Dynamicloader
