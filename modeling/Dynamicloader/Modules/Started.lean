import Dynamicloader.Modules.Model
/-!
# Modules — how often a module is started

A class that is registered stays in `sLoadedPackageCallbacks`, and every
`callAll` from then on calls it. So the wrapper that `Bridge` makes as the
`w`-th is called once for each class that is registered from it on, and one
of `XposedBridge` once for each listing that is read to its end from its own
on. That is once for the usual listing of one class in one archive, and
more often for whatever comes behind it.

What a failing class does not do is keep the others from being registered:
the registered classes are those that can be, in their order
(`StartedOnce.registered`).
-/

namespace Dynamicloader

namespace Modules

open Bridge (ArraySort CopyOnWriteSortedSet)

/-! ## What a log says -/

/-- The registrations: the wrapper, and the class behind it. -/
def hooked (out : List Output) : List (ℕ × String) :=
  out.filterMap fun
    | .hookLoadPackage callback moduleClassName => some (callback, moduleClassName)
    | _ => none

def Output.isStart (w : ℕ) : Output → Bool
  | .handleLoadPackage callback _ => callback = w
  | _ => false

/-- How often `handleLoadPackage` is called on a wrapper. -/
def starts (w : ℕ) (out : List Output) : ℕ := out.countP (·.isStart w)

theorem hooked_append (out out' : List Output) :
    hooked (out ++ out') = hooked out ++ hooked out' := List.filterMap_append

theorem starts_append (w : ℕ) (out out' : List Output) :
    starts w (out ++ out') = starts w out + starts w out' := List.countP_append

/-- **Every listed class that can be registered is, and started once.** -/
structure StartedOnce (classes : List String) (out : List Output) : Prop where
  registered : (hooked out).map Prod.snd = classes
  once : ∀ w ∈ (hooked out).map Prod.fst, starts w out = 1

theorem hooked_logged (e : Except Throwable Unit) : hooked (logged e) = [] := by
  cases e with
  | ok u => rfl
  | error t => rfl

theorem starts_logged (w : ℕ) (e : Except Throwable Unit) : starts w (logged e) = 0 := by
  cases e with
  | ok u => rfl
  | error t => rfl

section CallAll

variable (handle : ℕ → Except Throwable Unit) (lpparam : LoadPackageParam)

theorem hooked_callAll (callbacks : List ℕ) : hooked (callAll handle lpparam callbacks) = [] := by
  induction callbacks with
  | nil => rfl
  | cons callback callbacks ih =>
    rw [callAll, hooked_append, ih, List.append_nil]
    exact hooked_logged (handle callback)

theorem starts_callAll (w : ℕ) (callbacks : List ℕ) :
    starts w (callAll handle lpparam callbacks) = callbacks.count w := by
  induction callbacks with
  | nil => rfl
  | cons callback callbacks ih =>
    have hcons : starts w (.handleLoadPackage callback lpparam :: logged (handle callback)) =
        starts w (logged (handle callback)) + if callback = w then 1 else 0 := by
      simp [starts, List.countP_cons, Output.isStart]
    rw [callAll, starts_append, ih, hcons, starts_logged, List.count_cons]
    simp only [beq_iff_eq]
    omega

/-- Each registered callback is called once by one `callAll`. -/
theorem starts_callAll_callbacks (c : Callbacks) (w : ℕ) :
    starts w (callAll handle lpparam c.sLoadedPackageCallbacks) = if w < c.made then 1 else 0 := by
  rw [starts_callAll, c.registered.count_eq, List.nodup_range.count]
  simp only [List.mem_range]

end CallAll

/-! ## Registering -/

/-- The classes are registered in their order, and get the next numbers. -/
structure Registers (classes : List String) (c c' : Callbacks) (out : List Output) : Prop where
  made : c'.made = c.made + classes.length
  hooked : hooked out = (List.range' c.made classes.length).zip classes

variable {c c' c'' : Callbacks} {out out' : List Output} {names names' : List String}

theorem Registers.none (h : Modules.hooked out = []) : Registers [] c c out := ⟨rfl, h⟩

theorem Registers.append (h : Registers names c c' out) (h' : Registers names' c' c'' out') :
    Registers (names ++ names') c c'' (out ++ out') where
  made := by rw [h'.made, h.made, List.length_append, Nat.add_assoc]
  hooked := by
    have hlen : (List.range' c.made names.length).length = names.length := List.length_range'
    rw [hooked_append, h.hooked, h'.hooked, h.made, List.length_append, ← List.range'_append_1,
      List.zip_append hlen]

theorem Registers.classes_eq (h : Registers names c c' out) :
    (Modules.hooked out).map Prod.snd = names := by
  rw [h.hooked, List.map_snd_zip (by rw [List.length_range'])]

theorem Registers.mem_iff (h : Registers names c c' out) {w : ℕ} :
    w ∈ (Modules.hooked out).map Prod.fst ↔ c.made ≤ w ∧ w < c'.made := by
  rw [h.hooked, List.map_fst_zip (by rw [List.length_range']), List.mem_range'_1, h.made]

theorem Registers.le (h : Registers names c c' out) : c.made ≤ c'.made := by
  have := h.made
  omega

/-- Started once, by the numbers of the wrappers. -/
theorem Registers.startedOnce_iff_starts (h : Registers names c c' out) :
    StartedOnce names out ↔ ∀ w, c.made ≤ w → w < c'.made → starts w out = 1 := by
  constructor
  · intro hstarted w hw hw'
    exact hstarted.once w (h.mem_iff.mpr ⟨hw, hw'⟩)
  · intro honce
    refine ⟨h.classes_eq, fun w hw => ?_⟩
    obtain ⟨hle, hlt⟩ := h.mem_iff.mp hw
    exact honce w hle hlt

/-- The classes of a listing that are good. -/
def listed (good : String → Line → Bool) (lines : List Line) : List String :=
  lines.filterMap fun line =>
    if !skipped (trim line.text) && good (trim line.text) line then some (trim line.text) else none

/-- **What the lines do one by one, the loop does**: what holds of no line,
of one line and of two parts together holds of the listing. -/
theorem readLine_run {load : String → Line → Callbacks → Callbacks × List Output}
    {R : List String → Callbacks → Callbacks → List Output → Prop} (good : String → Line → Bool)
    (hnil : ∀ c, R [] c c [])
    (happend : ∀ classes classes' c c' c'' out out', R classes c c' out → R classes' c' c'' out' →
      R (classes ++ classes') c c'' (out ++ out'))
    (hload : ∀ name line c, R (bif good name line then [name] else []) c (load name line c).1
      (.log ("  Loading class " ++ name) :: (load name line c).2))
    (lines : List Line) (c : Callbacks) :
    R (listed good lines) c ((readLine load).run c lines) ((readLine load).outputs c lines) := by
  induction lines generalizing c with
  | nil => exact hnil c
  | cons line lines ih =>
    have hhead : R (listed good [line]) c (readLine load c line).1 (readLine load c line).2 := by
      cases hskip : skipped (trim line.text) with
      | true =>
        have hlisted : listed good [line] = [] := by simp [listed, hskip]
        have hread : readLine load c line = (c, []) := by simp only [readLine, hskip, if_true]
        rw [hlisted, hread]
        exact hnil c
      | false =>
        have hlisted : listed good [line] =
            bif good (trim line.text) line then [trim line.text] else [] := by
          cases hgood : good (trim line.text) line with
          | true => simp [listed, hskip, hgood]
          | false => simp [listed, hskip, hgood]
        have hread : readLine load c line = ((load (trim line.text) line c).1,
            .log ("  Loading class " ++ trim line.text) :: (load (trim line.text) line c).2) := by
          simp only [readLine, hskip, Bool.false_eq_true, if_false]
        rw [hlisted, hread]
        exact hload (trim line.text) line c
    have hcons : listed good (line :: lines) = listed good [line] ++ listed good lines :=
      List.filterMap_append (l := [line])
    have htail := ih (readLine load c line).1
    rw [hcons, Machine.run_cons, Machine.outputs_cons]
    exact happend _ _ _ _ _ _ _ hhead htail

/-! ## `Bridge` -/

/-- The class can be registered: it loads, is not skipped, and what is done
with it before does not throw. -/
def LoadModule.good (call : LoadModule) (moduleClassName : String) (line : Line) : Bool :=
  match call.mcl.loadClass moduleClassName with
  | .error _ => false
  | .ok moduleClass =>
    !(call.disableResources && moduleClass.isInitPackageResources) && line.newInstance.isOk &&
      call.startClassName.isNone &&
      (moduleClass.isLoadPackage && (!moduleClass.isZygoteInit || line.initZygote.isOk))

/-- The good classes of the listing, if it is read. -/
def LoadModule.classes (isLibLoaded : Bool) (call : LoadModule) : List String :=
  if isLibLoaded && call.fileExists then
    match call.mcl.listing with
    | none => []
    | some listing => listed call.good listing.lines
  else []

/-- What `Bridge` does from one place to another: classes are registered,
and each wrapper is called once for every one of them that is not before
it. -/
structure Advances (classes : List String) (c c' : Callbacks) (out : List Output) : Prop
    extends Registers classes c c' out where
  starts : ∀ w, starts w out = c'.made - max c.made w

theorem Advances.none (h : Modules.hooked out = []) (h' : ∀ w, Modules.starts w out = 0) :
    Advances [] c c out where
  __ := Registers.none h
  starts w := by
    have := h' w
    omega

theorem Advances.append (h : Advances names c c' out) (h' : Advances names' c' c'' out') :
    Advances (names ++ names') c c'' (out ++ out') where
  __ := h.toRegisters.append h'.toRegisters
  starts w := by
    have hle := h.le
    have hle' := h'.le
    rw [starts_append, h.starts, h'.starts]
    omega

/-- A class that is registered is called at once, with all before it. -/
theorem advances_hookLoadPackage (S : ArraySort ℕ) (c : Callbacks) (name : String)
    (handle : ℕ → Except Throwable Unit) (lpparam : LoadPackageParam) :
    Advances [name] c (c.hookLoadPackage S) (.hookLoadPackage c.made name ::
      callAll handle lpparam (c.hookLoadPackage S).sLoadedPackageCallbacks) where
  made := rfl
  hooked := by
    have hcons : Modules.hooked (.hookLoadPackage c.made name ::
        callAll handle lpparam (c.hookLoadPackage S).sLoadedPackageCallbacks) =
        (c.made, name) :: Modules.hooked
          (callAll handle lpparam (c.hookLoadPackage S).sLoadedPackageCallbacks) := rfl
    rw [hcons, hooked_callAll]
    rfl
  starts w := by
    have hcons : Modules.starts w (.hookLoadPackage c.made name ::
        callAll handle lpparam (c.hookLoadPackage S).sLoadedPackageCallbacks) =
        Modules.starts w
          (callAll handle lpparam (c.hookLoadPackage S).sLoadedPackageCallbacks) :=
      List.countP_cons_of_neg (by simp [Output.isStart])
    have hmade : (c.hookLoadPackage S).made = c.made + 1 := rfl
    rw [hcons, starts_callAll_callbacks, hmade]
    split
    · omega
    · omega

/-- One thing that is neither registered nor called. -/
theorem Advances.quiet {o : Output} (h : Modules.hooked [o] = []) (h' : ∀ w, o.isStart w = false) :
    Advances [] c c [o] :=
  .none h fun w => by simp [Modules.starts, h' w]

variable (S : ArraySort ℕ)

theorem ModuleClass.isLoadPackage_of_isMod (moduleClass : ModuleClass)
    (h : moduleClass.isMod = false) : moduleClass.isLoadPackage = false := by
  simp only [isMod, Bool.or_eq_false_iff] at h
  exact h.1.1.2

theorem LoadModule.advances_start (call : LoadModule) (name : String) (moduleClass : ModuleClass)
    (line : Line) (c : Callbacks) :
    Advances (bif moduleClass.isLoadPackage && (!moduleClass.isZygoteInit || line.initZygote.isOk)
        then [name] else [])
      c (call.start S name moduleClass line c).1 (call.start S name moduleClass line c).2 := by
  have hzygote : ∀ c, Advances [] c c
      (if moduleClass.isZygoteInit then [.initZygote name call.apk] else []) := by
    intro c
    split
    · exact .quiet rfl fun _ => rfl
    · exact .none rfl fun _ => rfl
  have hresources : ∀ c, Advances [] c c
      (if moduleClass.isInitPackageResources then [.hookInitPackageResources name] else []) := by
    intro c
    split
    · exact .quiet rfl fun _ => rfl
    · exact .none rfl fun _ => rfl
  unfold start
  cases hinit : (if moduleClass.isZygoteInit then line.initZygote else .ok ()) with
  | error t =>
    have hthrows : moduleClass.isZygoteInit = true ∧ line.initZygote = .error t := by
      split at hinit
      · rename_i hz
        exact ⟨hz, hinit⟩
      · cases hinit
    rw [hthrows.2, hthrows.1]
    simp only [Except.isOk, Except.toBool, Bool.not_true, Bool.or_false, Bool.and_false]
    exact (hthrows.1 ▸ hzygote c).append (.quiet rfl fun _ => rfl)
  | ok u =>
    have hreturns : (!moduleClass.isZygoteInit || line.initZygote.isOk) = true := by
      split at hinit
      · rw [hinit]
        simp [Except.isOk, Except.toBool]
      · rename_i hz
        simp [hz]
    rw [hreturns, Bool.and_true]
    cases moduleClass.isLoadPackage with
    | true =>
      have hpackage := advances_hookLoadPackage S c name line.handleLoadPackage call.lpparam
      exact ((hzygote c).append hpackage).append (hresources _)
    | false => exact ((hzygote c).append (.none rfl fun _ => rfl)).append (hresources c)

theorem LoadModule.advances_startCmd (call : LoadModule) (startClassName name : String)
    (moduleClass : ModuleClass) (line : Line) (c : Callbacks) :
    Advances [] c c (call.startCmd startClassName name moduleClass line) := by
  unfold startCmd
  split
  · have hcall : Advances [] c c [.initCmdApp name call.apk startClassName] :=
      .quiet rfl fun _ => rfl
    exact hcall.append (.none (hooked_logged _) fun w => starts_logged w _)
  · exact .none rfl fun _ => rfl

theorem LoadModule.advances_load (call : LoadModule) (name : String) (line : Line)
    (c : Callbacks) :
    Advances (bif call.good name line then [name] else []) c (call.load S name line c).1
      (call.load S name line c).2 := by
  unfold load good
  cases call.mcl.loadClass name with
  | error t => exact .quiet rfl fun _ => rfl
  | ok moduleClass =>
    simp only
    cases hmod : moduleClass.isMod with
    | false =>
      simp only [moduleClass.isLoadPackage_of_isMod hmod, Bool.false_and, Bool.and_false]
      exact .quiet rfl fun _ => rfl
    | true =>
      cases call.disableResources && moduleClass.isInitPackageResources with
      | true => exact .quiet rfl fun _ => rfl
      | false =>
        cases line.newInstance with
        | error t => exact .quiet rfl fun _ => rfl
        | ok u =>
          cases call.startClassName with
          | none => exact call.advances_start S name moduleClass line c
          | some startClassName =>
            exact call.advances_startCmd startClassName name moduleClass line c

/-- A listing that is read is registered, and called class by class. -/
theorem advances_loadModule (isLibLoaded : Bool) (call : LoadModule) (c : Callbacks) :
    Advances (call.classes isLibLoaded) c (loadModule S isLibLoaded c call).1
      (loadModule S isLibLoaded c call).2 := by
  have hlog : ∀ text c, Advances [] c c [.log text] := fun text c => .quiet rfl fun _ => rfl
  simp only [loadModule, LoadModule.classes]
  cases isLibLoaded with
  | false => exact (hlog _ c).append (hlog _ c)
  | true =>
    cases call.fileExists with
    | false => exact (hlog _ c).append (hlog _ c)
    | true =>
      cases call.mcl.listing with
      | none => exact (hlog _ c).append (hlog _ c)
      | some listing =>
        have hlines := readLine_run (R := Advances) call.good (fun c => .none rfl fun _ => rfl)
          (fun _ _ _ _ _ _ _ h h' => h.append h')
          (fun name line c => (hlog _ c).append (call.advances_load S name line c))
          listing.lines c
        have hthrown : ∀ c, Advances [] c c (listing.ioException.toList.map .logThrowable) := by
          intro c
          cases listing.ioException with
          | none => exact .none rfl fun _ => rfl
          | some e => exact .quiet rfl fun _ => rfl
        have hread := hlines.append (hthrown _)
        rw [List.append_nil] at hread
        exact (hlog _ c).append hread

theorem advances_run (isLibLoaded : Bool) (calls : List LoadModule) (c : Callbacks) :
    Advances (calls.flatMap (·.classes isLibLoaded)) c ((loadModule S isLibLoaded).run c calls)
      ((loadModule S isLibLoaded).outputs c calls) := by
  induction calls generalizing c with
  | nil => exact .none rfl fun _ => rfl
  | cons call calls ih =>
    exact (advances_loadModule S isLibLoaded call c).append (ih _)

/-- **`Bridge` starts each class once if it registers only one.** -/
theorem startedOnce_loadModule_iff (isLibLoaded : Bool) (calls : List LoadModule) :
    StartedOnce (calls.flatMap (·.classes isLibLoaded))
        ((loadModule S isLibLoaded).outputs {} calls) ↔
      (calls.flatMap (·.classes isLibLoaded)).length ≤ 1 := by
  have hadv := advances_run S isLibLoaded calls {}
  have hmade := hadv.made
  rw [hadv.startedOnce_iff_starts]
  simp only [hadv.starts, hmade]
  constructor
  · intro honce
    by_contra hlen
    have hfirst := honce 0 (Nat.zero_le _) (by omega)
    omega
  · intro hlen w _ hw
    omega

/-! ## `XposedBridge` -/

/-- The class can be registered. -/
def LoadModuleFromJar.good (call : LoadModuleFromJar) (moduleClassName : String) (line : Line) :
    Bool :=
  match call.mcl.1.loadClass moduleClassName with
  | .error _ => false
  | .ok moduleClass =>
    !(call.disableResources && moduleClass.isInitPackageResources) && line.newInstance.isOk &&
      moduleClass.isLoadPackage

/-- The listing, if all that is needed for it is there. -/
def LoadModuleFromJar.found (call : LoadModuleFromJar) : Option Listing :=
  if call.fileExists && call.app.isSome then call.mcl.1.listing else none

/-- The listing that the call reads, if it comes to that. -/
def LoadModuleFromJar.reads (call : LoadModuleFromJar) (x : Xposed) : Option Listing :=
  if (init call.attempt x).1.mInited then call.found else none

/-- The good classes of the listing. -/
def LoadModuleFromJar.classes (call : LoadModuleFromJar) (x : Xposed) : List String :=
  match call.reads x with
  | none => []
  | some listing => listed call.good listing.lines

/-- The listing is read to its end, and all callbacks are called. -/
def LoadModuleFromJar.completes (call : LoadModuleFromJar) (x : Xposed) : Bool :=
  (call.reads x).any (·.ioException.isNone)

/-- The good classes of all listings. -/
def classesFromJars : Xposed → List LoadModuleFromJar → List String
  | _, [] => []
  | x, call :: calls => call.classes x ++ classesFromJars (loadModuleFromJar S x call).1 calls

/-- How often all callbacks are called. -/
def completed : Xposed → List LoadModuleFromJar → ℕ
  | _, [] => 0
  | x, call :: calls =>
    (if call.completes x then 1 else 0) + completed (loadModuleFromJar S x call).1 calls

/-- From each call that registers a class on, all callbacks are called
once. -/
def CompletedOnce : Xposed → List LoadModuleFromJar → Prop
  | _, [] => True
  | x, call :: calls =>
    (call.classes x ≠ [] → completed S x (call :: calls) = 1) ∧
      CompletedOnce (loadModuleFromJar S x call).1 calls

/-- Classes are registered and none is called. -/
structure Enters (names : List String) (c c' : Callbacks) (out : List Output) : Prop
    extends Registers names c c' out where
  starts : ∀ w, starts w out = 0

theorem Enters.append (h : Enters names c c' out) (h' : Enters names' c' c'' out') :
    Enters (names ++ names') c c'' (out ++ out') where
  __ := h.toRegisters.append h'.toRegisters
  starts w := by rw [starts_append, h.starts, h'.starts]

theorem Enters.quiet {o : Output} (h : Modules.hooked [o] = []) (h' : ∀ w, o.isStart w = false) :
    Enters [] c c [o] where
  __ := Registers.none h
  starts w := by simp [Modules.starts, h' w]

theorem LoadModuleFromJar.enters_load (call : LoadModuleFromJar) (name : String) (line : Line)
    (c : Callbacks) :
    Enters (bif call.good name line then [name] else []) c (call.load S name line c).1
      (call.load S name line c).2 := by
  unfold load good
  cases call.mcl.1.loadClass name with
  | error t => exact .quiet rfl fun _ => rfl
  | ok moduleClass =>
    simp only
    cases hmod : moduleClass.isMod with
    | false =>
      simp only [moduleClass.isLoadPackage_of_isMod hmod, Bool.and_false]
      exact .quiet rfl fun _ => rfl
    | true =>
      cases call.disableResources && moduleClass.isInitPackageResources with
      | true => exact .quiet rfl fun _ => rfl
      | false =>
        cases line.newInstance with
        | error t => exact .quiet rfl fun _ => rfl
        | ok u =>
          cases moduleClass.isLoadPackage with
          | true => exact ⟨⟨rfl, rfl⟩, fun _ => rfl⟩
          | false => exact ⟨.none rfl, fun _ => rfl⟩

theorem LoadModuleFromJar.hooked_callModules (call : LoadModuleFromJar) (app : App)
    (listing : Listing) (c : Callbacks) : hooked (call.callModules app listing c) = [] := by
  unfold callModules
  cases listing.ioException with
  | none => exact hooked_callAll _ _ _
  | some e => rfl

theorem LoadModuleFromJar.starts_callModules (call : LoadModuleFromJar) (app : App)
    (listing : Listing) (c : Callbacks) (w : ℕ) :
    starts w (call.callModules app listing c) =
      if listing.ioException.isNone ∧ w < c.made then 1 else 0 := by
  unfold callModules
  cases listing.ioException with
  | none =>
    rw [starts_callAll_callbacks]
    simp
  | some e => rfl

/-- The line about the class loader. -/
theorem LoadModuleFromJar.enters_mcl (call : LoadModuleFromJar) (c : Callbacks) :
    Enters [] c c [call.mcl.2] := by
  unfold mcl
  cases call.dexClassLoader with
  | none => exact .quiet rfl fun _ => rfl
  | some mcl => exact .quiet rfl fun _ => rfl

/-- The listing is read, and what is registered then is called. -/
theorem LoadModuleFromJar.modules_of_found (call : LoadModuleFromJar) {listing : Listing}
    (h : call.found = some listing) (c : Callbacks) :
    Registers (listed call.good listing.lines) c (call.modules S c).1 (call.modules S c).2 ∧
      ∀ w, starts w (call.modules S c).2 =
        if listing.ioException.isNone ∧ w < (call.modules S c).1.made then 1 else 0 := by
  have hlog : ∀ text c, Enters [] c c [.log text] := fun text c => .quiet rfl fun _ => rfl
  have hlines := readLine_run (R := Enters) call.good (fun c => ⟨.none rfl, fun _ => rfl⟩)
    (fun _ _ _ _ _ _ _ h h' => h.append h')
    (fun name line c => (hlog _ c).append (call.enters_load S name line c)) listing.lines c
  have hread := (call.enters_mcl c).append hlines
  unfold found at h
  split at h
  case isFalse => cases h
  case isTrue hfound =>
    obtain ⟨hfile, happ⟩ := Bool.and_eq_true_iff.mp hfound
    obtain ⟨app, happ⟩ := Option.isSome_iff_exists.mp happ
    have hmodules : call.modules S c =
        ((readLine (call.load S)).run c listing.lines,
          [call.mcl.2] ++ (readLine (call.load S)).outputs c listing.lines ++
            call.callModules app listing ((readLine (call.load S)).run c listing.lines)) := by
      simp only [modules, hfile, happ, h]
      rfl
    rw [hmodules]
    constructor
    · have hcalled := call.hooked_callModules app listing
        ((readLine (call.load S)).run c listing.lines)
      have hall := hread.toRegisters.append (.none hcalled)
      rwa [List.append_nil] at hall
    · intro w
      rw [starts_append, hread.starts, call.starts_callModules, Nat.zero_add]

/-- Nothing is registered or called where there is no listing. -/
theorem LoadModuleFromJar.modules_of_not_found (call : LoadModuleFromJar)
    (h : call.found = none) (c : Callbacks) :
    Enters [] c (call.modules S c).1 (call.modules S c).2 := by
  unfold modules
  cases hfile : call.fileExists with
  | false => exact .quiet rfl fun _ => rfl
  | true =>
    cases happ : call.app with
    | none => exact .quiet rfl fun _ => rfl
    | some app =>
      have hlisting : call.mcl.1.listing = none := by
        rw [found, hfile, happ] at h
        exact h
      simp only [hlisting]
      exact (call.enters_mcl c).append (.quiet rfl fun _ => rfl)

/-- `init` does neither. -/
theorem enters_init (a : Attempt) (x : Xposed) :
    Enters [] x.callbacks (init a x).1.callbacks (init a x).2 := by
  unfold init
  cases x.mInited with
  | true => exact .quiet rfl fun _ => rfl
  | false =>
    cases a.result with
    | error t => exact ⟨.none rfl, fun _ => rfl⟩
    | ok result =>
      cases result with
      | true => exact ⟨.none rfl, fun _ => rfl⟩
      | false => exact ⟨.none rfl, fun _ => rfl⟩

/-- **What a call does**: it registers the good classes of its listing, and
calls each callback once or none. -/
theorem registers_loadModuleFromJar (call : LoadModuleFromJar) (x : Xposed) :
    Registers (call.classes x) x.callbacks (loadModuleFromJar S x call).1.callbacks
        (loadModuleFromJar S x call).2 ∧
      ∀ w, starts w (loadModuleFromJar S x call).2 =
        if call.completes x ∧ w < (loadModuleFromJar S x call).1.callbacks.made then 1 else 0 := by
  have hlog : ∀ text c, Enters [] c c [.log text] := fun text c => .quiet rfl fun _ => rfl
  have hinit := (hlog ("Loading modules from " ++ call.jar) x.callbacks).append
    (enters_init call.attempt x)
  unfold LoadModuleFromJar.classes LoadModuleFromJar.completes LoadModuleFromJar.reads
  simp only [loadModuleFromJar]
  cases hinited : (init call.attempt x).1.mInited with
  | false =>
    have hfailed := hinit.append (hlog "  Init Failed" _)
    exact ⟨hfailed.toRegisters, fun w => (hfailed.starts w).trans (by simp)⟩
  | true =>
    cases hfound : call.found with
    | none =>
      have hall := hinit.append (call.modules_of_not_found S hfound _)
      exact ⟨hall.toRegisters, fun w => (hall.starts w).trans (by simp)⟩
    | some listing =>
      obtain ⟨hregisters, hstarts⟩ :=
        call.modules_of_found S hfound (init call.attempt x).1.callbacks
      refine ⟨hinit.toRegisters.append hregisters, fun w => ?_⟩
      have hsum := (starts_append w _ _).trans (congrArg₂ (· + ·) (hinit.starts w) (hstarts w))
      rw [Nat.zero_add] at hsum
      exact hsum

/-! ## Runs of `loadModuleFromJar` -/

theorem registers_run (calls : List LoadModuleFromJar) (x : Xposed) :
    Registers (classesFromJars S x calls) x.callbacks
      ((loadModuleFromJar S).run x calls).callbacks ((loadModuleFromJar S).outputs x calls) := by
  induction calls generalizing x with
  | nil => exact .none rfl
  | cons call calls ih => exact (registers_loadModuleFromJar S call x).1.append (ih _)

/-- A callback that is registered is called whenever all are. -/
theorem starts_of_registered {w : ℕ} (calls : List LoadModuleFromJar) (x : Xposed)
    (hw : w < x.callbacks.made) :
    starts w ((loadModuleFromJar S).outputs x calls) = completed S x calls := by
  induction calls generalizing x with
  | nil => rfl
  | cons call calls ih =>
    obtain ⟨hregisters, hstarts⟩ := registers_loadModuleFromJar S call x
    have hw' := Nat.lt_of_lt_of_le hw hregisters.le
    rw [Machine.outputs_cons, starts_append, hstarts, ih _ hw', completed]
    simp [hw']

/-- **`XposedBridge` starts each class once if, from the call that registers
it on, one listing is read to its end.** -/
theorem startedOnce_loadModuleFromJar_iff (calls : List LoadModuleFromJar) (x : Xposed) :
    StartedOnce (classesFromJars S x calls) ((loadModuleFromJar S).outputs x calls) ↔
      CompletedOnce S x calls := by
  rw [(registers_run S calls x).startedOnce_iff_starts]
  induction calls generalizing x with
  | nil =>
    refine iff_of_true (fun w hle hlt => ?_) trivial
    exact absurd hlt (Nat.not_lt.mpr hle)
  | cons call calls ih =>
    obtain ⟨hregisters, hstarts⟩ := registers_loadModuleFromJar S call x
    have hle := hregisters.le
    have hmade := hregisters.made
    have hle' := (registers_run S calls (loadModuleFromJar S x call).1).le
    rw [Machine.run_cons, Machine.outputs_cons, CompletedOnce, ← ih]
    -- A wrapper is from this call or from a later one.
    have hhere : ∀ w, w < (loadModuleFromJar S x call).1.callbacks.made →
        starts w ((loadModuleFromJar S x call).2 ++
          (loadModuleFromJar S).outputs (loadModuleFromJar S x call).1 calls) =
          completed S x (call :: calls) := by
      intro w hw
      rw [starts_append, hstarts, starts_of_registered S calls _ hw, completed]
      simp [hw]
    have hlater : ∀ w, (loadModuleFromJar S x call).1.callbacks.made ≤ w →
        starts w ((loadModuleFromJar S x call).2 ++
          (loadModuleFromJar S).outputs (loadModuleFromJar S x call).1 calls) =
          starts w ((loadModuleFromJar S).outputs (loadModuleFromJar S x call).1 calls) := by
      intro w hw
      rw [starts_append, hstarts, if_neg (by omega), Nat.zero_add]
    constructor
    · intro honce
      refine ⟨fun hne => ?_, fun w hw hlt => ?_⟩
      · have hpos := List.length_pos_of_ne_nil hne
        rw [← hhere x.callbacks.made (by omega)]
        exact honce _ (Nat.le_refl _) (by omega)
      · rw [← hlater w hw]
        exact honce w (by omega) hlt
    · rintro ⟨hcall, hcalls⟩ w hw hlt
      by_cases hw' : w < (loadModuleFromJar S x call).1.callbacks.made
      · rw [hhere w hw']
        refine hcall fun hnil => ?_
        rw [hnil, List.length_nil] at hmade
        omega
      · rw [hlater w (by omega)]
        exact hcalls w (by omega) hlt

/-! ## Both frameworks -/

/-- **When every module is started exactly once.** The calls for the two
frameworks may come in any order. -/
theorem startedOnce_iff (isLibLoaded : Bool) (calls : List (LoadModule ⊕ LoadModuleFromJar)) :
    let bridge := calls.filterMap Sum.getLeft?
    let xposed := calls.filterMap Sum.getRight?
    let out := (Machine.both (loadModule S isLibLoaded) (loadModuleFromJar S)).outputs ({}, {}) calls
    StartedOnce (bridge.flatMap (·.classes isLibLoaded)) (out.filterMap Sum.getLeft?) ∧
        StartedOnce (classesFromJars S {} xposed) (out.filterMap Sum.getRight?) ↔
      (bridge.flatMap (·.classes isLibLoaded)).length ≤ 1 ∧ CompletedOnce S {} xposed := by
  intro bridge xposed out
  have hbridge : out.filterMap Sum.getLeft? = (loadModule S isLibLoaded).outputs {} bridge :=
    Machine.outputs_both_left ..
  have hxposed : out.filterMap Sum.getRight? = (loadModuleFromJar S).outputs {} xposed :=
    Machine.outputs_both_right ..
  rw [hbridge, hxposed]
  exact and_congr (startedOnce_loadModule_iff S isLibLoaded bridge)
    (startedOnce_loadModuleFromJar_iff S xposed {})

/-- An archive whose listing has only classes that can be registered. -/
def packageLoader (texts : List String) : ClassLoader where
  listing := some { lines := texts.map fun text => { text } }
  loadClass _ := .ok { isLoadPackage := true }

/-- Two classes in one listing of `Bridge`: the first is started twice. Two
archives with a class each for `XposedBridge`: the first is, too. -/
theorem first_started_twice :
    let S : ArraySort ℕ := ⟨id, fun _ => .rfl⟩
    let listing : LoadModule :=
      { apk := "a.apk", mcl := packageLoader ["# modules", "", " a.First ", "a.Second"] }
    let jar (name : String) : LoadModuleFromJar :=
      { jar := name, app := some ⟨"app", "app", 0, none⟩,
        dexClassLoader := some (packageLoader [name]), pathClassLoader := packageLoader [] }
    let bridge := (loadModule S true).outputs {} [listing]
    let xposed := (loadModuleFromJar S).outputs {} [jar "a.First", jar "b.Second"]
    hooked bridge = [(0, "a.First"), (1, "a.Second")] ∧ starts 0 bridge = 2 ∧
      ¬ StartedOnce ["a.First", "a.Second"] bridge ∧
      hooked xposed = [(0, "a.First"), (1, "b.Second")] ∧ starts 0 xposed = 2 ∧
      ¬ StartedOnce ["a.First", "b.Second"] xposed := by
  intro S listing jar bridge xposed
  have hbridge : starts 0 bridge = 2 := by decide
  have hxposed : starts 0 xposed = 2 := by decide
  refine ⟨by decide, hbridge, fun h => ?_, by decide, hxposed, fun h => ?_⟩
  · have honce := h.once 0 (by decide)
    omega
  · have honce := h.once 0 (by decide)
    omega

end Modules

end Dynamicloader
