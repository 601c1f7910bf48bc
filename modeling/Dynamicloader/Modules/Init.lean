import Dynamicloader.Modules.Started
/-!
# Modules — the gate of `XposedBridge.init`

`loadModuleFromJar` goes by what `init` returns, and that is `mInited`. It
is set behind `initNative` whatever that returns, where `main` goes on only
if it returns true; and an attempt that throws sets `disableHooks`, which no
later one takes back. So the gate is as it should be in two kinds of runs
only: no attempt gets through, or the first one does with `initNative`
returning true (`gated_iff`).
-/

namespace Dynamicloader

namespace Modules

open Bridge (ArraySort)

/-- **The gate**: `init` has returned true where an `initNative` before it
has, modules are called behind one only, and the hooks are on once `init`
has returned true. -/
structure Gated (x : Xposed) (out : List Output) : Prop where
  init : ∀ pre b post, out = pre ++ Output.init b :: post →
    (b = true ↔ Output.initNative true ∈ pre)
  modules : ∀ pre w lpparam post, out = pre ++ Output.handleLoadPackage w lpparam :: post →
    Output.initNative true ∈ pre
  hooks : Output.init true ∈ out → x.disableHooks = false

/-! ## One call -/

def Output.ofInit : Output → Bool
  | .initNative _ => true
  | .init _ => true
  | _ => false

/-- Nothing of it is from `init`. -/
def NotInit (out : List Output) : Prop := ∀ o ∈ out, o.ofInit = false

theorem NotInit.append {out out' : List Output} (h : NotInit out) (h' : NotInit out') :
    NotInit (out ++ out') := fun o ho => (List.mem_append.mp ho).elim (h o) (h' o)

theorem notInit_nil : NotInit [] := fun _ ho => absurd ho List.not_mem_nil

theorem NotInit.singleton {o : Output} (h : o.ofInit = false) : NotInit [o] := by
  intro o' ho
  rwa [List.mem_singleton.mp ho]

variable (S : ArraySort ℕ)

theorem notInit_callAll (handle : ℕ → Except Throwable Unit) (lpparam : LoadPackageParam)
    (callbacks : List ℕ) : NotInit (callAll handle lpparam callbacks) := by
  induction callbacks with
  | nil => exact notInit_nil
  | cons callback callbacks ih =>
    have hlogged : NotInit (logged (handle callback)) := by
      cases handle callback with
      | ok u => exact notInit_nil
      | error t => exact .singleton rfl
    have hcall : NotInit [.handleLoadPackage callback lpparam] := .singleton rfl
    exact (hcall.append hlogged).append ih

theorem LoadModuleFromJar.notInit_load (call : LoadModuleFromJar) (name : String) (line : Line)
    (c : Callbacks) : NotInit (call.load S name line c).2 := by
  unfold load
  cases call.mcl.1.loadClass name with
  | error t => exact .singleton rfl
  | ok moduleClass =>
    simp only
    split
    · exact .singleton rfl
    · split
      · exact .singleton rfl
      · cases line.newInstance with
        | error t => exact .singleton rfl
        | ok u =>
          simp only
          split
          · exact .singleton rfl
          · exact notInit_nil

/-- Loading the classes is not part of `init`. -/
theorem LoadModuleFromJar.notInit_modules (call : LoadModuleFromJar) (c : Callbacks) :
    NotInit (call.modules S c).2 := by
  have hmcl : NotInit [call.mcl.2] := by
    unfold mcl
    cases call.dexClassLoader with
    | none => exact .singleton rfl
    | some mcl => exact .singleton rfl
  have hcall : ∀ app listing c, NotInit (call.callModules app listing c) := by
    intro app listing c
    unfold callModules
    cases listing.ioException with
    | none => exact notInit_callAll _ _ _
    | some e => exact .singleton rfl
  unfold modules
  split
  · exact .singleton rfl
  · cases call.app with
    | none => exact .singleton rfl
    | some app =>
      cases call.mcl.1.listing with
      | none => exact hmcl.append (.singleton rfl)
      | some listing =>
        have hlines := readLine_run (R := fun _ _ _ out => NotInit out) call.good
          (fun _ => notInit_nil) (fun _ _ _ _ _ _ _ h h' => h.append h')
          (fun name line c =>
            (NotInit.singleton rfl).append (call.notInit_load S name line c)) listing.lines c
        exact (hmcl.append hlines).append (hcall app listing _)

/-! ## One call -/

variable {S} {x : Xposed}

/-- Once `mInited` is set, `init` returns true and nothing more is tried. -/
theorem loadModuleFromJar_of_inited (h : x.mInited = true) (call : LoadModuleFromJar) :
    (loadModuleFromJar S x call).1.mInited = true ∧
      (loadModuleFromJar S x call).1.disableHooks = x.disableHooks ∧
      ∃ out, NotInit out ∧ (loadModuleFromJar S x call).2 =
        .log ("Loading modules from " ++ call.jar) :: .init true :: out := by
  simp only [loadModuleFromJar, init, h]
  exact ⟨rfl, rfl, _, call.notInit_modules S x.callbacks, rfl⟩

variable {call : LoadModuleFromJar}

/-- An attempt that throws turns the hooks off. -/
theorem loadModuleFromJar_of_error {t : Throwable} (h : x.mInited = false)
    (ht : call.attempt.result = .error t) :
    (loadModuleFromJar S x call).1.mInited = false ∧
      (loadModuleFromJar S x call).1.disableHooks = true ∧
      (loadModuleFromJar S x call).2 =
        [.log ("Loading modules from " ++ call.jar), .log "Errors during Xposed initialization",
          .logThrowable t, .init false, .log "  Init Failed"] := by
  simp only [loadModuleFromJar, init, h, ht]
  exact ⟨rfl, rfl, rfl⟩

/-- An attempt that does not throw sets `mInited`, whatever `initNative`
returns. -/
theorem loadModuleFromJar_of_ok {b : Bool} (h : x.mInited = false)
    (hb : call.attempt.result = .ok b) :
    (loadModuleFromJar S x call).1.mInited = true ∧
      (loadModuleFromJar S x call).1.disableHooks = x.disableHooks ∧
      ∃ logs out, NotInit logs ∧ NotInit out ∧ (loadModuleFromJar S x call).2 =
        .log ("Loading modules from " ++ call.jar) :: .initNative b :: logs ++
          .init true :: out := by
  cases b with
  | true =>
    simp only [loadModuleFromJar, init, h, hb]
    exact ⟨rfl, rfl, [], _, notInit_nil, call.notInit_modules S x.callbacks, rfl⟩
  | false =>
    simp only [loadModuleFromJar, init, h, hb]
    exact ⟨rfl, rfl, [.log "Errors during native Xposed initialization"], _, .singleton rfl,
      call.notInit_modules S x.callbacks, rfl⟩

/-! ## Runs -/

/-- No attempt has got through so far. -/
structure Failing (x : Xposed) (out : List Output) : Prop where
  mInited : x.mInited = false
  native : .initNative true ∉ out
  init : .init true ∉ out
  modules : ∀ w lpparam, .handleLoadPackage w lpparam ∉ out

theorem Failing.step {t : Throwable} {out : List Output} (h : Failing x out)
    (ht : call.attempt.result = .error t) :
    Failing (loadModuleFromJar S x call).1 (out ++ (loadModuleFromJar S x call).2) := by
  obtain ⟨hinited, -, hout⟩ := loadModuleFromJar_of_error (S := S) h.mInited ht
  rw [hout]
  exact ⟨hinited, by simp [h.native], by simp [h.init], by simp [h.modules]⟩

theorem Failing.gated {out : List Output} (h : Failing x out) : Gated x out where
  init pre b post hout := by
    have hnative : .initNative true ∉ pre := fun hmem =>
      h.native (hout ▸ List.mem_append_left _ hmem)
    have hinit : b ≠ true := fun hb => h.init (by simp [hout, hb])
    exact iff_of_false hinit hnative
  modules pre w lpparam post hout := absurd (by simp [hout]) (h.modules w lpparam)
  hooks hinit := absurd hinit h.init

/-- The first attempt has got through, with `initNative` returning true. -/
structure Working (x : Xposed) (out : List Output) : Prop where
  mInited : x.mInited = true
  hooks : x.disableHooks = false
  native : ∃ text rest, out = .log text :: .initNative true :: rest
  init : .init false ∉ out

theorem NotInit.not_mem {out : List Output} (h : NotInit out) (b : Bool) : .init b ∉ out :=
  fun hmem => Bool.noConfusion (h _ hmem)

theorem Working.first (h : x.mInited = false) (h' : x.disableHooks = false)
    (ht : call.attempt.result = .ok true) :
    Working (loadModuleFromJar S x call).1 (loadModuleFromJar S x call).2 := by
  obtain ⟨hinited, hhooks, logs, out, hlogs, hnot, hout⟩ := loadModuleFromJar_of_ok (S := S) h ht
  refine ⟨hinited, hhooks.trans h', ⟨_, _, hout⟩, ?_⟩
  rw [hout]
  simp [hlogs.not_mem false, hnot.not_mem false]

theorem Working.step {out : List Output} (h : Working x out) :
    Working (loadModuleFromJar S x call).1 (out ++ (loadModuleFromJar S x call).2) := by
  obtain ⟨hinited, hhooks, rest, hrest, hout⟩ :=
    loadModuleFromJar_of_inited (S := S) h.mInited call
  obtain ⟨text, rest', hnative⟩ := h.native
  refine ⟨hinited, hhooks.trans h.hooks, ⟨text, rest' ++ (loadModuleFromJar S x call).2, ?_⟩, ?_⟩
  · rw [hnative]
    rfl
  · rw [hout]
    simp [h.init, hrest.not_mem false]

/-- What is behind the first two entries of a log is behind the second. -/
theorem Working.native_mem {out pre post : List Output} {o : Output} (h : Working x out)
    (hout : out = pre ++ o :: post) (hlog : ∀ text, o ≠ .log text) (ho : o ≠ .initNative true) :
    .initNative true ∈ pre := by
  obtain ⟨text, rest, hnative⟩ := h.native
  rw [hnative] at hout
  cases pre with
  | nil => exact absurd (List.cons.inj hout).1.symm (hlog text)
  | cons o₀ pre =>
    cases pre with
    | nil => exact absurd (List.cons.inj (List.cons.inj hout).2).1.symm ho
    | cons o₁ pre =>
      rw [← (List.cons.inj (List.cons.inj hout).2).1]
      simp

theorem Working.gated {out : List Output} (h : Working x out) : Gated x out where
  init pre b post hout := by
    have hnative := h.native_mem hout (fun text => by simp) (by simp)
    cases b with
    | true => exact iff_of_true rfl hnative
    | false => exact absurd (by simp [hout]) h.init
  modules pre w lpparam post hout := h.native_mem hout (fun text => by simp) (by simp)
  hooks _ := h.hooks

/-- **Where the hooks are off, no attempt may get through any more.** -/
theorem Failing.all_throw {out : List Output} {calls : List LoadModuleFromJar}
    (h : Failing x out) (hhooks : x.disableHooks = true)
    (hgated : ∀ pre, pre <+: calls →
      Gated ((loadModuleFromJar S).run x pre) (out ++ (loadModuleFromJar S).outputs x pre)) :
    ∀ call ∈ calls, call.attempt.result.isOk = false := by
  induction calls generalizing x out with
  | nil => simp
  | cons call calls ih =>
    cases hresult : call.attempt.result with
    | ok b =>
      obtain ⟨-, hhooks', logs, rest, -, -, hout⟩ :=
        loadModuleFromJar_of_ok (S := S) h.mInited hresult
      have hfirst := hgated [call] (List.cons_prefix_cons.mpr ⟨rfl, List.nil_prefix⟩)
      have hoff := hfirst.hooks (by simp [hout])
      rw [Machine.run_cons, Machine.run_nil, hhooks', hhooks] at hoff
      cases hoff
    | error t =>
      obtain ⟨-, hoff, -⟩ := loadModuleFromJar_of_error (S := S) h.mInited hresult
      have hrest := ih (h.step (S := S) hresult) hoff fun pre hpre => by
        have hcons := hgated (call :: pre) (List.cons_prefix_cons.mpr ⟨rfl, hpre⟩)
        rwa [Machine.run_cons, Machine.outputs_cons, ← List.append_assoc] at hcons
      rw [List.forall_mem_cons]
      exact ⟨by rw [hresult]; rfl, hrest⟩

variable (S)

theorem failing_initial : Failing {} [] := ⟨rfl, by simp, by simp, by simp⟩

/-- While every attempt throws, none gets through. -/
theorem failing_run {calls : List LoadModuleFromJar}
    (hthrow : ∀ call ∈ calls, call.attempt.result.isOk = false) :
    Failing ((loadModuleFromJar S).run {} calls) ((loadModuleFromJar S).outputs {} calls) := by
  have hstep : ∀ (x : Xposed) (call : LoadModuleFromJar) log, call.attempt.result.isOk = false →
      Failing x log →
        Failing (loadModuleFromJar S x call).1 (log ++ (loadModuleFromJar S x call).2) := by
    intro x call log hcall h
    cases hresult : call.attempt.result with
    | error t => exact h.step hresult
    | ok b =>
      rw [hresult] at hcall
      cases hcall
  have halong : (loadModuleFromJar S).Along (fun _ call => call.attempt.result.isOk = false) {}
      calls :=
    Machine.along_iff _ |>.mpr fun pre call hpre => hthrow call (hpre.subset (by simp))
  exact Machine.run_outputs_along hstep halong failing_initial

/-- Once the first attempt has got through, it stays so. -/
theorem working_run (hok : call.attempt.result = .ok true) (calls : List LoadModuleFromJar) :
    Working ((loadModuleFromJar S).run {} (call :: calls))
      ((loadModuleFromJar S).outputs {} (call :: calls)) :=
  Machine.run_outputs_invariant (fun _ _ _ h => h.step) (Working.first rfl rfl hok) calls

/-- A first attempt in which `initNative` returns false opens the gate. -/
theorem not_gated_of_false (hresult : call.attempt.result = .ok false) :
    ¬ Gated ((loadModuleFromJar S).run {} [call]) ((loadModuleFromJar S).outputs {} [call]) := by
  intro hgated
  obtain ⟨-, -, logs, out, hlogs, -, hout⟩ :=
    loadModuleFromJar_of_ok (S := S) (x := {}) rfl hresult
  have hinit := hgated.init
  rw [Machine.outputs_cons, Machine.outputs_nil, List.append_nil, hout] at hinit
  have hnative := (hinit _ true out rfl).mp rfl
  have hnot : .initNative true ∉ logs := fun hmem => Bool.noConfusion (hlogs _ hmem)
  simp [hnot] at hnative

/-- **When the gate is as it should be**, at every point of a sequence of
calls. -/
theorem gated_iff (calls : List LoadModuleFromJar) :
    (∀ pre, pre <+: calls →
        Gated ((loadModuleFromJar S).run {} pre) ((loadModuleFromJar S).outputs {} pre)) ↔
      (∀ call ∈ calls, call.attempt.result.isOk = false) ∨
        ∃ call rest, calls = call :: rest ∧ call.attempt.result = .ok true := by
  constructor
  · intro hgated
    cases calls with
    | nil => exact .inl (by simp)
    | cons call rest =>
      have hone : [call] <+: call :: rest := List.cons_prefix_cons.mpr ⟨rfl, List.nil_prefix⟩
      cases hresult : call.attempt.result with
      | error t =>
        obtain ⟨-, hoff, -⟩ := loadModuleFromJar_of_error (S := S) (x := {}) rfl hresult
        have hrest := (failing_initial.step (S := S) hresult).all_throw hoff fun pre hpre =>
          hgated (call :: pre) (List.cons_prefix_cons.mpr ⟨rfl, hpre⟩)
        left
        rw [List.forall_mem_cons]
        exact ⟨by rw [hresult]; rfl, hrest⟩
      | ok b =>
        cases b with
        | true => exact .inr ⟨call, rest, rfl, hresult⟩
        | false => exact absurd (hgated [call] hone) (not_gated_of_false S hresult)
  · rintro (hthrow | ⟨call, rest, rfl, hok⟩) pre hpre
    · exact (failing_run S fun call hcall => hthrow call (hpre.subset hcall)).gated
    · cases pre with
      | nil => exact failing_initial.gated
      | cons call' pre =>
        obtain ⟨rfl, -⟩ := List.cons_prefix_cons.mp hpre
        exact (working_run S hok pre).gated

/-- A module is started though `initNative` has returned false; and a second
attempt that gets through leaves the hooks off. -/
theorem gate_open_unready :
    let S : ArraySort ℕ := ⟨id, fun _ => .rfl⟩
    let jar (attempt : Attempt) : LoadModuleFromJar :=
      { jar := "a.jar", attempt, app := some ⟨"app", "app", 0, none⟩,
        dexClassLoader := some (packageLoader ["a.Module"]), pathClassLoader := packageLoader [] }
    let refused := [jar { initNative := .ok false }]
    let again := [jar { load := .error ⟨"UnsatisfiedLinkError"⟩ }, jar {}]
    let out := (loadModuleFromJar S).outputs {} refused
    let out' := (loadModuleFromJar S).outputs {} again
    starts 0 out = 1 ∧ .initNative true ∉ out ∧
      ¬ Gated ((loadModuleFromJar S).run {} refused) out ∧
      .initNative true ∈ out' ∧ .init true ∈ out' ∧
      ((loadModuleFromJar S).run {} again).disableHooks = true ∧
      ¬ Gated ((loadModuleFromJar S).run {} again) out' := by
  intro S jar refused again out out'
  have hnative : .initNative true ∉ out := by decide
  have hinit : .init true ∈ out := by decide
  have hinit' : .init true ∈ out' := by decide
  have hoff : ((loadModuleFromJar S).run {} again).disableHooks = true := by decide
  refine ⟨by decide, hnative, fun h => ?_, by decide, hinit', hoff, fun h => ?_⟩
  · obtain ⟨pre, post, hout⟩ := List.append_of_mem hinit
    exact hnative (hout ▸ List.mem_append_left _ ((h.init pre true post hout).mp rfl))
  · cases hoff.symm.trans (h.hooks hinit')

end Modules

end Dynamicloader
