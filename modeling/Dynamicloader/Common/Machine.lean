import Mathlib.Data.List.Basic
/-!
# Machines that take inputs and emit outputs

A run is a list of inputs, in the order they are taken. `run` is the state
behind it and `outputs` what was emitted on the way.

An invariant of the steps is one of every run (`run_invariant`), and what
the outputs of a step satisfy under the invariant, all outputs of a run do
(`outputs_invariant`). A potential that every step lowers by what it emits
bounds what a run emits (`outputs_potential`). All are relative to a set of
inputs, for runs in which some inputs do not occur; `Along` is the same for
a condition on the state an input is taken in, and `along_iff` reads it off
the prefixes. Where the outputs are a log of the run,
`run_outputs_invariant` ties the state to it.

Two machines that share nothing run side by side in `both`, and each is then
in the run it would be in alone.
-/

namespace Dynamicloader

/-- The step function of a machine with states `σ`, inputs `ι` and outputs
`ο`. -/
abbrev Machine (σ ι ο : Type*) := σ → ι → σ × List ο

namespace Machine

variable {σ ι ο : Type*} (M : Machine σ ι ο)

/-- The state behind a run. -/
def run : σ → List ι → σ
  | s, [] => s
  | s, e :: es => run (M s e).1 es

/-- What a run emits. -/
def outputs : σ → List ι → List ο
  | _, [] => []
  | s, e :: es => (M s e).2 ++ outputs (M s e).1 es

@[simp] theorem run_nil (s : σ) : M.run s [] = s := rfl

@[simp] theorem run_cons (s : σ) (e : ι) (es : List ι) :
    M.run s (e :: es) = M.run (M s e).1 es := rfl

@[simp] theorem outputs_nil (s : σ) : M.outputs s [] = [] := rfl

@[simp] theorem outputs_cons (s : σ) (e : ι) (es : List ι) :
    M.outputs s (e :: es) = (M s e).2 ++ M.outputs (M s e).1 es := rfl

theorem run_append (s : σ) (es es' : List ι) : M.run s (es ++ es') = M.run (M.run s es) es' := by
  induction es generalizing s with
  | nil => rfl
  | cons e es ih => exact ih (M s e).1

theorem outputs_append (s : σ) (es es' : List ι) :
    M.outputs s (es ++ es') = M.outputs s es ++ M.outputs (M.run s es) es' := by
  induction es generalizing s with
  | nil => rfl
  | cons e es ih => rw [List.cons_append, outputs_cons, outputs_cons, ih, run_cons, List.append_assoc]

/-- Every step of the run meets the condition. -/
def Along (P : σ → ι → Prop) : σ → List ι → Prop
  | _, [] => True
  | s, e :: es => P s e ∧ Along P (M s e).1 es

/-- The same, by the prefixes of the run. -/
theorem along_iff {P : σ → ι → Prop} {s : σ} {es : List ι} :
    M.Along P s es ↔ ∀ pre e, pre ++ [e] <+: es → P (M.run s pre) e := by
  induction es generalizing s with
  | nil =>
    refine iff_of_true trivial fun pre e hpre => ?_
    exact absurd (List.prefix_nil.mp hpre) (by simp)
  | cons e es ih =>
    rw [Along, ih]
    constructor
    · rintro ⟨hhead, htail⟩ pre e' hpre
      cases pre with
      | nil =>
        obtain rfl := (List.cons_prefix_cons.mp hpre).1
        exact hhead
      | cons e₀ pre =>
        obtain ⟨rfl, htl⟩ := List.cons_prefix_cons.mp hpre
        exact htail pre e' htl
    · intro hall
      refine ⟨hall [] e (List.cons_prefix_cons.mpr ⟨rfl, List.nil_prefix⟩), fun pre e' hpre => ?_⟩
      exact hall (e :: pre) e' (List.cons_prefix_cons.mpr ⟨rfl, hpre⟩)

theorem Along.of_prefix {P : σ → ι → Prop} {s : σ} {pre es : List ι} (h : M.Along P s es)
    (hpre : pre <+: es) : M.Along P s pre :=
  M.along_iff.mpr fun pre' e he => M.along_iff.mp h pre' e (he.trans hpre)

variable {M} {Allowed : ι → Prop} {I : σ → Prop} {P : ο → Prop}

/-- **An invariant of the steps is one of the runs.** -/
theorem run_invariant (hstep : ∀ s e, Allowed e → I s → I (M s e).1) {s : σ} {es : List ι}
    (hes : ∀ e ∈ es, Allowed e) (hs : I s) : I (M.run s es) := by
  induction es generalizing s with
  | nil => exact hs
  | cons e es ih =>
    rw [List.forall_mem_cons] at hes
    exact ih hes.2 (hstep s e hes.1 hs)

theorem run_along {P : σ → ι → Prop} (hstep : ∀ s e, P s e → I s → I (M s e).1) {s : σ}
    {es : List ι} (hes : M.Along P s es) (hs : I s) : I (M.run s es) := by
  induction es generalizing s with
  | nil => exact hs
  | cons e es ih => exact ih hes.2 (hstep s e hes.1 hs)

/-- **What every step emits under the invariant, every run does.** -/
theorem outputs_invariant (hstep : ∀ s e, Allowed e → I s → I (M s e).1)
    (hout : ∀ s e, Allowed e → I s → ∀ o ∈ (M s e).2, P o) {s : σ} {es : List ι}
    (hes : ∀ e ∈ es, Allowed e) (hs : I s) : ∀ o ∈ M.outputs s es, P o := by
  induction es generalizing s with
  | nil => simp
  | cons e es ih =>
    rw [List.forall_mem_cons] at hes
    intro o ho
    rcases List.mem_append.mp ho with ho | ho
    · exact hout s e hes.1 hs o ho
    · exact ih hes.2 (hstep s e hes.1 hs) o ho

theorem run_outputs_along {P : σ → ι → Prop} {J : σ → List ο → Prop}
    (hstep : ∀ s e log, P s e → J s log → J (M s e).1 (log ++ (M s e).2)) {s : σ} {log : List ο}
    {es : List ι} (hes : M.Along P s es) (hs : J s log) :
    J (M.run s es) (log ++ M.outputs s es) := by
  induction es generalizing s log with
  | nil =>
    rw [outputs_nil, List.append_nil]
    exact hs
  | cons e es ih =>
    rw [outputs_cons, ← List.append_assoc]
    exact ih hes.2 (hstep s e log hes.1 hs)

/-- **What is kept of a state and the outputs so far** is true of the state
behind a run and of all its outputs. -/
theorem run_outputs_invariant {J : σ → List ο → Prop}
    (hstep : ∀ s e log, J s log → J (M s e).1 (log ++ (M s e).2)) {s : σ} {log : List ο}
    (hs : J s log) (es : List ι) : J (M.run s es) (log ++ M.outputs s es) := by
  have hes : M.Along (fun _ _ => True) s es := M.along_iff.mpr fun _ _ _ => trivial
  exact run_outputs_along (fun s e log _ => hstep s e log) hes hs

/-- **A potential pays for the outputs of a run.** -/
theorem outputs_potential {f : ο → Bool} {pot : σ → ℕ}
    (hstep : ∀ s e, Allowed e → (M s e).2.countP f + pot (M s e).1 ≤ pot s) {s : σ} {es : List ι}
    (hes : ∀ e ∈ es, Allowed e) : (M.outputs s es).countP f + pot (M.run s es) ≤ pot s := by
  induction es generalizing s with
  | nil => simp
  | cons e es ih =>
    rw [List.forall_mem_cons] at hes
    have hhead := hstep s e hes.1
    have htail := ih (s := (M s e).1) hes.2
    rw [outputs_cons, run_cons, List.countP_append]
    omega

/-! ## Side by side -/

section Both

variable {τ κ π : Type*} (M) (N : Machine τ κ π)

/-- Two machines, with the inputs and outputs of either. -/
def both : Machine (σ × τ) (ι ⊕ κ) (ο ⊕ π)
  | (s, t), .inl e => (((M s e).1, t), (M s e).2.map .inl)
  | (s, t), .inr e => ((s, (N t e).1), (N t e).2.map .inr)

theorem outputs_both_left (s : σ) (t : τ) (es : List (ι ⊕ κ)) :
    ((both M N).outputs (s, t) es).filterMap Sum.getLeft? =
      M.outputs s (es.filterMap Sum.getLeft?) := by
  induction es generalizing s t with
  | nil => rfl
  | cons e es ih =>
    rw [outputs_cons, List.filterMap_append]
    cases e with
    | inl e =>
      rw [both, ih, List.filterMap_map]
      exact congrArg (· ++ _) List.filterMap_some
    | inr e =>
      rw [both, ih, List.filterMap_map]
      exact congrArg (· ++ _) (List.filterMap_eq_nil_iff.mpr fun _ _ => rfl)

theorem outputs_both_right (s : σ) (t : τ) (es : List (ι ⊕ κ)) :
    ((both M N).outputs (s, t) es).filterMap Sum.getRight? =
      N.outputs t (es.filterMap Sum.getRight?) := by
  induction es generalizing s t with
  | nil => rfl
  | cons e es ih =>
    rw [outputs_cons, List.filterMap_append]
    cases e with
    | inl e =>
      rw [both, ih, List.filterMap_map]
      exact congrArg (· ++ _) (List.filterMap_eq_nil_iff.mpr fun _ _ => rfl)
    | inr e =>
      rw [both, ih, List.filterMap_map]
      exact congrArg (· ++ _) List.filterMap_some

end Both

end Machine

end Dynamicloader
