import Mathlib.Data.Option.Basic
import Dynamicloader.Common.Machine
/-!
# Two machines side by side

One machine sees all inputs, the other only some of them. When every input
that both see keeps a relation between their states, and one that only the
first sees does too, the relation is true behind every run, and the visible
outputs are the same (`Simulates.run`).

A step that can fail is related to another by `Option.Rel`: both fail, or both
end in related states. `rel_bind` and `rel_foldlM` put such steps together.
-/

namespace Dynamicloader

section Rel

variable {α α' β β' ι : Type*} {R : α → β → Prop} {S : α' → β' → Prop}

theorem rel_bind {x : Option α} {y : Option β} {f : α → Option α'} {g : β → Option β'}
    (h : Option.Rel R x y) (hfg : ∀ a b, R a b → Option.Rel S (f a) (g b)) :
    Option.Rel S (x.bind f) (y.bind g) := by
  cases h with
  | some hab => exact hfg _ _ hab
  | none => exact .none

theorem rel_map {x : Option α} {y : Option β} {f : α → α'} {g : β → β'}
    (h : Option.Rel R x y) (hfg : ∀ a b, R a b → S (f a) (g b)) :
    Option.Rel S (x.map f) (y.map g) := by
  cases h with
  | some hab => exact .some (hfg _ _ hab)
  | none => exact .none

theorem rel_foldlM {f : α → ι → Option α} {g : β → ι → Option β} {l : List ι}
    (hfg : ∀ i ∈ l, ∀ a b, R a b → Option.Rel R (f a i) (g b i)) {a : α} {b : β}
    (h : R a b) : Option.Rel R (l.foldlM f a) (l.foldlM g b) := by
  induction l generalizing a b with
  | nil => exact .some h
  | cons i l ih =>
    rw [List.forall_mem_cons] at hfg
    rw [List.foldlM_cons, List.foldlM_cons]
    exact rel_bind (hfg.1 a b h) fun _ _ => ih hfg.2

end Rel

namespace Machine

variable {σ τ ι κ ο π : Type*}

/-- Under `R`, the machine `N` keeps up with `M` on the inputs that it sees,
and does not miss anything by the others. -/
structure Simulates (M : Machine σ ι ο) (N : Machine τ κ π) (Allowed : ι → Prop)
    (see : ι → Option κ) (visible : ο → Option π) (R : σ → τ → Prop) : Prop where
  hidden : ∀ {s t e}, Allowed e → R s t → see e = none →
    R (M s e).1 t ∧ (M s e).2.filterMap visible = []
  shown : ∀ {s t e e'}, Allowed e → R s t → see e = some e' →
    R (M s e).1 (N t e').1 ∧ (M s e).2.filterMap visible = (N t e').2

/-- **A simulation of the steps is one of the runs.** -/
theorem Simulates.run {M : Machine σ ι ο} {N : Machine τ κ π} {Allowed : ι → Prop}
    {see : ι → Option κ} {visible : ο → Option π} {R : σ → τ → Prop}
    (h : Simulates M N Allowed see visible R) {es : List ι} (hes : ∀ e ∈ es, Allowed e)
    {s : σ} {t : τ} (hst : R s t) :
    R (M.run s es) (N.run t (es.filterMap see)) ∧
      (M.outputs s es).filterMap visible = N.outputs t (es.filterMap see) := by
  induction es generalizing s t with
  | nil => exact ⟨hst, rfl⟩
  | cons e es ih =>
    rw [List.forall_mem_cons] at hes
    rw [run_cons, outputs_cons, List.filterMap_append]
    cases hsee : see e with
    | none =>
      obtain ⟨hR, hout⟩ := h.hidden hes.1 hst hsee
      rw [List.filterMap_cons_none hsee, hout]
      exact ih hes.2 hR
    | some e' =>
      obtain ⟨hR, hout⟩ := h.shown hes.1 hst hsee
      obtain ⟨hrun, houts⟩ := ih hes.2 hR
      rw [List.filterMap_cons_some hsee, run_cons, outputs_cons, hout, houts]
      exact ⟨hrun, rfl⟩

end Machine

end Dynamicloader
