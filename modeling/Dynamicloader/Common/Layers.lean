import Mathlib.Data.List.Forall2
/-!
# Layers around a core

A chain of interceptors, in the form its users think of it: each layer is
entered on the way in, may refuse to go deeper, and is left on the way
out, so what is entered last is left first. `around` is that nesting as a
recursion over the chain.

Two facts about it carry every comparison of two chains: related layers
around related cores give related results (`around_related`), and a layer
that neither stops the descent nor shows in the relation can be dropped
from one side (`around_related_insert`).
-/

namespace Dynamicloader

/-- One interceptor: `enter` answers the state and whether the descent
stops here, `leave` runs on the way out. -/
structure Layer (σ : Type*) where
  enter : σ → σ × Bool
  leave : σ → σ

namespace Layer

variable {σ τ : Type*}

/-- **The nesting.** Enter the first layer, go on inside unless it stops
the descent, and leave it. -/
def around (core : σ → σ) : List (Layer σ) → σ → σ
  | [], s => core s
  | l :: ls, s =>
    l.leave (if (l.enter s).2 then (l.enter s).1 else around core ls (l.enter s).1)

@[simp] theorem around_nil (core : σ → σ) (s : σ) : around core [] s = core s := rfl

theorem around_cons (core : σ → σ) (l : Layer σ) (ls : List (Layer σ)) (s : σ) :
    around core (l :: ls) s =
      l.leave (if (l.enter s).2 then (l.enter s).1 else around core ls (l.enter s).1) := rfl

/-- **Two layers that keep a pair of relations.** `Pre` relates the states
on the way in, `Post` those on the way out; a stop turns one into the
other. -/
structure Related (Pre Post : σ → τ → Prop) (l : Layer σ) (m : Layer τ) : Prop where
  stops : ∀ s t, Pre s t → (l.enter s).2 = (m.enter t).2
  deeper : ∀ s t, Pre s t → (l.enter s).2 = false → Pre (l.enter s).1 (m.enter t).1
  turned : ∀ s t, Pre s t → (l.enter s).2 = true → Post (l.enter s).1 (m.enter t).1
  leave : ∀ s t, Post s t → Post (l.leave s) (m.leave t)

/-- **A layer the relations do not see.** It never stops the descent, and
both its steps keep the relation to a state it did not run in. -/
structure Unseen (Pre Post : σ → τ → Prop) (l : Layer σ) : Prop where
  never_stops : ∀ s t, Pre s t → (l.enter s).2 = false
  enter : ∀ s t, Pre s t → Pre (l.enter s).1 t
  leave : ∀ s t, Post s t → Post (l.leave s) t

variable {Pre Post : σ → τ → Prop} {core : σ → σ} {core' : τ → τ}

/-- **Related layers nest to related results.** -/
theorem around_related (hcore : ∀ s t, Pre s t → Post (core s) (core' t))
    {ls : List (Layer σ)} {ms : List (Layer τ)} (h : List.Forall₂ (Related Pre Post) ls ms) :
    ∀ s t, Pre s t → Post (around core ls s) (around core' ms t) := by
  induction h with
  | nil => exact hcore
  | @cons l m ls ms hlm _ ih =>
    intro s t hst
    rw [around_cons, around_cons, ← hlm.stops s t hst]
    refine hlm.leave _ _ ?_
    cases hstop : (l.enter s).2 with
    | true => exact hlm.turned s t hst hstop
    | false => exact ih _ _ (hlm.deeper s t hst hstop)

/-- **An unseen layer can be inserted anywhere.** The layers before it and
after it are related pairwise; where it stands, only one side runs it. -/
theorem around_related_insert (hcore : ∀ s t, Pre s t → Post (core s) (core' t))
    {l : Layer σ} (hl : Unseen Pre Post l) {ls₁ ls₂ : List (Layer σ)} {ms₁ ms₂ : List (Layer τ)}
    (h₁ : List.Forall₂ (Related Pre Post) ls₁ ms₁)
    (h₂ : List.Forall₂ (Related Pre Post) ls₂ ms₂) :
    ∀ s t, Pre s t →
      Post (around core (ls₁ ++ l :: ls₂) s) (around core' (ms₁ ++ ms₂) t) := by
  induction h₁ with
  | nil =>
    intro s t hst
    rw [List.nil_append, List.nil_append, around_cons, hl.never_stops s t hst]
    exact hl.leave _ _ (around_related hcore h₂ _ _ (hl.enter s t hst))
  | @cons a b as bs hab _ ih =>
    intro s t hst
    rw [List.cons_append, List.cons_append, around_cons, around_cons, ← hab.stops s t hst]
    refine hab.leave _ _ ?_
    cases hstop : (a.enter s).2 with
    | true => exact hab.turned s t hst hstop
    | false => exact ih _ _ (hab.deeper s t hst hstop)

end Layer

end Dynamicloader
