import Dynamicloader.Common.Process
/-!
# What a program asks, and what it was answered before

`Prog.Spec` says which calls a program makes. `Follows` says which it makes
when: a call is allowed or not by the exchanges before it, and the result is
judged by all of them. The rules are those of `Spec`, with the history passed
on; `Follows.makes` reads the statement off a list of exchanges.
-/

namespace Dynamicloader

namespace Prog

variable {Op : Type} {Ans : Op → Type} {α β : Type}

/-- **After the exchanges `hist`**, every call of the program is one that `P`
allows behind those before it, and it ends in `R`. -/
def Follows (P : List (Exchange Op Ans) → Op → Prop) (R : List (Exchange Op Ans) → α → Prop) :
    Prog Op Ans α → List (Exchange Op Ans) → Prop
  | ret a, hist => R hist a
  | call op k, hist => P hist op ∧ ∀ x, Follows P R (k x) (hist ++ [⟨op, x⟩])

variable {P : List (Exchange Op Ans) → Op → Prop} {R R' : List (Exchange Op Ans) → α → Prop}
  {Q : List (Exchange Op Ans) → β → Prop} {hist : List (Exchange Op Ans)}

theorem follows_pure {a : α} (h : R hist a) : Follows P R (pure a : Prog Op Ans α) hist := h

theorem follows_call {op : Op} {k : Ans op → Prog Op Ans α} (hop : P hist op)
    (hk : ∀ x, Follows P R (k x) (hist ++ [⟨op, x⟩])) : Follows P R (call op k) hist := ⟨hop, hk⟩

theorem follows_call_bind {op : Op} {f : Ans op → Prog Op Ans β} (hop : P hist op)
    (hf : ∀ x, Follows P Q (f x) (hist ++ [⟨op, x⟩])) :
    Follows P Q ((call op ret : Prog Op Ans (Ans op)) >>= f) hist := ⟨hop, hf⟩

theorem follows_bind {c : Prog Op Ans α} {f : α → Prog Op Ans β} (hc : Follows P R c hist)
    (hf : ∀ hist a, R hist a → Follows P Q (f a) hist) : Follows P Q (c >>= f) hist := by
  induction c generalizing hist with
  | ret a => exact hf hist a hc
  | call op k ih => exact ⟨hc.1, fun x => ih x (hc.2 x)⟩

theorem Follows.mono {c : Prog Op Ans α} (h : Follows P R c hist)
    (himp : ∀ hist a, R hist a → R' hist a) : Follows P R' c hist := by
  induction c generalizing hist with
  | ret a => exact himp hist a h
  | call op k ih => exact ⟨h.1, fun x => ih x (h.2 x)⟩

/-- **The statement for a list of exchanges.** -/
theorem Follows.makes {c : Prog Op Ans α} (h : Follows P R c hist) {xs : List (Exchange Op Ans)}
    {a : α} (hxs : c.Makes xs a) :
    (∀ pre op x post, xs = pre ++ ⟨op, x⟩ :: post → P (hist ++ pre) op) ∧ R (hist ++ xs) a := by
  induction c generalizing hist xs with
  | ret b =>
    obtain ⟨rfl, rfl⟩ := hxs
    refine ⟨fun pre op x post heq => ?_, by rwa [List.append_nil]⟩
    simp at heq
  | call op k ih =>
    obtain ⟨y, ys, rfl, hk⟩ := hxs
    obtain ⟨hcalls, hend⟩ := ih y (h.2 y) hk
    rw [List.append_assoc] at hend
    refine ⟨fun pre op' x post heq => ?_, hend⟩
    cases pre with
    | nil =>
      obtain ⟨hhead, -⟩ := List.cons.inj heq
      cases hhead
      rw [List.append_nil]
      exact h.1
    | cons z pre =>
      obtain ⟨rfl, htail⟩ := List.cons.inj heq
      have := hcalls pre op' x post htail
      rwa [List.append_assoc] at this

section Except

variable {ε : Type} {E : List (Exchange Op Ans) → ε → Prop}

/-- `R` of a result and `E` of an exception, behind the exchanges. -/
def Ends (E : List (Exchange Op Ans) → ε → Prop) (R : List (Exchange Op Ans) → α → Prop)
    (hist : List (Exchange Op Ans)) : Except ε α → Prop
  | .ok a => R hist a
  | .error e => E hist e

theorem follows_lift {c : Prog Op Ans α} (h : Follows P R c hist) :
    Follows P (Ends E R) (liftM c : ExceptT ε (Prog Op Ans) α).run hist := by
  rw [run_lift]
  exact follows_bind h fun _ _ ha => follows_pure ha

theorem follows_bind_except {c : ExceptT ε (Prog Op Ans) α} {f : α → ExceptT ε (Prog Op Ans) β}
    (hc : Follows P (Ends E R) c.run hist)
    (hf : ∀ hist a, R hist a → Follows P (Ends E Q) (f a).run hist) :
    Follows P (Ends E Q) (c >>= f).run hist := by
  rw [run_bind_except]
  refine follows_bind hc fun hist r hr => ?_
  cases r with
  | error e => exact hr
  | ok a => exact hf hist a hr

end Except

end Prog

end Dynamicloader
