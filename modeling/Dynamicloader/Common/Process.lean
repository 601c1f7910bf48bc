import Mathlib.Logic.Relation
/-!
# Programs that call out

A program is a tree: it is finished, or it makes a call and goes on with
the answer. What a call does and when it is answered is not part of the
program, so the same program is run against a peer that answers at once
(`run`, and `record` with the calls it makes) and reasoned about in a world
others change meanwhile (`Safe`).

`Spec` is for what a program asks, whatever it is answered: as long as the
answers are within an assumption, it only makes calls of a kind and ends in
its postcondition. `Makes` lists its exchanges, for what depends on their
order, `Reaches` says in which state of a peer a call is made, and `before`
in which the first of a kind is. A program is also run over other calls
(`relabel`).

`Safe` is a rely-guarantee precondition: between two calls the world may
take any number of environment steps, an invariant holds all the while,
and the postcondition holds at the end. Its rules are one for sequencing
and one for a call made under a stable assertion.
-/

namespace Dynamicloader

/-- **A program over the calls `Op`.** -/
inductive Prog (Op : Type) (Ans : Op → Type) (α : Type) where
  | ret (a : α)
  | call (op : Op) (k : Ans op → Prog Op Ans α)

namespace Prog

variable {Op : Type} {Ans : Op → Type} {α β σ : Type}

protected def bind : Prog Op Ans α → (α → Prog Op Ans β) → Prog Op Ans β
  | ret a, f => f a
  | call op k, f => call op fun x => (k x).bind f

instance : Monad (Prog Op Ans) where
  pure := ret
  bind := Prog.bind

/-! ## Against a peer that answers at once -/

/-- Run a program against `peer`. -/
def run (peer : σ → (op : Op) → Ans op × σ) : Prog Op Ans α → σ → α × σ
  | ret a, s => (a, s)
  | call op k, s => run peer (k (peer s op).1) (peer s op).2

variable {peer : σ → (op : Op) → Ans op × σ}

@[simp] theorem run_pure (a : α) (s : σ) : run peer (pure a) s = (a, s) := rfl

@[simp] theorem run_call (op : Op) (k : Ans op → Prog Op Ans α) (s : σ) :
    run peer (call op k) s = run peer (k (peer s op).1) (peer s op).2 := rfl

theorem run_bind (c : Prog Op Ans α) (f : α → Prog Op Ans β) (s : σ) :
    run peer (c >>= f) s = run peer (f (run peer c s).1) (run peer c s).2 := by
  induction c generalizing s with
  | ret a => rfl
  | call op k ih => exact ih _ _

/-! ## What a program asks -/

/-- A call with its answer. -/
abbrev Exchange (Op : Type) (Ans : Op → Type) := (op : Op) × Ans op

/-- Run a program against `peer`, with the exchanges it makes. -/
def record (peer : σ → (op : Op) → Ans op × σ) :
    Prog Op Ans α → σ → List (Exchange Op Ans) × α
  | ret a, _ => ([], a)
  | call op k, s =>
    let r := record peer (k (peer s op).1) (peer s op).2
    (⟨op, (peer s op).1⟩ :: r.1, r.2)

/-- The program makes the exchanges `xs` and ends with `b`. -/
def Makes : Prog Op Ans α → List (Exchange Op Ans) → α → Prop
  | ret a, xs, b => xs = [] ∧ a = b
  | call op k, xs, b => ∃ x ys, xs = ⟨op, x⟩ :: ys ∧ Makes (k x) ys b

theorem record_makes (c : Prog Op Ans α) (s : σ) :
    c.Makes (c.record peer s).1 (c.record peer s).2 := by
  induction c generalizing s with
  | ret a => exact ⟨rfl, rfl⟩
  | call op k ih => exact ⟨_, _, rfl, ih _ _⟩

/-- The record ends as the run does. -/
theorem record_snd (c : Prog Op Ans α) (s : σ) : (c.record peer s).2 = (c.run peer s).1 := by
  induction c generalizing s with
  | ret a => rfl
  | call op k ih => exact ih _ _

/-- **The exchanges of a sequence** are those of its parts. -/
theorem makes_bind {c : Prog Op Ans α} {f : α → Prog Op Ans β} {zs : List (Exchange Op Ans)}
    {b : β} : (c >>= f).Makes zs b ↔
      ∃ xs a ys, zs = xs ++ ys ∧ c.Makes xs a ∧ (f a).Makes ys b := by
  induction c generalizing zs with
  | ret a =>
    constructor
    · intro h
      exact ⟨[], a, zs, rfl, ⟨rfl, rfl⟩, h⟩
    · rintro ⟨xs, a', ys, rfl, ⟨rfl, rfl⟩, h⟩
      exact h
  | call op k ih =>
    constructor
    · rintro ⟨x, ys, rfl, h⟩
      obtain ⟨xs, a, ys', rfl, hk, hf⟩ := (ih x).mp h
      exact ⟨⟨op, x⟩ :: xs, a, ys', rfl, ⟨x, xs, rfl, hk⟩, hf⟩
    · rintro ⟨xs, a, ys, rfl, ⟨x, xs', rfl, hk⟩, hf⟩
      exact ⟨x, xs' ++ ys, rfl, (ih x).mpr ⟨xs', a, ys, rfl, hk, hf⟩⟩

/-- After a call, the exchanges left are the rest's. -/
theorem makes_call_bind {op : Op} {k : Ans op → Prog Op Ans α} {xs : List (Exchange Op Ans)} {a : α}
    (h : ((call op ret : Prog Op Ans (Ans op)) >>= k).Makes xs a) :
    ∃ x ys, xs = ⟨op, x⟩ :: ys ∧ (k x).Makes ys a := h

/-- **As long as it is answered within `A`, the program makes calls in `P`
only and ends in `R`.** -/
def Spec (A : (op : Op) → Ans op → Prop) (P : Op → Prop) (R : α → Prop) :
    Prog Op Ans α → Prop
  | ret a => R a
  | call op k => P op ∧ ∀ x, A op x → Spec A P R (k x)

variable {A : (op : Op) → Ans op → Prop} {P : Op → Prop} {R : α → Prop} {Q : β → Prop}

theorem spec_pure {a : α} (h : R a) : Spec A P R (pure a : Prog Op Ans α) := h

theorem spec_bind {c : Prog Op Ans α} {f : α → Prog Op Ans β} (hc : Spec A P R c)
    (hf : ∀ a, R a → Spec A P Q (f a)) : Spec A P Q (c >>= f) := by
  induction c with
  | ret a => exact hf a hc
  | call op k ih => exact ⟨hc.1, fun x hx => ih x (hc.2 x hx)⟩

/-- Nothing is asked of a program that may ask anything. -/
theorem spec_true (c : Prog Op Ans α) : Spec A (fun _ => True) (fun _ => True) c := by
  induction c with
  | ret a => trivial
  | call op k ih => exact ⟨trivial, fun x _ => ih x⟩

/-- A specification holds of the exchanges. -/
theorem Spec.makes {c : Prog Op Ans α} (h : Spec A P R c) {xs : List (Exchange Op Ans)} {a : α}
    (hxs : c.Makes xs a) (hA : ∀ x ∈ xs, A x.1 x.2) : (∀ x ∈ xs, P x.1) ∧ R a := by
  induction c generalizing xs with
  | ret b =>
    obtain ⟨rfl, rfl⟩ := hxs
    exact ⟨by simp, h⟩
  | call op k ih =>
    obtain ⟨x, ys, rfl, hk⟩ := hxs
    rw [List.forall_mem_cons] at hA ⊢
    obtain ⟨hP, hR⟩ := ih x (h.2 x hA.1) hk hA.2
    exact ⟨⟨h.1, hP⟩, hR⟩

/-- `R` of a result and `E` of an exception. -/
def Outcome {ε : Type} (E : ε → Prop) (R : α → Prop) : Except ε α → Prop
  | .ok a => R a
  | .error e => E e

section Except

variable {ε : Type} {E : ε → Prop}

theorem run_lift (c : Prog Op Ans α) :
    (liftM c : ExceptT ε (Prog Op Ans) α).run = c >>= fun a => pure (Except.ok a) := rfl

theorem run_bind_except (c : ExceptT ε (Prog Op Ans) α) (f : α → ExceptT ε (Prog Op Ans) β) :
    (c >>= f).run = c.run >>= fun
      | .ok a => (f a).run
      | .error e => pure (.error e) := by
  refine congrArg (c.run >>= ·) (funext fun r => ?_)
  cases r <;> rfl

theorem spec_lift {c : Prog Op Ans α} (h : Spec A P R c) :
    Spec A P (Outcome E R) (liftM c : ExceptT ε (Prog Op Ans) α).run := by
  rw [run_lift]
  exact spec_bind h fun a ha => spec_pure ha

/-- The second part of a sequence runs where the first does not throw. -/
theorem spec_bind_except {c : ExceptT ε (Prog Op Ans) α} {f : α → ExceptT ε (Prog Op Ans) β}
    (hc : Spec A P (Outcome E R) c.run) (hf : ∀ a, R a → Spec A P (Outcome E Q) (f a).run) :
    Spec A P (Outcome E Q) (c >>= f).run := by
  rw [run_bind_except]
  refine spec_bind hc fun r hr => ?_
  cases r with
  | error e => exact hr
  | ok a => exact hf a hr

theorem makes_lift {c : Prog Op Ans α} {xs : List (Exchange Op Ans)} {r : Except ε α}
    (h : (liftM c : ExceptT ε (Prog Op Ans) α).run.Makes xs r) : ∃ a, r = .ok a ∧ c.Makes xs a := by
  rw [run_lift, makes_bind] at h
  obtain ⟨ys, a, zs, rfl, hc, rfl, rfl⟩ := h
  exact ⟨a, rfl, by rwa [List.append_nil]⟩

/-- The exchanges of a sequence whose first part does not throw. -/
theorem makes_lift_bind {c : Prog Op Ans α} {f : α → ExceptT ε (Prog Op Ans) β}
    {zs : List (Exchange Op Ans)} {r : Except ε β}
    (h : ((liftM c : ExceptT ε (Prog Op Ans) α) >>= f).run.Makes zs r) :
    ∃ xs a ys, zs = xs ++ ys ∧ c.Makes xs a ∧ (f a).run.Makes ys r := by
  rw [run_bind_except, makes_bind] at h
  obtain ⟨xs, ra, ys, rfl, hlift, hf⟩ := h
  obtain ⟨a, rfl, hc⟩ := makes_lift hlift
  exact ⟨xs, a, ys, rfl, hc, hf⟩

theorem makes_call_bind_except {op : Op} {f : Ans op → ExceptT ε (Prog Op Ans) β}
    {zs : List (Exchange Op Ans)} {r : Except ε β}
    (h : ((liftM (call op ret : Prog Op Ans (Ans op)) : ExceptT ε (Prog Op Ans) (Ans op)) >>=
      f).run.Makes zs r) :
    ∃ x ys, zs = ⟨op, x⟩ :: ys ∧ (f x).run.Makes ys r := by
  obtain ⟨xs, x, ys, rfl, ⟨x', xs', rfl, rfl, rfl⟩, hf⟩ := makes_lift_bind h
  exact ⟨x', ys, rfl, hf⟩

/-- Where a sequence does not throw, none of its parts does. -/
theorem makes_bind_ok {c : ExceptT ε (Prog Op Ans) α} {f : α → ExceptT ε (Prog Op Ans) β}
    {zs : List (Exchange Op Ans)} {b : β} (h : (c >>= f).run.Makes zs (.ok b)) :
    ∃ xs a ys, zs = xs ++ ys ∧ c.run.Makes xs (.ok a) ∧ (f a).run.Makes ys (.ok b) := by
  rw [run_bind_except, makes_bind] at h
  obtain ⟨xs, r, ys, rfl, hc, hf⟩ := h
  cases r with
  | error e => cases hf.2
  | ok a => exact ⟨xs, a, ys, rfl, hc, hf⟩

/-- A sequence throws in its first part, or in its second. -/
theorem makes_bind_error {c : ExceptT ε (Prog Op Ans) α} {f : α → ExceptT ε (Prog Op Ans) β}
    {xs : List (Exchange Op Ans)} {e : ε} (h : (c >>= f).run.Makes xs (.error e)) :
    c.run.Makes xs (.error e) ∨
      ∃ ys a zs, xs = ys ++ zs ∧ c.run.Makes ys (.ok a) ∧ (f a).run.Makes zs (.error e) := by
  rw [run_bind_except, makes_bind] at h
  obtain ⟨ys, r, zs, rfl, hc, hf⟩ := h
  cases r with
  | error e' =>
    obtain ⟨rfl, h⟩ := hf
    cases h
    exact .inl (by rwa [List.append_nil])
  | ok a => exact .inr ⟨ys, a, zs, rfl, hc, hf⟩

end Except

/-! ## In which state it asks -/

/-- Run against `peer` from `s`, the program makes the call `op` in the state
`t`. -/
def Reaches (peer : σ → (op : Op) → Ans op × σ) : Prog Op Ans α → σ → Op → σ → Prop
  | ret _, _, _, _ => False
  | call op k, s, op', t =>
    (op' = op ∧ t = s) ∨ Reaches peer (k (peer s op).1) (peer s op).2 op' t

/-- **The calls of a sequence** are made by its first part, or by its second
where the first has ended. -/
theorem reaches_bind {c : Prog Op Ans α} {f : α → Prog Op Ans β} {s t : σ} {op : Op} :
    Reaches peer (c >>= f) s op t ↔
      Reaches peer c s op t ∨ Reaches peer (f (c.run peer s).1) (c.run peer s).2 op t := by
  induction c generalizing s with
  | ret a => exact (or_iff_right id).symm
  | call op' k ih =>
    constructor
    · rintro (h | h)
      · exact .inl (.inl h)
      · exact ((ih _).mp h).imp_left .inr
    · rintro ((h | h) | h)
      · exact .inl h
      · exact .inr ((ih _).mpr (.inl h))
      · exact .inr ((ih _).mpr (.inr h))

theorem reaches_bind_except {ε : Type} {c : ExceptT ε (Prog Op Ans) α}
    {f : α → ExceptT ε (Prog Op Ans) β} {s t : σ} {op : Op} :
    Reaches peer (c >>= f).run s op t ↔ Reaches peer c.run s op t ∨
      ∃ a, (c.run.run peer s).1 = .ok a ∧ Reaches peer (f a).run (c.run.run peer s).2 op t := by
  rw [run_bind_except, reaches_bind]
  refine or_congr Iff.rfl ?_
  cases (c.run.run peer s).1 with
  | ok a =>
    constructor
    · intro h
      exact ⟨a, rfl, h⟩
    · rintro ⟨b, hb, h⟩
      cases hb
      exact h
  | error e =>
    constructor
    · intro h
      exact h.elim
    · rintro ⟨b, hb, -⟩
      cases hb

theorem run_run_lift {ε : Type} (c : Prog Op Ans α) (s : σ) :
    (liftM c : ExceptT ε (Prog Op Ans) α).run.run peer s =
      (.ok (c.run peer s).1, (c.run peer s).2) := by
  rw [run_lift, run_bind]
  rfl

theorem reaches_lift {ε : Type} {c : Prog Op Ans α} {s t : σ} {op : Op} :
    Reaches peer (liftM c : ExceptT ε (Prog Op Ans) α).run s op t ↔ Reaches peer c s op t := by
  rw [run_lift, reaches_bind]
  exact or_iff_left id

theorem run_bind_ok {ε : Type} {c : ExceptT ε (Prog Op Ans) α}
    {f : α → ExceptT ε (Prog Op Ans) β} {s : σ} {a : α} (h : (c.run.run peer s).1 = .ok a) :
    ((c >>= f).run).run peer s = (f a).run.run peer (c.run.run peer s).2 := by
  rw [run_bind_except, run_bind, h]

theorem run_lift_bind {ε : Type} (c : Prog Op Ans α) (f : α → ExceptT ε (Prog Op Ans) β) (s : σ) :
    ((liftM c : ExceptT ε (Prog Op Ans) α) >>= f).run.run peer s =
      (f (c.run peer s).1).run.run peer (c.run peer s).2 := by
  rw [run_bind_ok (congrArg Prod.fst (run_run_lift c s)), run_run_lift]

theorem reaches_lift_bind {ε : Type} {c : Prog Op Ans α} {f : α → ExceptT ε (Prog Op Ans) β}
    {s t : σ} {op : Op} :
    Reaches peer ((liftM c : ExceptT ε (Prog Op Ans) α) >>= f).run s op t ↔
      Reaches peer c s op t ∨ Reaches peer (f (c.run peer s).1).run (c.run peer s).2 op t := by
  rw [reaches_bind_except, reaches_lift, run_run_lift]
  refine or_congr Iff.rfl ⟨?_, fun hr => ⟨_, rfl, hr⟩⟩
  rintro ⟨a, ha, hr⟩
  cases ha
  exact hr

/-- From every state, the program makes the call `op`. -/
def Asks (peer : σ → (op : Op) → Ans op × σ) (c : Prog Op Ans α) (op : Op) : Prop :=
  ∀ s, ∃ t, Reaches peer c s op t

theorem asks_bind {c : Prog Op Ans α} {f : α → Prog Op Ans β} {a : α} {op : Op}
    (hc : ∀ s, (c.run peer s).1 = a) (hf : Asks peer (f a) op) : Asks peer (c >>= f) op := by
  intro s
  obtain ⟨t, ht⟩ := hf (c.run peer s).2
  exact ⟨t, reaches_bind.mpr (.inr ((hc s).symm ▸ ht))⟩

section Except

variable {ε : Type} {c : ExceptT ε (Prog Op Ans) α} {f : α → ExceptT ε (Prog Op Ans) β} {op : Op}

theorem asks_bind_left (hc : Asks peer c.run op) : Asks peer (c >>= f).run op := by
  intro s
  obtain ⟨t, ht⟩ := hc s
  exact ⟨t, reaches_bind_except.mpr (.inl ht)⟩

theorem asks_bind_right {a : α} (hc : ∀ s, (c.run.run peer s).1 = .ok a)
    (hf : Asks peer (f a).run op) : Asks peer (c >>= f).run op := by
  intro s
  obtain ⟨t, ht⟩ := hf (c.run.run peer s).2
  exact ⟨t, reaches_bind_except.mpr (.inr ⟨a, hc s, ht⟩)⟩

theorem asks_lift_bind {c : Prog Op Ans α} {a : α} (hc : ∀ s, (c.run peer s).1 = a)
    (hf : Asks peer (f a).run op) :
    Asks peer ((liftM c : ExceptT ε (Prog Op Ans) α) >>= f).run op :=
  asks_bind_right (fun s => by rw [run_run_lift, hc]) hf

end Except

/-- A call that is made is one the specification allows. -/
theorem Spec.reaches {c : Prog Op Ans α} (h : Spec A P R c) {s t : σ} {op : Op}
    (hA : ∀ s op, A op (peer s op).1) (hr : Reaches peer c s op t) : P op := by
  induction c generalizing s with
  | ret a => exact hr.elim
  | call op' k ih =>
    rcases hr with ⟨rfl, -⟩ | hr
    · exact h.1
    · exact ih _ (h.2 _ (hA s op')) hr

/-- A call that is made is on the record. -/
theorem Reaches.mem_record {c : Prog Op Ans α} {s t : σ} {op : Op} (h : Reaches peer c s op t) :
    ⟨op, (peer t op).1⟩ ∈ (c.record peer s).1 := by
  induction c generalizing s with
  | ret a => exact h.elim
  | call op' k ih =>
    rcases h with ⟨rfl, rfl⟩ | h
    · exact List.mem_cons_self
    · exact List.mem_cons_of_mem _ (ih _ h)

/-- What is on the record is what the peer answers. -/
theorem record_answer {c : Prog Op Ans α} {s : σ} {x : Exchange Op Ans}
    (hx : x ∈ (c.record peer s).1) : ∃ t, x.2 = (peer t x.1).1 := by
  induction c generalizing s with
  | ret a => cases hx
  | call op' k ih =>
    rcases List.mem_cons.mp hx with rfl | hx
    · exact ⟨s, rfl⟩
    · exact ih _ hx

/-- A call that is made against a peer is made in a run, all of whose answers
are the peer's. -/
theorem Asks.exists_run {c : Prog Op Ans α} {op : Op} (h : Asks peer c op) (s : σ) :
    ∃ xs r, c.Makes xs r ∧ (∀ x ∈ xs, ∃ t, x.2 = (peer t x.1).1) ∧ ∃ x ∈ xs, x.1 = op := by
  obtain ⟨t, ht⟩ := h s
  exact ⟨_, _, record_makes c s, fun x hx => record_answer hx, _, ht.mem_record, rfl⟩

/-- The state in which the program, run against `peer` from `s`, makes its
first call in `p`. -/
def before (p : Op → Bool) (peer : σ → (op : Op) → Ans op × σ) : Prog Op Ans α → σ → Option σ
  | ret _, _ => none
  | call op k, s => if p op then some s else before p peer (k (peer s op).1) (peer s op).2

section Before

variable {p : Op → Bool}

/-- **The first call of a sequence** is the second part's where the first
makes none. -/
theorem before_bind (c : Prog Op Ans α) (f : α → Prog Op Ans β) (s : σ) :
    (c >>= f).before p peer s =
      (c.before p peer s).or ((f (c.run peer s).1).before p peer (c.run peer s).2) := by
  induction c generalizing s with
  | ret a => rfl
  | call op k ih =>
    show (if p op then some s else (k (peer s op).1 >>= f).before p peer (peer s op).2) =
      (if p op then some s else (k (peer s op).1).before p peer (peer s op).2).or _
    split
    · rfl
    · exact ih _ _

theorem before_lift_bind {ε : Type} (c : Prog Op Ans α) (f : α → ExceptT ε (Prog Op Ans) β)
    (s : σ) :
    ((liftM c : ExceptT ε (Prog Op Ans) α) >>= f).run.before p peer s =
      (c.before p peer s).or ((f (c.run peer s).1).run.before p peer (c.run peer s).2) := by
  rw [run_bind_except, before_bind, run_run_lift, run_lift, before_bind]
  exact congrArg (Option.or · _) Option.or_none

/-- A program specified to make no such call makes none first. -/
theorem Spec.before_eq_none {c : Prog Op Ans α}
    (h : Spec (fun _ _ => True) (fun op => p op = false) R c) (s : σ) :
    c.before p peer s = none := by
  induction c generalizing s with
  | ret a => rfl
  | call op k ih =>
    rw [before, h.1]
    exact ih _ (h.2 _ trivial) _

end Before

/-! ## With other calls -/

section Relabel

variable {Op' : Type} {Ans' : Op' → Type}

/-- The program with its calls made through `f`. -/
def relabel (f : Op → Op') (g : ∀ op, Ans' (f op) → Ans op) :
    Prog Op Ans α → Prog Op' Ans' α
  | ret a => ret a
  | call op k => call (f op) fun x => relabel f g (k (g op x))

variable {f : Op → Op'} {g : ∀ op, Ans' (f op) → Ans op} {peer' : σ → (op : Op') → Ans' op × σ}

theorem run_relabel (c : Prog Op Ans α) (s : σ) :
    (c.relabel f g).run peer' s =
      c.run (fun s op => (g op (peer' s (f op)).1, (peer' s (f op)).2)) s := by
  induction c generalizing s with
  | ret a => rfl
  | call op k ih => exact ih _ _

theorem before_relabel {p : Op' → Bool} (c : Prog Op Ans α) (s : σ) :
    (c.relabel f g).before p peer' s =
      c.before (p ∘ f) (fun s op => (g op (peer' s (f op)).1, (peer' s (f op)).2)) s := by
  induction c generalizing s with
  | ret a => rfl
  | call op k ih =>
    show (if p (f op) then some s else _) = if p (f op) then some s else _
    split
    · rfl
    · exact ih _ _

end Relabel

/-! ## In a world others change -/

/-- What happens around a program: the steps others take, and what a call
can answer and do. -/
structure Arena (Op : Type) (Ans : Op → Type) (σ : Type) where
  env : σ → σ → Prop
  act : (op : Op) → σ → Ans op → σ → Prop

namespace Arena

variable (A : Arena Op Ans σ)

/-- The others keep `P`. -/
def Stable (P : σ → Prop) : Prop := ∀ s t, A.env s t → P s → P t

variable {A}

theorem Stable.trans {P : σ → Prop} (h : A.Stable P) {s t : σ}
    (hst : Relation.ReflTransGen A.env s t) (hs : P s) : P t := by
  induction hst with
  | refl => exact hs
  | tail _ hstep ih => exact h _ _ hstep ih

variable (A)

/-- **The program keeps `I` and ends in `Q`**, whatever the others do
between its calls. -/
def Safe (I : σ → Prop) (Q : α → σ → Prop) : Prog Op Ans α → σ → Prop
  | ret a, s => Q a s
  | call op k, s => ∀ t, Relation.ReflTransGen A.env s t →
      I t ∧ ∀ x u, A.act op t x u → Safe I Q (k x) u

variable {A} {I : σ → Prop}

theorem safe_pure {Q : α → σ → Prop} {a : α} {s : σ} (h : Q a s) :
    A.Safe I Q (pure a) s := h

/-- **Sequencing.** -/
theorem safe_bind {R : α → σ → Prop} {Q : β → σ → Prop} {c : Prog Op Ans α}
    {f : α → Prog Op Ans β} {s : σ} (hc : A.Safe I R c s)
    (hf : ∀ a t, R a t → A.Safe I Q (f a) t) : A.Safe I Q (c >>= f) s := by
  induction c generalizing s with
  | ret a => exact hf a s hc
  | call op k ih =>
    intro t hst
    obtain ⟨hI, hk⟩ := hc t hst
    exact ⟨hI, fun x u hact => ih x (hk x u hact)⟩

/-- **A call under a stable assertion.** -/
theorem safe_call {P : σ → Prop} {Q : α → σ → Prop} {op : Op} {k : Ans op → Prog Op Ans α} {s : σ}
    (hP : A.Stable P) (hI : ∀ t, P t → I t) (hs : P s)
    (hk : ∀ t x u, P t → A.act op t x u → A.Safe I Q (k x) u) : A.Safe I Q (call op k) s := by
  intro t hst
  have ht : P t := hP.trans hst hs
  exact ⟨hI t ht, fun x u hact => hk t x u ht hact⟩

/-- A step of the others leaves an unfinished program safe. -/
theorem Safe.env {Q : α → σ → Prop} {op : Op} {k : Ans op → Prog Op Ans α} {s t : σ}
    (h : A.Safe I Q (call op k) s) (hst : A.env s t) : A.Safe I Q (call op k) t := by
  intro u htu
  exact h u (Relation.ReflTransGen.head hst htu)

end Arena

end Prog

end Dynamicloader
