import Mathlib.Data.List.Induction
import Mathlib.Data.List.Sort
import Dynamicloader.Bridge.Priority
import Dynamicloader.Bridge.SortedSet
import Dynamicloader.Common.Arrays
import Dynamicloader.Common.Machine
/-!
# Bridge — snapshots of a sorted set

`CopyOnWriteSortedSet` as it works on arrays. `add` copies the array into a
longer one and sorts that, `remove` copies what lies on either side of the
element into a shorter one; the field `elements` is set when the new array is
finished, and `getSnapshot` hands out the field. What `SortedSet` says of the
set by its value is true of it, no access is out of bounds, and no array that
was there before is written to.

For callbacks whose `compareTo` is a total order a snapshot is then what was
added and not since removed, in descending priority.
-/

namespace Dynamicloader

namespace Bridge

/-- A call on a sorted set. -/
inductive Call (α : Type)
  | add (e : α)
  | remove (e : α)

/-- The callback of a call. -/
def Call.callback {α : Type} : Call α → α
  | .add e => e
  | .remove e => e

/-- A sorted set: the arrays there are and the one it refers to. -/
structure SortedArrays (α : Type) where
  arrays : Arrays α
  elements : ℕ

namespace SortedArrays

variable {α : Type} [DecidableEq α] (S : ArraySort α)

/-- A new set, with `EMPTY_ARRAY`. -/
def empty (α : Type) : SortedArrays α := { arrays := [[]], elements := 0 }

/-- `Arrays.sort` of the array a reference stands for; a null among the
elements is compared with. -/
def sort (A : Arrays α) (r : ℕ) : Except ArrayException (Arrays α) := do
  let l ← A.deref r
  match l.allSome with
  | some objects => return List.set A r ((S.sort objects).map some)
  | none => throw .nullPointer

/-- The loop of `indexOf`, from the cell `i` on. -/
def indexOfLoop (o : α) : List (Option α) → ℕ → Int
  | [], _ => -1
  | x :: xs, i => if x = some o then i else indexOfLoop o xs (i + 1)

/-- `indexOf` -/
def indexOf (s : SortedArrays α) (o : α) : Except ArrayException Int := do
  let l ← s.arrays.deref s.elements
  return indexOfLoop o l 0

/-- `getSnapshot` -/
def getSnapshot (s : SortedArrays α) : ℕ := s.elements

/-- `add` -/
def add (s : SortedArrays α) (e : α) : Except ArrayException (Bool × SortedArrays α) := do
  let index ← s.indexOf e
  if 0 ≤ index then return (false, s)
  let length := (← s.arrays.deref s.elements).length
  let (newElements, A) ← s.arrays.alloc (length + 1)
  let A ← A.arraycopy s.elements 0 newElements 0 length
  let A ← A.store newElements length (some e)
  let A ← sort S A newElements
  return (true, { arrays := A, elements := newElements })

/-- `remove` -/
def remove (s : SortedArrays α) (e : α) : Except ArrayException (Bool × SortedArrays α) := do
  let index ← s.indexOf e
  if index = -1 then return (false, s)
  let length : Int := (← s.arrays.deref s.elements).length
  let (newElements, A) ← s.arrays.alloc (length - 1)
  let A ← A.arraycopy s.elements 0 newElements 0 index
  let A ← A.arraycopy s.elements (index + 1) newElements index (length - index - 1)
  return (true, { arrays := A, elements := newElements })

/-- A call of either kind. -/
def call (s : SortedArrays α) : Call α → Except ArrayException (Bool × SortedArrays α)
  | .add e => s.add S e
  | .remove e => s.remove e

/-- One call after the other, with what each returned. -/
def calls : SortedArrays α → List (Call α) →
    Except ArrayException (List Bool × SortedArrays α)
  | s, [] => .ok ([], s)
  | s, c :: cs => do
    let (b, s) ← s.call S c
    let (bs, s) ← calls s cs
    return (b :: bs, s)

/-! ## The arrays hold the set -/

/-- The set is `l`: the array of its elements holds them and no null. -/
def Holds (s : SortedArrays α) (l : List α) : Prop :=
  s.arrays[s.elements]? = some (l.map some)

variable {S} {s : SortedArrays α} {l : List α}

theorem indexOfLoop_eq (o : α) (l : List α) (i : ℕ) :
    indexOfLoop o (l.map some) i = if o ∈ l then ((i + l.idxOf o : ℕ) : Int) else -1 := by
  induction l generalizing i with
  | nil => rfl
  | cons x xs ih =>
    rw [List.map_cons, indexOfLoop]
    by_cases hx : x = o
    · subst hx
      rw [if_pos rfl, if_pos List.mem_cons_self, List.idxOf_cons_self, Nat.add_zero]
    · rw [if_neg (fun h => hx (Option.some.inj h)), ih, List.idxOf_cons_ne _ hx]
      have hmem : o ∈ x :: xs ↔ o ∈ xs := by
        rw [List.mem_cons, or_iff_right (Ne.symm hx)]
      simp only [hmem]
      split
      · omega
      · rfl

theorem Holds.indexOf_eq (h : s.Holds l) (o : α) :
    s.indexOf o = .ok (if o ∈ l then (l.idxOf o : Int) else -1) := by
  rw [indexOf, Arrays.deref_eq h]
  simp only [bind, Except.bind, indexOfLoop_eq, Nat.zero_add]
  rfl

omit [DecidableEq α] in
theorem sort_last (A : Arrays α) (l : List α) :
    sort S (A ++ [l.map some]) A.length = .ok (A ++ [(S.sort l).map some]) := by
  have hall : (l.map some).allSome = some l := by
    rw [List.allSome, List.mapM_map]
    exact List.mapM_pure.trans (congrArg some (List.map_id l))
  simp only [sort, Arrays.deref_last, bind, Except.bind, hall, Arrays.set_last]
  rfl

/-- **`add` on arrays** is `add` on values, and no array is written to. -/
theorem Holds.add (h : s.Holds l) (e : α) :
    ∃ s', s.add S e = .ok ((CopyOnWriteSortedSet.add S l e).1, s') ∧
      s'.Holds (CopyOnWriteSortedSet.add S l e).2 ∧ s.arrays <+: s'.arrays := by
  rw [SortedArrays.add, h.indexOf_eq, CopyOnWriteSortedSet.add]
  by_cases he : e ∈ l
  · rw [if_pos he, if_pos he]
    refine ⟨s, ?_, h, List.prefix_refl _⟩
    simp only [bind, Except.bind]
    rw [if_pos (by omega)]
    rfl
  · rw [if_neg he, if_neg he]
    refine ⟨{ arrays := s.arrays ++ [(S.sort (l ++ [e])).map some]
              elements := s.arrays.length }, ?_, List.getElem?_concat_length,
      List.prefix_append _ _⟩
    have hcopy : Arrays.arraycopy (s.arrays ++ [List.replicate (l.length + 1) none]) s.elements
        0 s.arrays.length 0 l.length = .ok (s.arrays ++ [l.map some ++ [none]]) := by
      have hs : 0 + l.length ≤ (l.map some).length := by
        rw [List.length_map]
        omega
      have hlast := Arrays.arraycopy_last h [] hs (Nat.le_succ _)
      rwa [List.drop_zero, List.nil_append, Nat.succ_eq_add_one, Nat.add_sub_cancel_left,
        List.take_of_length_le (Nat.le_of_eq (List.length_map some))] at hlast
    have hstore : Arrays.store (s.arrays ++ [l.map some ++ [none]]) s.arrays.length l.length
        (some e) = .ok (s.arrays ++ [(l ++ [e]).map some]) := by
      rw [Arrays.store_last _ (by simp)]
      simp
    have halloc : s.arrays.alloc ((l.length : Int) + 1) = .ok (s.arrays.length, _) :=
      Arrays.alloc_eq s.arrays (l.length + 1)
    simp only [bind, Except.bind, Arrays.deref_eq h, List.length_map, halloc, hcopy, hstore,
      sort_last]
    rw [if_neg (by omega)]
    rfl

/-- **`remove` on arrays** is `remove` on values, and no array is written
to. -/
theorem Holds.remove (h : s.Holds l) (e : α) :
    ∃ s', s.remove e = .ok ((CopyOnWriteSortedSet.remove l e).1, s') ∧
      s'.Holds (CopyOnWriteSortedSet.remove l e).2 ∧ s.arrays <+: s'.arrays := by
  rw [SortedArrays.remove, h.indexOf_eq, CopyOnWriteSortedSet.remove]
  by_cases he : e ∈ l
  · rw [if_pos he, if_pos he]
    have hlt := List.idxOf_lt_length_iff.mpr he
    have hcut : l.erase e = l.take (l.idxOf e) ++ l.drop (l.idxOf e + 1) := by
      rw [List.erase_eq_eraseIdx_of_idxOf rfl, List.eraseIdx_eq_take_drop_succ]
    generalize l.idxOf e = k at hlt hcut
    refine ⟨{ arrays := s.arrays ++ [(l.erase e).map some], elements := s.arrays.length }, ?_,
      List.getElem?_concat_length, List.prefix_append _ _⟩
    have halloc : s.arrays.alloc ((l.length : Int) - 1) =
        .ok (s.arrays.length, s.arrays ++ [List.replicate (l.length - 1) none]) := by
      rw [← Arrays.alloc_eq]
      congr
      omega
    have hleft : Arrays.arraycopy (s.arrays ++ [List.replicate (l.length - 1) none]) s.elements
        0 s.arrays.length 0 k = .ok (s.arrays ++
          [(l.take k).map some ++ List.replicate (l.length - 1 - k) none]) := by
      have hs : 0 + k ≤ (l.map some).length := by
        rw [List.length_map]
        omega
      have hlast := Arrays.arraycopy_last h [] hs (Nat.le_sub_one_of_lt hlt)
      rwa [List.drop_zero, List.nil_append, ← List.map_take] at hlast
    have hright : Arrays.arraycopy (s.arrays ++
        [(l.take k).map some ++ List.replicate (l.length - 1 - k) none]) s.elements (k + 1)
          s.arrays.length k (l.length - k - 1) =
        .ok (s.arrays ++ [(l.erase e).map some]) := by
      have hs : k + 1 + (l.length - 1 - k) ≤ (l.map some).length := by
        rw [List.length_map]
        omega
      have hm : ((l.take k).map some).length = k := by
        rw [List.length_map, List.length_take]
        omega
      have hrest : ((l.drop (k + 1)).map some).length ≤ l.length - 1 - k := by
        rw [List.length_map, List.length_drop]
        omega
      have hlast := Arrays.arraycopy_last h ((l.take k).map some) hs (Nat.le_refl _)
      rw [hm, Nat.sub_self, List.replicate_zero, List.append_nil, ← List.map_drop,
        List.take_of_length_le hrest, ← List.map_append, ← hcut] at hlast
      rw [← hlast]
      congr 1
      omega
    simp only [bind, Except.bind, Arrays.deref_eq h, List.length_map, halloc, hleft, hright]
    rw [if_neg (by omega)]
    rfl
  · rw [if_neg he, if_neg he]
    exact ⟨s, rfl, h, List.prefix_refl _⟩

end SortedArrays

/-! ## Whole runs, by value -/

/-- The callback was added, and not removed since. -/
def AddedSince {α : Type} (cs : List (Call α)) (a : α) : Prop :=
  ∃ pre post, cs = pre ++ Call.add a :: post ∧ Call.remove a ∉ post

section AddedSince

variable {α : Type} {cs : List (Call α)} {a e : α}

theorem addedSince_nil : ¬ AddedSince [] a := by
  rintro ⟨pre, post, hcs, -⟩
  simp at hcs

theorem addedSince_concat {c : Call α} :
    AddedSince (cs ++ [c]) a ↔ c = .add a ∨ c ≠ .remove a ∧ AddedSince cs a := by
  constructor
  · rintro ⟨pre, post, hcs, hpost⟩
    rcases List.eq_nil_or_concat post with rfl | ⟨post, c', rfl⟩
    · obtain ⟨-, hc⟩ := List.append_inj' hcs rfl
      exact .inl (List.singleton_inj.mp hc)
    · rw [List.concat_eq_append, ← List.cons_append, ← List.append_assoc] at hcs
      obtain ⟨hcs, hc⟩ := List.append_inj' hcs rfl
      rw [List.concat_eq_append, List.mem_append, not_or] at hpost
      refine .inr ⟨fun heq => hpost.2 ?_, pre, post, hcs, hpost.1⟩
      rw [← hc, heq]
      exact List.mem_singleton_self _
  · rintro (rfl | ⟨hc, pre, post, rfl, hpost⟩)
    · exact ⟨cs, [], rfl, by simp⟩
    · refine ⟨pre, post ++ [c], by simp, ?_⟩
      rw [List.mem_append, List.mem_singleton]
      exact fun h => h.elim hpost fun heq => hc heq.symm

theorem addedSince_add : AddedSince (cs ++ [Call.add e]) a ↔ a = e ∨ AddedSince cs a := by
  rw [addedSince_concat]
  simp [eq_comm]

theorem addedSince_remove : AddedSince (cs ++ [Call.remove e]) a ↔ a ≠ e ∧ AddedSince cs a := by
  rw [addedSince_concat]
  simp [eq_comm]

theorem AddedSince.mem (h : AddedSince cs a) : a ∈ cs.map Call.callback := by
  obtain ⟨pre, post, rfl, -⟩ := h
  simp [Call.callback]

end AddedSince

namespace CopyOnWriteSortedSet

variable {α : Type} [DecidableEq α] (S : ArraySort α)

/-- A call on the set by its value. -/
def machine : Machine (CopyOnWriteSortedSet α) (Call α) Bool
  | l, .add e => ((add S l e).2, [(add S l e).1])
  | l, .remove e => ((remove l e).2, [(remove l e).1])

theorem machine_run_concat (cs : List (Call α)) (c : Call α) :
    (machine S).run [] (cs ++ [c]) = (machine S ((machine S).run [] cs) c).1 :=
  (machine S).run_append [] cs [c]

/-- **The set is what was added and not since removed**, each element once. -/
theorem run_mem_iff (cs : List (Call α)) :
    ((machine S).run [] cs).Nodup ∧ ∀ a, a ∈ (machine S).run [] cs ↔ AddedSince cs a := by
  induction cs using List.reverseRecOn with
  | nil => exact ⟨List.nodup_nil, fun a => iff_of_false List.not_mem_nil addedSince_nil⟩
  | append_singleton cs c ih =>
    obtain ⟨hnodup, hmem⟩ := ih
    rw [machine_run_concat]
    cases c with
    | add e =>
      refine ⟨nodup_add S hnodup e, fun a => ?_⟩
      rw [addedSince_add, ← hmem]
      exact mem_add_iff S
    | remove e =>
      refine ⟨nodup_remove hnodup e, fun a => ?_⟩
      rw [addedSince_remove, ← hmem]
      exact mem_remove_iff hnodup

/-- A call returns one value, and that is whether the set changed. -/
theorem machine_changed (l : List α) (hl : l.Nodup) (c : Call α) :
    ∃ b, (machine S l c).2 = [b] ∧
      (b = true ↔ ∃ a, ¬ (a ∈ (machine S l c).1 ↔ a ∈ l)) := by
  cases c with
  | add e =>
    refine ⟨_, rfl, ?_⟩
    show (add S l e).1 = true ↔ ∃ a, ¬ (a ∈ (add S l e).2 ↔ a ∈ l)
    simp only [mem_add_iff]
    rw [add]
    split
    case isTrue he =>
      refine iff_of_false Bool.false_ne_true ?_
      rintro ⟨a, ha⟩
      exact ha (or_iff_right_of_imp fun heq => heq ▸ he)
    case isFalse he =>
      exact iff_of_true rfl ⟨e, fun h => he (h.mp (.inl rfl))⟩
  | remove e =>
    refine ⟨_, rfl, ?_⟩
    show (remove l e).1 = true ↔ ∃ a, ¬ (a ∈ (remove l e).2 ↔ a ∈ l)
    simp only [mem_remove_iff hl]
    rw [remove]
    split
    case isTrue he =>
      exact iff_of_true rfl ⟨e, fun h => (h.mpr he).1 rfl⟩
    case isFalse he =>
      refine iff_of_false Bool.false_ne_true ?_
      rintro ⟨a, ha⟩
      exact ha (and_iff_right_of_imp fun hmem heq => he (heq ▸ hmem))

theorem outputs_length (l : List α) (cs : List (Call α)) :
    ((machine S).outputs l cs).length = cs.length := by
  induction cs generalizing l with
  | nil => rfl
  | cons c cs ih =>
    have hone : (machine S l c).2.length = 1 := by
      cases c with
      | add e => rfl
      | remove e => rfl
    rw [Machine.outputs_cons, List.length_append, hone, ih, List.length_cons, Nat.add_comm]

/-- **What a call of a run returns**: whether it changed what is in the set. -/
theorem outputs_getElem (pre post : List (Call α)) (c : Call α) :
    ∃ b, ((machine S).outputs [] (pre ++ c :: post))[pre.length]? = some b ∧
      (b = true ↔ ∃ a, ¬ (AddedSince (pre ++ [c]) a ↔ AddedSince pre a)) := by
  obtain ⟨hnodup, hmem⟩ := run_mem_iff S pre
  obtain ⟨b, hb, hchanged⟩ := machine_changed S _ hnodup c
  refine ⟨b, ?_, ?_⟩
  · have hlen := outputs_length S [] pre
    rw [Machine.outputs_append, List.getElem?_append_right (Nat.le_of_eq hlen), hlen, Nat.sub_self,
      Machine.outputs_cons, hb]
    rfl
  · rw [hchanged, ← machine_run_concat]
    simp only [hmem, (run_mem_iff S (pre ++ [c])).2]

end CopyOnWriteSortedSet

/-- `Arrays.sort` for callbacks: it sorts by a `compareTo` that is a total
order of what it is given. -/
structure ObjectSort {α : Type} [DecidableEq α] (K : BridgeCallback α) extends ArraySort α where
  sorted : ∀ l, K.TotalOn {a | a ∈ l} → (sort l).Pairwise fun a b => K.compareTo a b ≤ 0

section Sorted

variable {α : Type} [DecidableEq α] {K : BridgeCallback α}

/-- **The set is sorted** throughout a run. -/
theorem run_sorted (S : ObjectSort K) (cs : List (Call α))
    (hcs : K.TotalOn {a | a ∈ cs.map Call.callback}) :
    ((CopyOnWriteSortedSet.machine S.toArraySort).run [] cs).Pairwise
      fun a b => K.compareTo a b ≤ 0 := by
  induction cs using List.reverseRecOn with
  | nil => exact List.Pairwise.nil
  | append_singleton cs c ih =>
    have ih := ih (hcs.mono fun a ha => by simp_all)
    have hmem := (CopyOnWriteSortedSet.run_mem_iff S.toArraySort cs).2
    rw [CopyOnWriteSortedSet.machine_run_concat]
    cases c with
    | add e =>
      show (CopyOnWriteSortedSet.add _ _ e).2.Pairwise _
      rw [CopyOnWriteSortedSet.add]
      split
      · exact ih
      · refine S.sorted _ (hcs.mono fun a ha => ?_)
        rcases List.mem_append.mp ha with ha | ha
        · have hold := ((hmem a).mp ha).mem
          simp_all
        · obtain rfl := List.mem_singleton.mp ha
          simp [Call.callback]
    | remove e =>
      show (CopyOnWriteSortedSet.remove _ e).2.Pairwise _
      rw [CopyOnWriteSortedSet.remove]
      split
      · exact ih.sublist List.erase_sublist
      · exact ih

end Sorted

/-! ## Whole runs, on arrays -/

namespace SortedArrays

variable {α : Type} [DecidableEq α] {S : ArraySort α} {s : SortedArrays α} {l : List α}

theorem Holds.call (h : s.Holds l) (c : Call α) :
    ∃ b s', s.call S c = .ok (b, s') ∧ (CopyOnWriteSortedSet.machine S l c).2 = [b] ∧
      s'.Holds (CopyOnWriteSortedSet.machine S l c).1 ∧ s.arrays <+: s'.arrays := by
  cases c with
  | add e =>
    obtain ⟨s', hadd, hs', harrays⟩ := h.add (S := S) e
    exact ⟨_, s', hadd, rfl, hs', harrays⟩
  | remove e =>
    obtain ⟨s', hremove, hs', harrays⟩ := h.remove e
    exact ⟨_, s', hremove, rfl, hs', harrays⟩

/-- **The calls on arrays** are those on values. -/
theorem Holds.calls (h : s.Holds l) (cs : List (Call α)) :
    ∃ s', s.calls S cs = .ok ((CopyOnWriteSortedSet.machine S).outputs l cs, s') ∧
      s'.Holds ((CopyOnWriteSortedSet.machine S).run l cs) ∧ s.arrays <+: s'.arrays := by
  induction cs generalizing s l with
  | nil => exact ⟨s, rfl, h, List.prefix_refl _⟩
  | cons c cs ih =>
    obtain ⟨b, s₁, hcall, hb, hs₁, harrays₁⟩ := h.call (S := S) c
    obtain ⟨s₂, hcalls, hs₂, harrays₂⟩ := ih hs₁
    refine ⟨s₂, ?_, hs₂, harrays₁.trans harrays₂⟩
    rw [SortedArrays.calls, hcall]
    simp only [bind, Except.bind, hcalls, Machine.outputs_cons, hb]
    rfl

theorem calls_append (cs ds : List (Call α)) :
    s.calls S (cs ++ ds) = (s.calls S cs).bind fun r =>
      (r.2.calls S ds).map fun r' => (r.1 ++ r'.1, r'.2) := by
  induction cs generalizing s with
  | nil =>
    show s.calls S ds = (s.calls S ds).map _
    cases s.calls S ds with
    | error x => rfl
    | ok r => rfl
  | cons c cs ih =>
    rw [List.cons_append, calls, calls]
    cases s.call S c with
    | error x => rfl
    | ok r =>
      simp only [bind, Except.bind, pure, Except.pure, ih]
      cases r.2.calls S cs with
      | error x => rfl
      | ok r' =>
        simp only
        cases r'.2.calls S ds with
        | error x => rfl
        | ok r'' => rfl

omit [DecidableEq α] in
theorem holds_empty : (empty α).Holds [] := rfl

end SortedArrays

/-- **What a run of calls on a new set leaves.** -/
structure Snapshots {α : Type} [DecidableEq α] (K : BridgeCallback α) (S : ArraySort α)
    (cs : List (Call α)) (bs : List Bool) (s : SortedArrays α) : Prop where
  /-- The snapshot is what was added and not since removed, in descending
  priority. -/
  contents : ∃ l : List α, s.arrays[s.getSnapshot]? = some (l.map some) ∧
    (∀ a, a ∈ l ↔ AddedSince cs a) ∧ l.Nodup ∧
    l.Pairwise fun a b => K.priority b ≤ K.priority a
  /-- A call returned whether it changed what is in the set. -/
  returned : ∀ pre c, pre ++ [c] <+: cs → ∃ b, bs[pre.length]? = some b ∧
    (b = true ↔ ∃ a, ¬ (AddedSince (pre ++ [c]) a ↔ AddedSince pre a))
  /-- A snapshot that was taken on the way is as it was. -/
  unchanged : ∀ pre, pre <+: cs → ∀ bs₀ s₀, (SortedArrays.empty α).calls S pre = .ok (bs₀, s₀) →
    ∃ l₀, s₀.arrays[s₀.getSnapshot]? = some l₀ ∧ s.arrays[s₀.getSnapshot]? = some l₀

/-- **Copy on write.** Calls with callbacks that are ordinary all return, and
the set is then as it should be. -/
theorem calls_snapshots {α : Type} [DecidableEq α] (K : BridgeCallback α) (S : ObjectSort K)
    (cs : List (Call α)) (hcs : K.Ordinary {a | a ∈ cs.map Call.callback}) :
    ∃ bs s, (SortedArrays.empty α).calls S.toArraySort cs = .ok (bs, s) ∧
      Snapshots K S.toArraySort cs bs s := by
  obtain ⟨s, hcalls, hs, -⟩ :=
    (SortedArrays.holds_empty (α := α)).calls (S := S.toArraySort) cs
  refine ⟨_, s, hcalls, ?_, ?_, ?_⟩
  · obtain ⟨hnodup, hmem⟩ := CopyOnWriteSortedSet.run_mem_iff S.toArraySort cs
    have hsorted := run_sorted S cs hcs.totalOn
    refine ⟨_, hs, hmem, hnodup, hsorted.imp_of_mem fun ha hb hle => ?_⟩
    exact hcs.totalOn.priority_le ((hmem _).mp ha).mem ((hmem _).mp hb).mem hle
  · rintro pre c ⟨post, rfl⟩
    rw [List.append_assoc]
    exact CopyOnWriteSortedSet.outputs_getElem S.toArraySort pre post c
  · rintro pre ⟨post, rfl⟩ bs₀ s₀ hpre
    obtain ⟨s₀', hpre', hs₀, -⟩ :=
      (SortedArrays.holds_empty (α := α)).calls (S := S.toArraySort) pre
    obtain ⟨rfl, rfl⟩ := Prod.mk.inj (Except.ok.inj (hpre.symm.trans hpre'))
    obtain ⟨s', hpost, -, harrays⟩ := hs₀.calls (S := S.toArraySort) post
    rw [SortedArrays.calls_append, hpre] at hcalls
    simp only [Except.bind, hpost, Except.map] at hcalls
    obtain ⟨-, rfl⟩ := Prod.mk.inj (Except.ok.inj hcalls)
    obtain ⟨B, hB⟩ := harrays
    refine ⟨_, hs₀, ?_⟩
    rw [← hB]
    exact Arrays.getElem?_append hs₀ B

/-- `Arrays.sort` can be had where the order is total. -/
def ObjectSort.ofTotal {α : Type} [DecidableEq α] {K : BridgeCallback α}
    (h : K.TotalOn Set.univ) : ObjectSort K where
  sort l := l.mergeSort fun a b => decide (K.compareTo a b ≤ 0)
  perm l := List.mergeSort_perm l _
  sorted l _ := by
    refine (List.pairwise_mergeSort (fun a b c hab hbc => ?_) (fun a b => ?_) l).imp
      fun hle => of_decide_eq_true hle
    · exact decide_eq_true (h.trans a trivial b trivial c trivial (of_decide_eq_true hab)
        (of_decide_eq_true hbc))
    · rw [Bool.or_eq_true, decide_eq_true_eq, decide_eq_true_eq]
      exact h.total trivial trivial

/-- Two callbacks, one of default and one of the highest priority. -/
def twoCallbacks : BridgeCallback Bool where
  priority a := if a then 10000 else 50
  identityHashCode a := if a then 1 else 2

theorem twoCallbacks_ordinary (A : Set Bool) : twoCallbacks.Ordinary A := by
  have hhash : ∀ a b, a ≠ b → twoCallbacks.identityHashCode a ≠ twoCallbacks.identityHashCode b := by
    decide
  have hrange : ∀ a, BridgeCallback.priorityLowest ≤ twoCallbacks.priority a ∧
      twoCallbacks.priority a ≤ 2 * BridgeCallback.priorityHighest := by
    decide
  exact ⟨fun a _ b _ => hhash a b, fun a _ => hrange a⟩

theorem calls_snapshots_two : ∃ bs s, (SortedArrays.empty Bool).calls
      (ObjectSort.ofTotal (twoCallbacks_ordinary Set.univ).totalOn).toArraySort
      [.add false, .add true, .remove false] = .ok (bs, s) ∧
    Snapshots twoCallbacks
      (ObjectSort.ofTotal (twoCallbacks_ordinary Set.univ).totalOn).toArraySort
      [.add false, .add true, .remove false] bs s :=
  calls_snapshots twoCallbacks (ObjectSort.ofTotal (twoCallbacks_ordinary Set.univ).totalOn)
    [.add false, .add true, .remove false] (twoCallbacks_ordinary _)

end Bridge

end Dynamicloader
