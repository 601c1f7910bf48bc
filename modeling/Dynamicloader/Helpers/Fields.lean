import Dynamicloader.Common.Machine
import Mathlib.Data.Nat.Notation
import Mathlib.Logic.Function.Basic
/-!
# Helpers — additional instance fields

Modules attach values to objects with `setAdditionalInstanceField`. The
values are kept in a `WeakHashMap`, which finds an object by its `hashCode`
and `equals`. These are the object's own methods: they may take two objects
for one, and say something else after the object has changed.

A `View` is what they say at the time of a call. As long as each call finds
the entry of its own object and no other, the fields are those of the
objects, told apart by identity (`fields_owned`). Two texts that are equal
share their fields, and an object that changes loses them
(`equal_objects_share`).

All objects are alive, so that no entry is dropped.
-/

namespace Dynamicloader

namespace Helpers

variable {O V : Type}

/-! ## The model -/

/-- An entry of the map: the hash it was put under, the object, and its fields. A
field that is null and one that is not there are alike. -/
structure Entry (O V : Type) where
  hash : ℕ
  key : O
  fields : String → Option V

/-- `additionalFields`, with the entry that is found first in front. -/
abbrev FieldMap (O V : Type) := List (Entry O V)

/-- **What the objects and the map say during a call.** The map compares an object
with the entries that its hash is `near` to: those with this hash, or all
in its bucket. -/
structure View (O : Type) where
  hashCode : O → ℕ
  equals : O → O → Bool
  near : ℕ → ℕ → Bool

def View.finds (v : View O) (o : O) (e : Entry O V) : Bool :=
  v.near (v.hashCode o) e.hash && v.equals o e.key

structure NullPointer where
  message : String
  deriving DecidableEq

/-- The checks with which the three calls begin. -/
def checked {S : Type} (obj : Option O) (key : Option String)
    (call : O → String → S → Option V × S) (s : S) : Except NullPointer (Option V) × S :=
  match obj, key with
  | none, _ => (.error ⟨"object must not be null"⟩, s)
  | some _, none => (.error ⟨"key must not be null"⟩, s)
  | some o, some k =>
    let (value, s) := call o k s
    (.ok value, s)

/-- The fields in the entry that is found are changed. -/
def modifyFound (v : View O) (o : O) (f : (String → Option V) → String → Option V) :
    FieldMap O V → FieldMap O V
  | [] => []
  | e :: s =>
    if v.finds o e then { e with fields := f e.fields } :: s else e :: modifyFound v o f s

/-- A set returns the value before. -/
def setField (v : View O) (value : Option V) (o : O) (k : String) (s : FieldMap O V) :
    Option V × FieldMap O V :=
  match s.find? (v.finds o) with
  | some e => (e.fields k, modifyFound v o (fun fields => Function.update fields k value) s)
  | none => (none, ⟨v.hashCode o, o, Function.update (fun _ => none) k value⟩ :: s)

def getField (v : View O) (o : O) (k : String) (s : FieldMap O V) :
    Option V × FieldMap O V :=
  match s.find? (v.finds o) with
  | some e => (e.fields k, s)
  | none => (none, s)

/-- A removal returns the value before. The entry stays. -/
def removeField (v : View O) (o : O) (k : String) (s : FieldMap O V) :
    Option V × FieldMap O V :=
  match s.find? (v.finds o) with
  | some e => (e.fields k, modifyFound v o (fun fields => Function.update fields k none) s)
  | none => (none, s)

/-- **`setAdditionalInstanceField`** -/
def setAdditionalInstanceField (v : View O) (obj : Option O) (key : Option String)
    (value : Option V) : FieldMap O V → Except NullPointer (Option V) × FieldMap O V :=
  checked obj key (setField v value)

/-- **`getAdditionalInstanceField`** -/
def getAdditionalInstanceField (v : View O) (obj : Option O) (key : Option String) :
    FieldMap O V → Except NullPointer (Option V) × FieldMap O V :=
  checked obj key (getField v)

/-- **`removeAdditionalInstanceField`** -/
def removeAdditionalInstanceField (v : View O) (obj : Option O) (key : Option String) :
    FieldMap O V → Except NullPointer (Option V) × FieldMap O V :=
  checked obj key (removeField v)

inductive FieldOp (V : Type) where
  | set (value : Option V)
  | get
  | remove

/-- A call, with the view during it. -/
structure FieldCall (O V : Type) where
  view : View O
  obj : Option O
  key : Option String
  op : FieldOp V

/-- **The calls**; the output of each is what it returns or throws. -/
def additionalFields : Machine (FieldMap O V) (FieldCall O V) (Except NullPointer (Option V)) :=
  fun s c =>
    let (answer, s) :=
      match c.op with
      | .set value => setAdditionalInstanceField c.view c.obj c.key value s
      | .get => getAdditionalInstanceField c.view c.obj c.key s
      | .remove => removeAdditionalInstanceField c.view c.obj c.key s
    (s, [answer])

/-- What a call does behind the checks. -/
def FieldCall.run (c : FieldCall O V) : O → String → FieldMap O V → Option V × FieldMap O V :=
  match c.op with
  | .set value => setField c.view value
  | .get => getField c.view
  | .remove => removeField c.view

theorem additionalFields_eq (s : FieldMap O V) (c : FieldCall O V) :
    additionalFields s c =
      ((checked c.obj c.key c.run s).2, [(checked c.obj c.key c.run s).1]) := by
  obtain ⟨v, obj, key, op⟩ := c
  cases op with
  | set value => rfl
  | get => rfl
  | remove => rfl

/-! ## Fields that belong to an object -/

section Owned

variable [DecidableEq O]

/-- **A call on fields by identity**: it returns what the object's own field was, and
a set or a removal changes this field alone. -/
def FieldCall.runOwned (c : FieldCall O V) (o : O) (k : String) (fields : O → String → Option V) :
    Option V × (O → String → Option V) :=
  match c.op with
  | .set value => (fields o k, Function.update fields o (Function.update (fields o) k value))
  | .get => (fields o k, fields)
  | .remove => (fields o k, Function.update fields o (Function.update (fields o) k none))

/-- **The fields of the objects** -/
def ownedFields :
    Machine (O → String → Option V) (FieldCall O V) (Except NullPointer (Option V)) :=
  fun fields c =>
    ((checked c.obj c.key c.runOwned fields).2, [(checked c.obj c.key c.runOwned fields).1])

/-- The map holds these fields: each object has one entry at most. -/
structure Holds (s : FieldMap O V) (fields : O → String → Option V) : Prop where
  once : s.Pairwise fun e e' => e.key ≠ e'.key
  entry : ∀ e ∈ s, fields e.key = e.fields
  absent : ∀ o, (∀ e ∈ s, e.key ≠ o) → fields o = fun _ => none

/-- **The call finds its own object**: the entry of this object if there is one, and
the entry of no other. A call without an object or a key throws before it looks. -/
def FindsOwn (s : FieldMap O V) (c : FieldCall O V) : Prop :=
  ∀ o k, c.obj = some o → c.key = some k → ∀ e ∈ s, c.view.finds o e = true ↔ e.key = o

omit [DecidableEq O] in
theorem holds_nil : Holds ([] : FieldMap O V) (fun _ _ => none) where
  once := List.Pairwise.nil
  entry := by simp
  absent := by simp

omit [DecidableEq O] in
/-- What is found are the object's fields. -/
theorem Holds.find {s : FieldMap O V} {fields : O → String → Option V} (h : Holds s fields)
    {v : View O} {o : O} (hown : ∀ e ∈ s, v.finds o e = true ↔ e.key = o) :
    (∃ e, s.find? (v.finds o) = some e ∧ (∃ e ∈ s, e.key = o) ∧ fields o = e.fields) ∨
      (s.find? (v.finds o) = none ∧ (∀ e ∈ s, e.key ≠ o) ∧ fields o = fun _ => none) := by
  cases hfind : s.find? (v.finds o) with
  | some e =>
    left
    have hmem := List.mem_of_find?_eq_some hfind
    have hkey : e.key = o := (hown e hmem).mp (List.find?_some hfind)
    exact ⟨e, rfl, ⟨e, hmem, hkey⟩, by rw [← hkey, h.entry e hmem]⟩
  | none =>
    right
    have hnone : ∀ e ∈ s, e.key ≠ o := by
      intro e he hkey
      exact List.find?_eq_none.mp hfind e he ((hown e he).mpr hkey)
    exact ⟨rfl, hnone, h.absent o hnone⟩

/-- A change to the entry that is found is one to the object's entry. -/
theorem modifyFound_eq_map {v : View O} {o : O} {s : FieldMap O V}
    (f : (String → Option V) → String → Option V) (honce : s.Pairwise fun e e' => e.key ≠ e'.key)
    (hown : ∀ e ∈ s, v.finds o e = true ↔ e.key = o) :
    modifyFound v o f s =
      s.map fun e => if e.key = o then { e with fields := f e.fields } else e := by
  induction s with
  | nil => rfl
  | cons e s ih =>
    rw [List.pairwise_cons] at honce
    rw [List.forall_mem_cons] at hown
    rw [modifyFound, List.map_cons]
    by_cases hkey : e.key = o
    · -- the entries behind it are those of other objects
      rw [if_pos (hown.1.mpr hkey), if_pos hkey]
      have hrest : ∀ e' ∈ s, e'.key ≠ o := fun e' he' heq => honce.1 e' he' (hkey.trans heq.symm)
      have hsame : s.map (fun e => if e.key = o then { e with fields := f e.fields } else e) = s :=
        (List.map_congr_left fun e' he' => if_neg (hrest e' he')).trans (List.map_id s)
      rw [hsame]
    · rw [if_neg (fun hfound => hkey (hown.1.mp hfound)), if_neg hkey, ih honce.2 hown.2]

/-- **A change to the entry that is found** is one to the object's fields. -/
theorem Holds.modify {s : FieldMap O V} {fields : O → String → Option V} (h : Holds s fields)
    {v : View O} {o : O} (hown : ∀ e ∈ s, v.finds o e = true ↔ e.key = o)
    (hthere : ∃ e ∈ s, e.key = o) (f : (String → Option V) → String → Option V) :
    Holds (modifyFound v o f s) (Function.update fields o (f (fields o))) := by
  rw [modifyFound_eq_map f h.once hown]
  have hkey : ∀ e : Entry O V,
      (if e.key = o then { e with fields := f e.fields } else e).key = e.key := by
    intro e
    split
    · rfl
    · rfl
  refine ⟨?_, ?_, ?_⟩
  · rw [List.pairwise_map]
    simp only [hkey]
    exact h.once
  · intro e' he'
    obtain ⟨e, he, rfl⟩ := List.mem_map.mp he'
    rw [hkey]
    by_cases heq : e.key = o
    · rw [if_pos heq, heq, Function.update_self, ← heq, h.entry e he]
    · rw [if_neg heq, Function.update_of_ne heq, h.entry e he]
  · intro o' hnone
    have hbefore : ∀ e ∈ s, e.key ≠ o' := by
      intro e he heq
      exact hnone _ (List.mem_map_of_mem he) ((hkey e).trans heq)
    obtain ⟨e, he, rfl⟩ := hthere
    rw [Function.update_of_ne (hbefore e he).symm, h.absent o' hbefore]

/-- A new entry for an object that has none. -/
theorem Holds.put {s : FieldMap O V} {fields : O → String → Option V} (h : Holds s fields)
    {o : O} (hnone : ∀ e ∈ s, e.key ≠ o) (hash : ℕ) (own : String → Option V) :
    Holds (⟨hash, o, own⟩ :: s) (Function.update fields o own) := by
  refine ⟨?_, ?_, ?_⟩
  · exact List.pairwise_cons.mpr ⟨fun e he heq => hnone e he heq.symm, h.once⟩
  · intro e he
    rcases List.mem_cons.mp he with rfl | he
    · exact Function.update_self o own fields
    · rw [Function.update_of_ne (hnone e he), h.entry e he]
  · intro o' hother
    rw [List.forall_mem_cons] at hother
    rw [Function.update_of_ne (Ne.symm hother.1), h.absent o' hother.2]

omit [DecidableEq O] in
/-- The checks pass on what the call returns and keeps. -/
theorem checked_related {S T : Type} {R : S → T → Prop} {obj : Option O} {key : Option String}
    {f : O → String → S → Option V × S} {g : O → String → T → Option V × T} {s : S} {t : T}
    (h : R s t)
    (hcall : ∀ o k, obj = some o → key = some k →
      (f o k s).1 = (g o k t).1 ∧ R (f o k s).2 (g o k t).2) :
    (checked obj key f s).1 = (checked obj key g t).1 ∧
      R (checked obj key f s).2 (checked obj key g t).2 := by
  cases obj with
  | none => exact ⟨rfl, h⟩
  | some o =>
    cases key with
    | none => exact ⟨rfl, h⟩
    | some k =>
      obtain ⟨hanswer, hstate⟩ := hcall o k rfl rfl
      exact ⟨congrArg Except.ok hanswer, hstate⟩

/-- A call on an object that is found as its own. -/
theorem Holds.run {s : FieldMap O V} {fields : O → String → Option V} (h : Holds s fields)
    (c : FieldCall O V) {o : O} (hown : ∀ e ∈ s, c.view.finds o e = true ↔ e.key = o) (k : String) :
    (c.run o k s).1 = (c.runOwned o k fields).1 ∧
      Holds (c.run o k s).2 (c.runOwned o k fields).2 := by
  obtain ⟨v, obj, key, op⟩ := c
  rcases h.find hown with ⟨e, hfind, hthere, heq⟩ | ⟨hfind, hnone, heq⟩
  · cases op with
    | set value =>
      simp only [FieldCall.run, FieldCall.runOwned, setField, hfind]
      exact ⟨by rw [heq], h.modify hown hthere _⟩
    | get =>
      simp only [FieldCall.run, FieldCall.runOwned, getField, hfind]
      exact ⟨by rw [heq], h⟩
    | remove =>
      simp only [FieldCall.run, FieldCall.runOwned, removeField, hfind]
      exact ⟨by rw [heq], h.modify hown hthere _⟩
  · cases op with
    | set value =>
      simp only [FieldCall.run, FieldCall.runOwned, setField, hfind]
      refine ⟨by rw [heq], ?_⟩
      rw [heq]
      exact h.put hnone (v.hashCode o) (Function.update (fun _ => none) k value)
    | get =>
      simp only [FieldCall.run, FieldCall.runOwned, getField, hfind]
      exact ⟨by rw [heq], h⟩
    | remove =>
      -- there is nothing to remove, with or without an entry
      have hsame : Function.update (fields o) k none = fields o := by
        rw [Function.update_eq_self_iff, heq]
      simp only [FieldCall.run, FieldCall.runOwned, removeField, hfind, hsame,
        Function.update_eq_self]
      exact ⟨by rw [heq], h⟩

theorem Holds.step {s : FieldMap O V} {fields : O → String → Option V} (h : Holds s fields)
    {c : FieldCall O V} (hown : FindsOwn s c) :
    (additionalFields s c).2 = (ownedFields fields c).2 ∧
      Holds (additionalFields s c).1 (ownedFields fields c).1 := by
  obtain ⟨hanswer, hstate⟩ :=
    checked_related h fun o k ho hk => h.run c (hown o k ho hk) k
  rw [additionalFields_eq]
  exact ⟨congrArg (fun answer => [answer]) hanswer, hstate⟩

/-- **The calls answer by identity** as long as each finds its own object. -/
theorem outputs_eq_owned {s : FieldMap O V} {fields : O → String → Option V} (h : Holds s fields)
    {cs : List (FieldCall O V)} (hcs : additionalFields.Along FindsOwn s cs) :
    additionalFields.outputs s cs = ownedFields.outputs fields cs := by
  induction cs generalizing s fields with
  | nil => rfl
  | cons c cs ih =>
    obtain ⟨hanswer, hstate⟩ := h.step hcs.1
    rw [Machine.outputs_cons, Machine.outputs_cons, hanswer, ih hstate hcs.2]

/-- **Additional fields belong to one object** in every run in which each call finds
its own: it returns or throws what it would if objects were told apart by
identity. -/
theorem fields_owned {cs : List (FieldCall O V)} (hcs : additionalFields.Along FindsOwn [] cs) :
    additionalFields.outputs ([] : FieldMap O V) cs = ownedFields.outputs (fun _ _ => none) cs :=
  outputs_eq_owned holds_nil hcs

end Owned

/-- Objects that are all equal, as two texts with the same letters are. -/
def sameText : View Bool where
  hashCode _ := 0
  equals _ _ := true
  near h h' := h == h'

/-- Objects that are equal to themselves, with a hash of this state. -/
def ofState (state : ℕ) : View Bool where
  hashCode _ := state
  equals o o' := o == o'
  near h h' := h == h'

/-- A field of the first object is set; then the field of the object `o` is asked for. -/
def setThenGet (v v' : View Bool) (o : Bool) : List (FieldCall Bool ℕ) :=
  [⟨v, some false, some "k", .set (some 1)⟩, ⟨v', some o, some "k", .get⟩]

/-- **Equal objects share a field, and an object that changes loses it.** -/
theorem equal_objects_share :
    additionalFields.outputs [] (setThenGet sameText sameText true) =
        [.ok none, .ok (some 1)] ∧
      ownedFields.outputs (fun _ _ => none) (setThenGet sameText sameText true) =
        [.ok none, .ok none] ∧
      additionalFields.outputs [] (setThenGet (ofState 1) (ofState 2) false) =
        [.ok none, .ok none] ∧
      ownedFields.outputs (fun _ _ => none) (setThenGet (ofState 1) (ofState 2) false) =
        [.ok none, .ok (some 1)] := by
  refine ⟨rfl, rfl, rfl, rfl⟩

/-- Two objects that do not change. -/
def steadyCalls : List (FieldCall Bool ℕ) :=
  [⟨ofState 1, some false, some "k", .set (some 1)⟩, ⟨ofState 1, some true, some "k", .get⟩,
    ⟨ofState 1, some false, some "k", .get⟩]

theorem steady_objects_owned :
    additionalFields.outputs [] steadyCalls =
      ownedFields.outputs (fun _ _ => none) steadyCalls := by
  have hfirst : FindsOwn ([] : FieldMap Bool ℕ)
      ⟨ofState 1, some false, some "k", .set (some 1)⟩ := by
    intro o k _ _ e he
    simp at he
  have hlater : ∀ o : Bool, FindsOwn
      (additionalFields ([] : FieldMap Bool ℕ) ⟨ofState 1, some false, some "k", .set (some 1)⟩).1
      ⟨ofState 1, some o, some "k", .get⟩ := by
    rintro o o' k ⟨⟩ _ e he
    obtain rfl := List.mem_singleton.mp he
    cases o with
    | false => exact iff_of_true rfl rfl
    | true => exact iff_of_false (by decide) (by decide)
  have hcs : additionalFields.Along FindsOwn [] steadyCalls :=
    ⟨hfirst, hlater true, hlater false, trivial⟩
  exact fields_owned hcs

end Helpers

end Dynamicloader
