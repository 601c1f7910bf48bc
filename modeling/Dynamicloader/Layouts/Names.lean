import Mathlib.Data.List.Induction
import Dynamicloader.Layouts.Unhook
/-!
# The names a layout callback is given

A hook records the names of its layout under the directory it is for, and
`getLayout` looks them up under the directory of the app. The callbacks it
looks up under `null` too, but not the names: an app that is reached by a hook
for all directories has none, unless the layout is hooked for the app as well.

And where there are names, `getResourceNames` has put the type for the name
and the name for the type. The record is right for a layout whose entry has
the name of its type.
-/

namespace Dynamicloader

namespace Layouts

open Resources (JInt Throwable Res isSystemId)
open Bridge (ArraySort CopyOnWriteSortedSet)

variable {Cb : Type}

/-! ## Full names -/

/-- `pkg:type/entry` -/
def Names.fullName (names : Names) : String :=
  names.packageName ++ ":" ++ names.typeName ++ "/" ++ names.entryName

/-- What the resources of a directory say of an id. -/
abbrev Naming := Option String → JInt → Names

/-- A hook by name: what is thrown if there is no such id, or else what the
hook throws. -/
inductive HookThrowable where
  | notFoundException (name : String)
  | thrown (e : Throwable)

/-- A hook by name looks the id up and hooks it. -/
def hookIdentifier {α : Type} (id : JInt) (name : String) (hook : JInt → Except Throwable α) :
    Except HookThrowable α :=
  if id = 0 then throw (.notFoundException name) else (hook id).mapError .thrown

theorem hookIdentifier_eq {α : Type} {id : JInt} (hid : id ≠ 0) (name : String)
    (hook : JInt → Except Throwable α) :
    hookIdentifier id name hook = (hook id).mapError .thrown := if_neg hid

section ByName

variable [DecidableEq Cb] (S : ArraySort Cb) (naming : Naming)

/-- `hookLayout(String fullName, ...)` -/
def hookLayoutFullName (getIdentifier : String → JInt) (this : Res) (fullName : String)
    (callback : Cb) (s : State Cb) : Except HookThrowable (Unhook Cb × State Cb) :=
  hookIdentifier (getIdentifier fullName) fullName fun id =>
    hookLayout S this id (naming this.mResDir id) callback s

end ByName

/-! ## What is recorded -/

/-- The call hooks the layout for the directory. -/
def Event.Hooks (resDir : Option String) (id : JInt) : Event Cb → Prop
  | .hookLayout this id' _ _ => this.mResDir = resDir ∧ id' = id ∧ id ≠ 0
  | .hookSystemWideLayout id' _ _ => resDir = none ∧ id' = id ∧ id ≠ 0 ∧ isSystemId id = true
  | .unhook _ => False

instance (resDir : Option String) (id : JInt) (e : Event Cb) : Decidable (e.Hooks resDir id) :=
  match e with
  | .hookLayout .. => inferInstanceAs (Decidable (_ ∧ _ ∧ _))
  | .hookSystemWideLayout .. => inferInstanceAs (Decidable (_ ∧ _ ∧ _ ∧ _))
  | .unhook _ => .isFalse not_false

/-- The call is given the names that the resources say. -/
def Event.Told (naming : Naming) : Event Cb → Prop
  | .hookLayout this id names _ => names = naming this.mResDir id
  | .hookSystemWideLayout id names _ => names = naming none id
  | .unhook _ => True

section Recorded

variable [DecidableEq Cb] {S : ArraySort Cb} {naming : Naming}

theorem hookLayoutInternal_names {resDir : Option String} {id : JInt} {names : Names} {cb : Cb}
    {s : State Cb} (resDir' : Option String) (id' : JInt) :
    (((hookLayoutInternal S resDir id (getResourceNames id names) cb s).toOption.map (·.2)).getD
        s).sResourceNames.get id' resDir' =
      if id ≠ 0 ∧ id' = id ∧ resDir' = resDir then some (getResourceNames id names)
      else s.sResourceNames.get id' resDir' := by
  rw [hookLayoutInternal]
  by_cases hid : id = 0
  · rw [if_pos hid, if_neg fun h => h.1 hid]
    rfl
  · rw [if_neg hid]
    refine (Nested.get_put ..).trans ?_
    simp only [hid, ne_eq, not_false_eq_true, true_and]
    rfl

/-- **A call records the names** of the layout for the directory it hooks it
for, and no others. -/
theorem step_names (s : State Cb) {e : Event Cb} (he : e.Told naming) (resDir : Option String)
    (id : JInt) :
    (step S s e).1.sResourceNames.get id resDir =
      if e.Hooks resDir id then some (getResourceNames id (naming resDir id))
      else s.sResourceNames.get id resDir := by
  cases e with
  | hookLayout this id' names cb =>
    obtain rfl : names = naming this.mResDir id' := he
    refine (hookLayoutInternal_names resDir id).trans ?_
    by_cases hhooks : (Event.hookLayout this id' (naming this.mResDir id') cb).Hooks resDir id
    · obtain ⟨rfl, rfl, hid⟩ := hhooks
      rw [if_pos ⟨hid, rfl, rfl⟩, if_pos ⟨rfl, rfl, hid⟩]
    · rw [if_neg hhooks, if_neg]
      rintro ⟨hid, rfl, rfl⟩
      exact hhooks ⟨rfl, rfl, hid⟩
  | hookSystemWideLayout id' names cb =>
    obtain rfl : names = naming none id' := he
    show ((((hookSystemWideLayout S id' (naming none id') cb s).toOption.map (·.2)).getD
      s).sResourceNames.get id resDir) = _
    rw [hookSystemWideLayout]
    by_cases hsystem : isSystemId id' = false
    · rw [if_pos hsystem, if_neg]
      · rfl
      · rintro ⟨-, rfl, -, htrue⟩
        rw [hsystem] at htrue
        cases htrue
    · rw [if_neg hsystem, hookLayoutInternal_names]
      by_cases hhooks : (Event.hookSystemWideLayout id' (naming none id') cb).Hooks resDir id
      · rw [if_pos hhooks]
        obtain ⟨rfl, rfl, hid, -⟩ := hhooks
        rw [if_pos ⟨hid, rfl, rfl⟩]
      · rw [if_neg hhooks, if_neg]
        rintro ⟨hid, rfl, rfl⟩
        exact hhooks ⟨rfl, rfl, hid, Bool.not_eq_false _ ▸ hsystem⟩
  | unhook u =>
    rw [if_neg (show ¬ (Event.unhook u).Hooks resDir id from not_false)]
    show (u.unhook s).sResourceNames.get id resDir = _
    rw [Unhook.unhook, unhookLayout]
    split
    · rfl
    · rfl

/-- **What is recorded after any calls**: the names of the layouts that were
hooked, under the directory of the hook. -/
theorem run_names {es : List (Event Cb)} (hes : ∀ e ∈ es, e.Told naming)
    (resDir : Option String) (id : JInt) :
    (Machine.run (step S) {} es).sResourceNames.get id resDir =
      if ∃ e ∈ es, e.Hooks resDir id then some (getResourceNames id (naming resDir id))
      else none := by
  induction es using List.reverseRecOn with
  | nil =>
    rw [if_neg (by simp)]
    rfl
  | append_singleton es e ih =>
    have hlast := hes e (by simp)
    have ih := ih fun e' he' => hes e' (by simp [he'])
    rw [Machine.run_append, Machine.run_cons, Machine.run_nil, step_names _ hlast, ih]
    simp only [List.mem_append, List.mem_singleton, or_and_right, exists_or, exists_eq_left]
    by_cases hhooks : e.Hooks resDir id
    · rw [if_pos hhooks, if_pos (.inr hhooks)]
    · simp only [hhooks, if_false, or_false]

end Recorded

/-! ## What a callback is given -/

/-- **The right names**: those of the id, with a full name by which its layout
can be hooked again. -/
structure RightNames [DecidableEq Cb] (S : ArraySort Cb) (naming : Naming)
    (getIdentifier : String → JInt) (this : Res) (id : JInt) (n : ResourceNames) : Prop where
  id_eq : n.id = id
  name : n.name = (naming this.mResDir id).entryName
  type : n.type = (naming this.mResDir id).typeName
  fullName : n.fullName = (naming this.mResDir id).fullName
  round_trip : ∀ callback s, hookLayoutFullName S naming getIdentifier this n.fullName callback s =
    (hookLayout S this id (naming this.mResDir id) callback s).mapError .thrown

theorem Event.Hooks.ne_zero {resDir : Option String} {id : JInt} {e : Event Cb}
    (h : e.Hooks resDir id) : id ≠ 0 := by
  cases e with
  | hookLayout this id' names cb => exact h.2.2
  | hookSystemWideLayout id' names cb => exact h.2.2.1
  | unhook u => exact h.elim

/-- The names that `getLayout` attaches are those under the directory. -/
theorem getLayout_resNames {this : Res} {id : JInt} {value : Option String} {s : State Cb}
    {details : XMLInstanceDetails Cb} (h : getLayout this id value s = some details) :
    details.resNames = s.sResourceNames.get id this.mResDir := by
  rw [getLayout] at h
  cases hinner : s.sLayoutCallbacks id with
  | none =>
    rw [hinner] at h
    cases h
  | some inner =>
    rw [hinner] at h
    dsimp only at h
    -- whichever set it is, the names are looked up behind it
    split at h
    · cases h
    · rw [Nested.get]
      cases hnames : s.sResourceNames id with
      | none =>
        simp only [hnames] at h
        cases h
      | some resNamesInner =>
        simp only [hnames] at h
        obtain rfl := Option.some.inj h
        rfl

/-- **When a callback is given the right names**: if its layout is hooked for
the directory of the app, and the entry has the name of its type. -/
theorem rightNames_iff [DecidableEq Cb] (S : ArraySort Cb) (naming : Naming)
    (es : List (Event Cb)) (hes : ∀ e ∈ es, e.Told naming) (this : Res) (id : JInt)
    (value : Option String) (details : XMLInstanceDetails Cb)
    (h : getLayout this id value (Machine.run (step S) {} es) = some details)
    (getIdentifier : String → JInt)
    (hid : getIdentifier (naming this.mResDir id).fullName = id) :
    (∃ n, details.resNames = some n ∧ RightNames S naming getIdentifier this id n) ↔
      (∃ e ∈ es, e.Hooks this.mResDir id) ∧
        (naming this.mResDir id).typeName = (naming this.mResDir id).entryName := by
  rw [getLayout_resNames h, run_names hes]
  constructor
  · rintro ⟨n, hn, hright⟩
    split at hn
    case isTrue hhooks =>
      obtain rfl := Option.some.inj hn
      exact ⟨hhooks, hright.name⟩
    case isFalse => cases hn
  · rintro ⟨hhooks, heq⟩
    have hfull : (getResourceNames id (naming this.mResDir id)).fullName =
        (naming this.mResDir id).fullName := by
      show _ ++ ":" ++ _ ++ "/" ++ _ = _ ++ ":" ++ _ ++ "/" ++ _
      rw [heq]
    refine ⟨_, if_pos hhooks, rfl, heq, heq.symm, hfull, fun callback s => ?_⟩
    obtain ⟨e, -, hhooks⟩ := hhooks
    rw [hookLayoutFullName, hfull, hid, hookIdentifier_eq hhooks.ne_zero]

/-- An app's own layout and a layout of the framework, as the app sees them. -/
def appNaming : Naming := fun _ id =>
  if id = 0x7f030001 then ⟨"com.app", "layout", "main"⟩
  else ⟨"android", "layout", "simple_list_item_1"⟩

/-- A sort for what is not more than one. -/
def keepSort : ArraySort ℕ := ⟨id, fun l => .refl l⟩

/-- The callback of an app's own layout is told that its name is `layout`, and
that of a hook for all directories is told nothing. Neither is given the right
names, whatever ids the names stand for. -/
theorem callbacks_misnamed :
    let app : Res := { mResDir := some "base.apk", mIsObjectInited := true }
    let s := Machine.run (step keepSort) ({} : State ℕ)
      [.hookLayout app 0x7f030001 (appNaming app.mResDir 0x7f030001) 1,
        .hookSystemWideLayout 0x01090003 (appNaming none 0x01090003) 2]
    (∃ details, getLayout app 0x7f030001 none s = some details ∧
      details.resNames = some
        { id := 0x7f030001, pkg := "com.app", name := "layout", type := "main"
          fullName := "com.app:main/layout" } ∧
      ∀ getIdentifier, ¬ ∃ n, details.resNames = some n ∧
        RightNames keepSort appNaming getIdentifier app 0x7f030001 n) ∧
    (∃ details, getLayout app 0x01090003 none s = some details ∧ details.callbacks = [2] ∧
      details.resNames = none ∧
      ∀ getIdentifier, ¬ ∃ n, details.resNames = some n ∧
        RightNames keepSort appNaming getIdentifier app 0x01090003 n) := by
  intro app s
  refine ⟨⟨_, rfl, by decide, ?_⟩, _, rfl, rfl, rfl, ?_⟩
  · rintro getIdentifier ⟨n, hn, hright⟩
    obtain rfl := Option.some.inj hn
    exact absurd hright.name (by decide)
  · rintro getIdentifier ⟨n, hn, -⟩
    cases hn

/-- A layout with the name `layout`. -/
theorem rightNames_layout :
    let app : Res := { mResDir := some "base.apk", mIsObjectInited := true }
    let naming : Naming := fun _ _ => ⟨"com.app", "layout", "layout"⟩
    let s := Machine.run (step keepSort) ({} : State ℕ)
      [.hookLayout app 0x7f030001 ⟨"com.app", "layout", "layout"⟩ 1]
    ∃ details, getLayout app 0x7f030001 none s = some details ∧
      ∃ n, details.resNames = some n ∧
        RightNames keepSort naming (fun _ => 0x7f030001) app 0x7f030001 n := by
  intro app naming s
  have hes : ∀ e ∈ [Event.hookLayout app 0x7f030001 ⟨"com.app", "layout", "layout"⟩ 1],
      e.Told naming := by
    intro e he
    rw [List.mem_singleton.mp he]
    rfl
  have hhooks : ∃ e ∈ [Event.hookLayout app 0x7f030001 ⟨"com.app", "layout", "layout"⟩ 1],
      e.Hooks app.mResDir 0x7f030001 :=
    ⟨_, List.mem_singleton_self _, rfl, rfl, by decide⟩
  exact ⟨_, rfl, (rightNames_iff keepSort naming _ hes app 0x7f030001 none _ rfl
    (fun _ => 0x7f030001) rfl).mpr ⟨hhooks, rfl⟩⟩

end Layouts

end Dynamicloader
