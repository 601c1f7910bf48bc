import Dynamicloader.Safemode.Model
/-!
# Safemode — one key only

Safe mode is for five presses of one key. In the second wait another key ends
the detection. In the first one it does not: all events of a poll are read,
and the last key pressed is the one that counts. The comment there says that
several presses cannot be reported at once, which holds of one device, and a
poll is over several.

`oneKey_iff`: a detection that succeeds has seen one key only if and only if a
key was held from the start, or the poll with the first press has no press of
another key.
-/

namespace Dynamicloader

namespace Safemode

open Prog

/-- The calls of a run with their answers. -/
abbrev Trace := List (Exchange Op Op.Ans)

/-- The physical keys found held. -/
def heldOf : Exchange Op Op.Ans → List UInt16
  | ⟨.heldBits _, keyBitmask⟩ => physicalKeycodes.filter (testBit · keyBitmask)
  | _ => []

/-- The press that was read. -/
def pressOf : Exchange Op Op.Ans → Option UInt16
  | ⟨.read _, evt⟩ => Option.bind evt InputEvent.press
  | _ => none

def held (xs : Trace) : List UInt16 := xs.flatMap heldOf

def presses (xs : Trace) : List UInt16 := xs.filterMap pressOf

/-- **One key only**: the keys held at the start and all presses read are presses
of one key, as many as are needed. -/
def OneKey (xs : Trace) : Prop :=
  ∃ key n, detectionPresses ≤ n ∧ held xs ++ presses xs = List.replicate n key

/-- The presses of the first poll with one; `batch` are those read since the last
poll. -/
def firstBatch : List UInt16 → Trace → List UInt16
  | batch, [] => batch
  | batch, ⟨.epollWait .., _⟩ :: xs => if batch = [] then firstBatch [] xs else batch
  | batch, x :: xs => firstBatch (batch ++ (pressOf x).toList) xs

/-! ## Traces -/

/-- The call asks for no key. -/
def Op.Idle : Op → Prop
  | .heldBits _ => False
  | .epollWait .. => False
  | .read _ => False
  | _ => True

/-- The call is no poll. -/
def Op.NoPoll : Op → Prop
  | .epollWait .. => False
  | _ => True

theorem Op.Idle.noPoll {op : Op} (h : op.Idle) : op.NoPoll := by
  cases op <;> trivial

theorem held_append (xs ys : Trace) : held (xs ++ ys) = held xs ++ held ys :=
  List.flatMap_append

theorem presses_append (xs ys : Trace) : presses (xs ++ ys) = presses xs ++ presses ys :=
  List.filterMap_append

theorem presses_cons (x : Exchange Op Op.Ans) (xs : Trace) :
    presses (x :: xs) = (pressOf x).toList ++ presses xs := by
  cases hpress : pressOf x with
  | none => exact List.filterMap_cons_none hpress
  | some code => exact List.filterMap_cons_some hpress

theorem firstBatch_cons {x : Exchange Op Op.Ans} (hx : x.1.NoPoll) (batch : List UInt16)
    (xs : Trace) :
    firstBatch batch (x :: xs) = firstBatch (batch ++ (pressOf x).toList) xs := by
  obtain ⟨op, a⟩ := x
  cases op <;> first | rfl | exact hx.elim

/-- Without a poll the batch grows. -/
theorem firstBatch_append {xs : Trace} (hxs : ∀ x ∈ xs, x.1.NoPoll) (batch : List UInt16)
    (ys : Trace) : firstBatch batch (xs ++ ys) = firstBatch (batch ++ presses xs) ys := by
  induction xs generalizing batch with
  | nil => simp [presses]
  | cons x xs ih =>
    rw [List.forall_mem_cons] at hxs
    rw [List.cons_append, firstBatch_cons hxs.1, ih hxs.2, presses_cons, List.append_assoc]

section Idle

variable {xs : Trace} (h : ∀ x ∈ xs, x.1.Idle)

include h

theorem held_of_idle : held xs = [] := by
  refine List.flatMap_eq_nil_iff.mpr fun x hx => ?_
  have hidle := h x hx
  obtain ⟨op, a⟩ := x
  cases op <;> first | rfl | exact hidle.elim

theorem presses_of_idle : presses xs = [] := by
  refine List.filterMap_eq_nil_iff.mpr fun x hx => ?_
  have hidle := h x hx
  obtain ⟨op, a⟩ := x
  cases op <;> first | rfl | exact hidle.elim

theorem firstBatch_of_idle (batch : List UInt16) (ys : Trace) :
    firstBatch batch (xs ++ ys) = firstBatch batch ys := by
  rw [firstBatch_append fun x hx => (h x hx).noPoll, presses_of_idle h, List.append_nil]

end Idle

/-! ## What the parts do -/

variable {A : (op : Op) → op.Ans → Prop}

theorem spec_idle (op : Op) (hop : op.Idle) : Spec A Op.Idle (fun _ => True) (ask op) :=
  ⟨hop, fun _ _ => trivial⟩

theorem spec_getRemainingTime (expiration : Timespec) :
    Spec A Op.Idle (fun _ => True) (getRemainingTime expiration) := by
  refine spec_bind (spec_idle _ trivial) fun now _ => ?_
  split
  · exact spec_pure trivial
  · exact spec_pure trivial

theorem spec_expirationIn (seconds : ℤ) :
    Spec A Op.Idle (fun _ => True) (expirationIn seconds) :=
  spec_bind (spec_idle _ trivial) fun _ _ => spec_pure trivial

theorem spec_closeAll (fds : List Fd) : Spec A Op.Idle (fun _ => True) (closeAll fds) := by
  induction fds with
  | nil => exact spec_pure trivial
  | cons fd fds ih => exact spec_bind (spec_idle _ trivial) fun _ _ => ih

theorem spec_registerDevices (efd : Fd) (fds : List Fd) :
    Spec A Op.Idle (Outcome (fun _ => True) fun _ => True) (registerDevices efd fds).run := by
  induction fds with
  | nil => exact spec_pure trivial
  | cons fd fds ih =>
    refine spec_bind_except (spec_lift (spec_idle _ trivial)) fun ok _ => ?_
    split
    · exact ih
    · exact spec_pure trivial

/-- What an idle part asks. -/
theorem idle_of_makes {α : Type} {c : Io α} {R : α → Prop}
    (h : Spec (fun _ _ => True) Op.Idle R c) {xs : Trace} {a : α} (hxs : c.Makes xs a) :
    ∀ x ∈ xs, x.1.Idle :=
  (h.makes hxs fun _ _ => trivial).1

/-! ### The key held -/

/-- What `openKeyDevices` reports for the keys it has found held. -/
def reported : List UInt16 → ℤ
  | [] => 0
  | [code] => code.toNat
  | _ => -1

theorem toNat_ne_zero {code : UInt16} (h : code ∈ physicalKeycodes) : (code.toNat : ℤ) ≠ 0 := by
  intro hzero
  obtain rfl : code = 0 := UInt16.toNat_inj.mp (Int.ofNat_inj.mp hzero)
  exact absurd h (by decide)

/-- Behind the first key there is no way back from -1. -/
theorem heldKey_eq (keyBitmask : KeyBitmask) {codes : List UInt16}
    (hcodes : ∀ c ∈ codes, c ∈ physicalKeycodes) {keys : List UInt16}
    (hkeys : ∀ c ∈ keys, c ∈ physicalKeycodes) :
    heldKey keyBitmask codes (reported keys) =
      reported (keys ++ codes.filter (testBit · keyBitmask)) := by
  induction codes generalizing keys with
  | nil => simp [heldKey]
  | cons code codes ih =>
    rw [List.forall_mem_cons] at hcodes
    rw [heldKey]
    by_cases hbit : testBit code keyBitmask = true
    · rw [if_pos hbit, List.filter_cons, if_pos hbit]
      match keys, hkeys with
      | [], _ =>
        have hone : ∀ c ∈ [code], c ∈ physicalKeycodes := by simpa using hcodes.1
        rw [if_pos (show reported [] = 0 from rfl), List.nil_append]
        exact ih hcodes.2 hone
      | [key], hkeys =>
        have hne : ¬ reported [key] = 0 := toNat_ne_zero (hkeys key (by simp))
        rw [if_neg hne]
        rfl
      | k₁ :: k₂ :: keys, _ => rfl
    · rw [if_neg hbit, List.filter_cons, if_neg hbit]
      exact ih hcodes.2 hkeys

theorem mem_physicalKeycodes_of_mem_held {xs : Trace} {code : UInt16} (h : code ∈ held xs) :
    code ∈ physicalKeycodes := by
  obtain ⟨⟨op, a⟩, -, hx⟩ := List.mem_flatMap.mp h
  cases op with
  | heldBits fd => exact (List.mem_filter.mp hx).1
  | _ => cases hx

/-- A device that is left out. -/
theorem held_idle_append {xs : Trace} (h : ∀ x ∈ xs, x.1.Idle) (before ys : Trace) :
    held (before ++ (xs ++ ys)) = held (before ++ ys) := by
  rw [held_append, held_append, held_append, held_of_idle h, List.nil_append]

/-- **`openKeyDevices` reports the keys held**, and neither polls nor reads. -/
theorem openDevices_held (names : List (List UInt8)) :
    ∀ {fds : List Fd} {before xs : Trace} {r : List Fd × ℤ},
      (openDevices names fds (reported (held before))).Makes xs r →
        r.2 = reported (held (before ++ xs)) ∧ presses xs = [] ∧ ∀ x ∈ xs, x.1.NoPoll := by
  induction names with
  | nil =>
    rintro fds before xs r ⟨rfl, rfl⟩
    simp [presses]
  | cons name names ih =>
    intro fds before xs r h
    rw [openDevices] at h
    split at h
    · obtain ⟨rfl, rfl⟩ := h
      simp [presses]
    split at h
    · exact ih h
    -- exchanges in which no key is asked for change nothing
    have hskip : ∀ {fds : List Fd} {ys zs : Trace}, (∀ x ∈ ys, x.1.Idle) →
        (openDevices names fds (reported (held before))).Makes zs r →
          r.2 = reported (held (before ++ (ys ++ zs))) ∧ presses (ys ++ zs) = [] ∧
            ∀ x ∈ ys ++ zs, x.1.NoPoll := by
      intro fds ys zs hys hzs
      obtain ⟨hr, hpresses, hpoll⟩ := ih hzs
      rw [held_idle_append hys, presses_append, presses_of_idle hys, hpresses]
      refine ⟨hr, rfl, List.forall_mem_append.mpr ⟨fun x hx => (hys x hx).noPoll, hpoll⟩⟩
    obtain ⟨opened, ys, rfl, hopened⟩ := makes_call_bind h
    cases opened with
    | none =>
      have hidle : ∀ x ∈ ([⟨.openDevice name, none⟩] : Trace), x.1.Idle := by simp [Op.Idle]
      exact hskip hidle hopened
    | some fd =>
      obtain ⟨keys, zs, rfl, hkeys⟩ := makes_call_bind hopened
      split at hkeys
      · obtain ⟨bits, ws, rfl, hbits⟩ := makes_call_bind hkeys
        -- the keys held on this device come behind those before it
        have hbefore : held (before ++ [⟨.heldBits fd, bits⟩]) =
            held before ++ physicalKeycodes.filter (testBit · bits) := by
          rw [held_append]
          simp [held, heldOf]
        rw [heldKey_eq bits (fun _ => id) fun _ => mem_physicalKeycodes_of_mem_held, ← hbefore]
          at hbits
        obtain ⟨hr, hpresses, hpoll⟩ := ih hbits
        refine ⟨?_, hpresses, ?_⟩
        · rw [hr, List.append_assoc]
          refine congrArg reported ?_
          rw [held_append, held_append before]
          rfl
        · refine List.forall_mem_cons.mpr ⟨trivial, List.forall_mem_cons.mpr ⟨trivial, ?_⟩⟩
          exact List.forall_mem_cons.mpr ⟨trivial, hpoll⟩
      · obtain ⟨u, ws, rfl, hclosed⟩ := makes_call_bind hkeys
        have hidle : ∀ x ∈ ([⟨.openDevice name, some fd⟩, ⟨.keyBits fd, keys⟩, ⟨.close fd, u⟩] :
            Trace), x.1.Idle := by simp [Op.Idle]
        exact hskip hidle hclosed

/-- The same, of all of `openKeyDevices`. -/
theorem openKeyDevices_held {xs : Trace} {r : List Fd × ℤ} (h : openKeyDevices.Makes xs r) :
    r.2 = reported (held xs) ∧ presses xs = [] ∧ ∀ x ∈ xs, x.1.NoPoll := by
  obtain ⟨names, ys, rfl, hnames⟩ := makes_call_bind h
  cases names with
  | none =>
    obtain ⟨rfl, rfl⟩ := hnames
    exact ⟨rfl, rfl, by simp [Op.NoPoll]⟩
  | some names =>
    have hopen : (openDevices names [] (reported (held []))).Makes ys r := hnames
    obtain ⟨hr, hpresses, hpoll⟩ := openDevices_held names hopen
    exact ⟨hr, hpresses, List.forall_mem_cons.mpr ⟨trivial, hpoll⟩⟩

/-! ### One poll -/

/-- The key pressed last, or the one before. -/
def lastKey : ℤ → List UInt16 → ℤ
  | pressedKey, [] => pressedKey
  | _, code :: codes => lastKey code.toNat codes

theorem mem_of_press {evt : InputEvent} {code : UInt16} (h : evt.press = some code) :
    code ∈ physicalKeycodes := by
  unfold InputEvent.press at h
  split at h
  · cases h
  split at h
  · cases h
  exact List.mem_of_find?_eq_some h

theorem mem_of_mem_presses {xs : Trace} {code : UInt16} (h : code ∈ presses xs) :
    code ∈ physicalKeycodes := by
  obtain ⟨⟨op, a⟩, -, hx⟩ := List.mem_filterMap.mp h
  cases op with
  | read fd =>
    obtain ⟨evt, -, hevt⟩ := Option.bind_eq_some_iff.mp hx
    exact mem_of_press hevt
  | _ => cases hx

/-- An event that was read, with the press it is. -/
theorem makes_readPress_bind {α : Type} {fd : Fd} {k : Option UInt16 → Io α} {xs : Trace} {a : α}
    (h : (readPress fd >>= k).Makes xs a) :
    ∃ evt ys, xs = ⟨.read fd, evt⟩ :: ys ∧ (k (pressOf ⟨.read fd, evt⟩)).Makes ys a := h

/-- **In the first wait the last press of a poll counts.** -/
theorem initialEvents_presses (fds : List Fd) :
    ∀ {pressedKey key : ℤ} {xs : Trace}, (initialEvents fds pressedKey).Makes xs key →
      key = lastKey pressedKey (presses xs) ∧ held xs = [] ∧ ∀ x ∈ xs, x.1.NoPoll := by
  induction fds with
  | nil =>
    rintro pressedKey key xs ⟨rfl, rfl⟩
    exact ⟨rfl, rfl, by simp⟩
  | cons fd fds ih =>
    intro pressedKey key xs h
    obtain ⟨evt, ys, rfl, hrest⟩ := makes_readPress_bind h
    cases hpress : pressOf ⟨.read fd, evt⟩ with
    | none =>
      rw [hpress] at hrest
      obtain ⟨hkey, hheld, hpoll⟩ := ih hrest
      rw [presses_cons, hpress]
      exact ⟨hkey, hheld, List.forall_mem_cons.mpr ⟨trivial, hpoll⟩⟩
    | some code =>
      rw [hpress] at hrest
      obtain ⟨hkey, hheld, hpoll⟩ := ih hrest
      rw [presses_cons, hpress]
      exact ⟨hkey, hheld, List.forall_mem_cons.mpr ⟨trivial, hpoll⟩⟩

/-- **In the second wait only the same key may be pressed**, and is counted. -/
theorem detectionEvents_presses {pressedKey : ℤ} (fds : List Fd) :
    ∀ {n m : ℕ} {xs : Trace}, (detectionEvents pressedKey fds n).run.Makes xs (.ok m) →
      (∀ code ∈ presses xs, (code.toNat : ℤ) = pressedKey) ∧ m = n + (presses xs).length ∧
        held xs = [] := by
  induction fds with
  | nil =>
    rintro n m xs ⟨rfl, h⟩
    cases h
    exact ⟨by simp [presses], rfl, rfl⟩
  | cons fd fds ih =>
    intro n m xs h
    obtain ⟨zs, press, ys, rfl, ⟨evt, zs, rfl, rfl, rfl⟩, hrest⟩ := makes_lift_bind h
    rw [List.singleton_append, presses_cons]
    have hheld : held (⟨.read fd, evt⟩ :: ys) = held ys := rfl
    rw [hheld]
    cases hpress : pressOf ⟨.read fd, evt⟩ with
    | none =>
      have hbind : Option.bind evt InputEvent.press = none := hpress
      rw [hbind] at hrest
      exact ih hrest
    | some code =>
      have hbind : Option.bind evt InputEvent.press = some code := hpress
      rw [hbind] at hrest
      -- with or without the vibration, the rest of the poll counts on
      obtain ⟨us, vs, heq, rfl, hus, hvs⟩ : ∃ us vs, pressedKey = code.toNat ∧ ys = us ++ vs ∧
          (∀ x ∈ us, x.1.Idle) ∧
          (detectionEvents pressedKey fds (n + 1)).run.Makes vs (.ok m) := by
        dsimp only at hrest
        split at hrest
        · rename_i heq
          split at hrest
          · obtain ⟨u, vs, rfl, hvs⟩ := makes_call_bind_except hrest
            exact ⟨[⟨.vibrate 1 vibrationShort 0, u⟩], vs, heq, rfl, by simp [Op.Idle], hvs⟩
          · exact ⟨[], ys, heq, rfl, by simp, hrest⟩
        · cases hrest.2
      obtain ⟨hsame, hm, hnone⟩ := ih hvs
      rw [held_append, presses_append, held_of_idle hus, presses_of_idle hus, hnone]
      refine ⟨?_, ?_, rfl⟩
      · exact List.forall_mem_cons.mpr ⟨heq.symm, hsame⟩
      · rw [hm, List.length_append, Option.toList_some, List.length_singleton, List.nil_append]
        omega

/-! ### The two waits -/

theorem lastKey_of_ne_nil {codes : List UInt16} (h : codes ≠ []) (key : ℤ) :
    ∃ code ∈ codes, lastKey key codes = code.toNat := by
  induction codes generalizing key with
  | nil => exact absurd rfl h
  | cons code codes ih =>
    by_cases hnil : codes = []
    · subst hnil
      exact ⟨code, by simp, rfl⟩
    · obtain ⟨c, hc, heq⟩ := ih hnil code.toNat
      exact ⟨c, List.mem_cons_of_mem _ hc, heq⟩

/-- A key that is there already is taken. -/
theorem initialWait_of_ne_zero {efd : Fd} {expiration : Timespec} {fuel : ℕ} {pressedKey key : ℤ}
    {xs : Trace} (hne : pressedKey ≠ 0)
    (h : (initialWait efd expiration fuel pressedKey).run.Makes xs (.ok key)) :
    xs = [] ∧ key = pressedKey := by
  unfold initialWait at h
  rw [if_pos hne] at h
  obtain ⟨rfl, hkey⟩ := h
  cases hkey
  exact ⟨rfl, rfl⟩

/-- What is pressed around a poll. -/
theorem presses_poll {us : Trace} (hus : ∀ x ∈ us, x.1.Idle) (efd : Fd) (timeout : ℤ)
    (fds : List Fd) (xs : Trace) :
    presses (us ++ ⟨.epollWait efd timeout, some fds⟩ :: xs) = presses xs := by
  rw [presses_append, presses_of_idle hus, presses_cons]
  rfl

theorem held_poll {us : Trace} (hus : ∀ x ∈ us, x.1.Idle) (efd : Fd) (timeout : ℤ)
    (fds : List Fd) (xs : Trace) :
    held (us ++ ⟨.epollWait efd timeout, some fds⟩ :: xs) = held xs := by
  rw [held_append, held_of_idle hus]
  rfl

/-- A poll of the first wait, and the rest of the wait. -/
theorem initialWait_polls {efd : Fd} {expiration : Timespec} {fuel : ℕ} {key : ℤ} {xs : Trace}
    (h : (initialWait efd expiration fuel 0).run.Makes xs (.ok key)) (hkey : key ≠ 0) :
    ∃ left us timeout fds es next rs, fuel = left + 1 ∧
      xs = us ++ ⟨.epollWait efd timeout, some fds⟩ :: (es ++ rs) ∧ (∀ x ∈ us, x.1.Idle) ∧
      (initialEvents fds 0).Makes es next ∧
      (initialWait efd expiration left next).run.Makes rs (.ok key) := by
  unfold initialWait at h
  rw [if_neg (by simp)] at h
  obtain ⟨us, timeout, vs, rfl, hus, hvs⟩ := makes_lift_bind h
  have hidle := idle_of_makes (spec_getRemainingTime expiration) hus
  split at hvs
  · cases hvs.2
    exact absurd rfl hkey
  cases fuel with
  | zero => cases hvs.2
  | succ left =>
    obtain ⟨polled, ws, rfl, hws⟩ := makes_call_bind_except hvs
    cases polled with
    | none => cases hws.2
    | some fds =>
      obtain ⟨es, next, rs, rfl, hes, hrs⟩ := makes_lift_bind hws
      exact ⟨left, us, timeout, fds, es, next, rs, rfl, rfl, hidle, hes, hrs⟩

/-- **The first wait ends with the poll that has a press**, and with its last one. -/
theorem initialWait_presses {efd : Fd} {expiration : Timespec} {fuel : ℕ} {key : ℤ} {xs : Trace}
    (h : (initialWait efd expiration fuel 0).run.Makes xs (.ok key)) (hkey : key ≠ 0) :
    key = lastKey 0 (presses xs) ∧ presses xs ≠ [] ∧ held xs = [] ∧
      ∀ ys, firstBatch [] (xs ++ ys) = firstBatch (presses xs) ys := by
  induction fuel generalizing xs with
  | zero =>
    obtain ⟨left, -, -, -, -, -, -, hfuel, -⟩ := initialWait_polls h hkey
    cases hfuel
  | succ fuel ih =>
    obtain ⟨left, us, timeout, fds, es, next, rs, hfuel, rfl, hus, hes, hrs⟩ :=
      initialWait_polls h hkey
    cases hfuel
    obtain ⟨hnext, hheld, hpoll⟩ := initialEvents_presses fds hes
    have hfirst : ∀ ys,
        firstBatch [] (us ++ ⟨.epollWait efd timeout, some fds⟩ :: (es ++ rs) ++ ys) =
          firstBatch (presses es) (rs ++ ys) := by
      intro ys
      rw [List.append_assoc, firstBatch_of_idle hus, List.cons_append, List.append_assoc]
      show firstBatch [] (es ++ (rs ++ ys)) = _
      rw [firstBatch_append hpoll, List.nil_append]
    simp only [hfirst, presses_poll hus, held_poll hus, presses_append, held_append, hheld,
      List.nil_append]
    by_cases hempty : presses es = []
    · -- nothing was pressed in this poll, and the wait goes on
      rw [hempty] at hnext ⊢
      obtain rfl : next = 0 := hnext
      exact ih hrs
    · obtain ⟨code, hcode, hlast⟩ := lastKey_of_ne_nil hempty 0
      have hne : next ≠ 0 := by
        rw [hnext, hlast]
        exact toNat_ne_zero (mem_of_mem_presses hcode)
      obtain ⟨rfl, rfl⟩ := initialWait_of_ne_zero hne hrs
      have hnil : presses ([] : Trace) = [] := rfl
      rw [hnil, List.append_nil]
      exact ⟨hnext, hempty, rfl, fun ys => rfl⟩

/-- The second wait ends without a poll, or polls and goes on. -/
theorem detectionWait_polls {efd : Fd} {expiration : Timespec} {pressedKey : ℤ} {fuel n m : ℕ}
    {xs : Trace}
    (h : (detectionWait efd expiration pressedKey fuel n).run.Makes xs (.ok m)) :
    ((∀ x ∈ xs, x.1.Idle) ∧ m = n) ∨
    ∃ left us timeout fds es next rs, fuel = left + 1 ∧
      xs = us ++ ⟨.epollWait efd timeout, some fds⟩ :: (es ++ rs) ∧ (∀ x ∈ us, x.1.Idle) ∧
      (detectionEvents pressedKey fds n).run.Makes es (.ok next) ∧
      (detectionWait efd expiration pressedKey left next).run.Makes rs (.ok m) := by
  unfold detectionWait at h
  split at h
  · obtain ⟨rfl, hm⟩ := h
    cases hm
    exact .inl ⟨by simp, rfl⟩
  obtain ⟨us, timeout, vs, rfl, hus, hvs⟩ := makes_lift_bind h
  have hidle := idle_of_makes (spec_getRemainingTime expiration) hus
  split at hvs
  · obtain ⟨rfl, hm⟩ := hvs
    cases hm
    rw [List.append_nil]
    exact .inl ⟨hidle, rfl⟩
  cases fuel with
  | zero => cases hvs.2
  | succ left =>
    obtain ⟨polled, ws, rfl, hws⟩ := makes_call_bind_except hvs
    cases polled with
    | none => cases hws.2
    | some fds =>
      obtain ⟨es, next, rs, rfl, hes, hrs⟩ := makes_bind_ok hws
      exact .inr ⟨left, us, timeout, fds, es, next, rs, rfl, rfl, hidle, hes, hrs⟩

/-- **The second wait counts presses of the key** and polls before it reads. -/
theorem detectionWait_presses {efd : Fd} {expiration : Timespec} {pressedKey : ℤ} {fuel n m : ℕ}
    {xs : Trace}
    (h : (detectionWait efd expiration pressedKey fuel n).run.Makes xs (.ok m)) :
    (∀ code ∈ presses xs, (code.toNat : ℤ) = pressedKey) ∧ m = n + (presses xs).length ∧
      held xs = [] ∧
      (presses xs = [] ∨ ∀ batch ys, batch ≠ [] → firstBatch batch (xs ++ ys) = batch) := by
  induction fuel generalizing n xs with
  | zero =>
    obtain ⟨hidle, rfl⟩ | ⟨left, -, -, -, -, -, -, hfuel, -⟩ := detectionWait_polls h
    · rw [presses_of_idle hidle, held_of_idle hidle]
      exact ⟨by simp, rfl, rfl, .inl rfl⟩
    · cases hfuel
  | succ fuel ih =>
    obtain ⟨hidle, rfl⟩ | ⟨left, us, timeout, fds, es, next, rs, hfuel, rfl, hus, hes, hrs⟩ :=
      detectionWait_polls h
    · rw [presses_of_idle hidle, held_of_idle hidle]
      exact ⟨by simp, rfl, rfl, .inl rfl⟩
    cases hfuel
    obtain ⟨hsame, hnext, hheld⟩ := detectionEvents_presses fds hes
    obtain ⟨hsame', hm, hheld', -⟩ := ih hrs
    rw [presses_poll hus, held_poll hus, presses_append, held_append, hheld, hheld',
      List.length_append]
    refine ⟨List.forall_mem_append.mpr ⟨hsame, hsame'⟩, by omega, rfl, .inr fun batch ys hne => ?_⟩
    rw [List.append_assoc, firstBatch_of_idle hus, List.cons_append]
    show (if batch = [] then _ else batch) = batch
    exact if_neg hne

/-! ## One key -/

/-- **The presses of the first poll with one are of one key.** -/
def Uniform (xs : Trace) : Prop :=
  ∀ c ∈ firstBatch [] xs, ∀ d ∈ firstBatch [] xs, c = d

/-- **The two waits of a detection that succeeds**, with nothing read around them. -/
inductive Waits (fuel : ℕ) (pressedKey : ℤ) : Trace → Prop
  | intro {us ws vs ds ls : Trace} {efd : Fd} {exp exp' : Timespec} {key : ℤ} {m : ℕ} :
      (∀ x ∈ us, x.1.Idle) → (initialWait efd exp fuel pressedKey).run.Makes ws (.ok key) →
      key ≠ 0 → (∀ x ∈ vs, x.1.Idle) →
      (detectionWait efd exp' key fuel 1).run.Makes ds (.ok m) → detectionPresses ≤ m →
      (∀ x ∈ ls, x.1.Idle) → Waits fuel pressedKey (us ++ (ws ++ (vs ++ (ds ++ ls))))

theorem Waits.around {fuel : ℕ} {pressedKey : ℤ} {xs ys zs : Trace} (h : Waits fuel pressedKey ys)
    (hxs : ∀ x ∈ xs, x.1.Idle) (hzs : ∀ x ∈ zs, x.1.Idle) :
    Waits fuel pressedKey (xs ++ (ys ++ zs)) := by
  obtain ⟨hus, hws, hkey, hvs, hds, hm, hls⟩ := h
  simp only [List.append_assoc]
  rw [← List.append_assoc]
  exact ⟨List.forall_mem_append.mpr ⟨hxs, hus⟩, hws, hkey, hvs, hds, hm,
    List.forall_mem_append.mpr ⟨hls, hzs⟩⟩

theorem detect_waits {fuel : ℕ} {efd : Fd} {fds : List Fd} {pressedKey : ℤ} {ts : Trace}
    (h : (detect fuel efd fds pressedKey).run.Makes ts (.ok true)) :
    Waits fuel pressedKey ts := by
  unfold detect at h
  obtain ⟨rs, u, ts, rfl, hrs, h₁⟩ := makes_bind_ok h
  obtain ⟨cs, exp, ts, rfl, hcs, h₂⟩ := makes_lift_bind h₁
  obtain ⟨ws, key, ts, rfl, hws, h₃⟩ := makes_bind_ok h₂
  split at h₃
  · cases h₃.2
  rename_i hkey
  obtain ⟨v, ts, rfl, h₄⟩ := makes_call_bind_except h₃
  obtain ⟨cs', exp', ts, rfl, hcs', h₅⟩ := makes_lift_bind h₄
  obtain ⟨ds, m, ts, rfl, hds, h₆⟩ := makes_bind_ok h₅
  split at h₆
  · rename_i hm
    obtain ⟨v', ts, rfl, rfl, -⟩ := makes_call_bind_except h₆
    have hrs' := idle_of_makes (spec_registerDevices efd fds) hrs
    have hcs := idle_of_makes (spec_expirationIn initialDelay) hcs
    have hcs' := idle_of_makes (spec_expirationIn detectionTimeout) hcs'
    rw [← List.append_assoc, ← List.cons_append]
    refine ⟨List.forall_mem_append.mpr ⟨hrs', hcs⟩, hws, hkey, ?_, hds, hm, by simp [Op.Idle]⟩
    exact List.forall_mem_cons.mpr ⟨trivial, hcs'⟩
  · cases h₆.2

/-- The parts of a detection that succeeds. -/
theorem detected_waits {fuel : ℕ} {skipInitialDelay : Bool} {xs : Trace}
    (h : (detectSafemodeTrigger fuel skipInitialDelay).Makes xs (some true)) :
    ∃ os fds pressedKey ts, xs = os ++ ts ∧ openKeyDevices.Makes os (fds, pressedKey) ∧
      0 ≤ pressedKey ∧ Waits fuel pressedKey ts := by
  unfold detectSafemodeTrigger at h
  rw [makes_bind] at h
  obtain ⟨os, ⟨fds, pressedKey⟩, ts, rfl, hos, hts⟩ := h
  dsimp only at hts
  split at hts
  · rw [makes_bind] at hts
    obtain ⟨-, -, -, -, -, -, hret⟩ := hts
    cases hret
  rename_i hgo
  obtain ⟨-, hnonneg, -⟩ := not_or.mp hgo |>.imp_right not_or.mp
  obtain ⟨created, ts', rfl, hcreated⟩ := makes_call_bind hts
  cases created with
  | none =>
    rw [makes_bind] at hcreated
    obtain ⟨-, -, -, -, -, -, hret⟩ := hcreated
    cases hret
  | some efd =>
    rw [makes_bind] at hcreated
    obtain ⟨ys, r, ls, rfl, hdetect, hls⟩ := hcreated
    match r, hdetect, hls with
    | .error .polling, _, hls => cases hls.2
    | .error .leave, _, hls =>
      rw [makes_bind] at hls
      obtain ⟨-, -, -, -, -, -, hret⟩ := hls
      cases hret
    | .ok result, hdetect, hls =>
      rw [makes_bind] at hls
      obtain ⟨cs, u, ds, rfl, hcs, rfl, hret⟩ := hls
      cases hret
      have hcs' := idle_of_makes (spec_closeAll (efd :: fds)) hcs
      rw [List.append_nil]
      refine ⟨os, fds, pressedKey, _, rfl, hos, Int.not_lt.mp hnonneg, ?_⟩
      have hidle : ∀ x ∈ ([⟨.epollCreate fds.length, some efd⟩] : Trace), x.1.Idle := by
        simp [Op.Idle]
      exact (detect_waits hdetect).around hidle hcs'

theorem reported_eq_zero {keys : List UInt16} (hkeys : ∀ c ∈ keys, c ∈ physicalKeycodes)
    (h : reported keys = 0) : keys = [] := by
  match keys, hkeys, h with
  | [], _, _ => rfl
  | [key], hkeys, h => exact absurd h (toNat_ne_zero (hkeys key (by simp)))
  | _ :: _ :: _, _, h => exact absurd h (show ¬ (-1 : ℤ) = 0 by decide)

/-- Keys that are reported without a -1 and are not none are one. -/
theorem reported_pos {keys : List UInt16} (hne : reported keys ≠ 0) (hnonneg : 0 ≤ reported keys) :
    ∃ key, keys = [key] ∧ reported keys = key.toNat := by
  match keys, hne, hnonneg with
  | [], hne, _ => exact absurd rfl hne
  | [key], _, _ => exact ⟨key, rfl, rfl⟩
  | _ :: _ :: _, _, hnonneg => exact absurd hnonneg (show ¬ (0 : ℤ) ≤ -1 by decide)

theorem eq_of_toNat_eq {c d : UInt16} (h : (c.toNat : ℤ) = d.toNat) : c = d :=
  UInt16.toNat_inj.mp (Int.ofNat_inj.mp h)

/-- Presses that go on with the last key of the first ones are of one key if and
only if the first ones are. -/
theorem replicate_iff_of_last {first second : List UInt16} (hfirst : first ≠ [])
    (hsecond : ∀ c ∈ second, (c.toNat : ℤ) = lastKey 0 first) (hmore : 4 ≤ second.length) :
    (∃ key n, detectionPresses ≤ n ∧ first ++ second = List.replicate n key) ↔
      ∀ c ∈ first, ∀ d ∈ first, c = d := by
  constructor
  · rintro ⟨code, n, -, hall⟩
    have heq : ∀ c ∈ first, c = code := fun c hc =>
      List.eq_of_mem_replicate (hall ▸ List.mem_append_left _ hc)
    exact fun c hc d hd => (heq c hc).trans (heq d hd).symm
  · intro huniform
    obtain ⟨code, hcode, hlastcode⟩ := lastKey_of_ne_nil hfirst 0
    refine ⟨code, _, ?_, List.eq_replicate_of_mem fun c hc => ?_⟩
    · have hpos := List.length_pos_iff.mpr hfirst
      rw [List.length_append, detectionPresses]
      omega
    · rcases List.mem_append.mp hc with hc | hc
      · exact huniform c hc code hcode
      · exact eq_of_toNat_eq ((hsecond c hc).trans hlastcode)

/-- **A detection that succeeds has seen one key only if and only if** a key was
held at the start, or the first presses polled are of one key. -/
theorem oneKey_iff {fuel : ℕ} {skipInitialDelay : Bool} {xs : Trace}
    (h : (detectSafemodeTrigger fuel skipInitialDelay).Makes xs (some true)) :
    OneKey xs ↔ held xs ≠ [] ∨ Uniform xs := by
  obtain ⟨os, fds, pressedKey, ts, rfl, hos, hnonneg, hts⟩ := detected_waits h
  obtain ⟨rfl, hopened, hpoll⟩ : pressedKey = _ ∧ _ := openKeyDevices_held hos
  obtain @⟨us, ws, vs, ds, ls, efd, exp, exp', key, m, hus, hws, hkey, hvs, hds, hm, hls⟩ := hts
  obtain ⟨hsame, hcount, hheld, hbatch⟩ := detectionWait_presses hds
  have hmore : 4 ≤ (presses ds).length := by
    rw [detectionPresses] at hm
    omega
  have hpresses :
      presses (os ++ (us ++ (ws ++ (vs ++ (ds ++ ls))))) = presses ws ++ presses ds := by
    simp only [presses_append, hopened, presses_of_idle hus, presses_of_idle hvs,
      presses_of_idle hls, List.nil_append, List.append_nil]
  have hkeys : held (os ++ (us ++ (ws ++ (vs ++ (ds ++ ls))))) = held os ++ held ws := by
    simp only [held_append, hheld, held_of_idle hus, held_of_idle hvs, held_of_idle hls,
      List.nil_append, List.append_nil]
  unfold OneKey Uniform
  rw [hpresses, hkeys]
  by_cases hnone : reported (held os) = 0
  · rw [hnone] at hws
    have hempty := reported_eq_zero (fun _ => mem_physicalKeycodes_of_mem_held) hnone
    obtain ⟨hlast, hfirst, hnoheld, hcut⟩ := initialWait_presses hws hkey
    have hsecond : presses ds ≠ [] := by
      intro hnil
      rw [hnil] at hmore
      exact absurd hmore (by decide)
    have hbatched : firstBatch [] (os ++ (us ++ (ws ++ (vs ++ (ds ++ ls))))) = presses ws := by
      rw [firstBatch_append hpoll, hopened, List.append_nil, firstBatch_of_idle hus, hcut,
        firstBatch_of_idle hvs]
      exact hbatch.resolve_left hsecond _ _ hfirst
    rw [hbatched, hempty, hnoheld, List.append_nil, List.nil_append]
    have hsecond' : ∀ c ∈ presses ds, (c.toNat : ℤ) = lastKey 0 (presses ws) :=
      fun c hc => (hsame c hc).trans hlast
    rw [replicate_iff_of_last hfirst hsecond' hmore]
    exact (or_iff_right fun hne => hne rfl).symm
  · -- a key was held, and there is no first wait
    obtain ⟨code, hone, hcode⟩ := reported_pos hnone hnonneg
    obtain ⟨rfl, rfl⟩ := initialWait_of_ne_zero hnone hws
    have hall : ∀ c ∈ code :: presses ds, c = code :=
      List.forall_mem_cons.mpr ⟨rfl, fun c hc => eq_of_toNat_eq ((hsame c hc).trans hcode)⟩
    refine iff_of_true ⟨code, (code :: presses ds).length, ?_, ?_⟩ (.inl ?_)
    · rw [List.length_cons, detectionPresses]
      omega
    · rw [hone]
      exact List.eq_replicate_of_mem hall
    · rw [hone]
      simp

/-- Two devices: the first poll has an event of each, those behind it one of the
second device. -/
def twoDevices (first second : UInt16) : ℕ → (op : Op) → op.Ans × ℕ
  | polls, .readdir => (some [[49], [50]], polls)
  | polls, .openDevice name => (some (if name = [49] then 1 else 2), polls)
  | polls, .keyBits _ => (Vector.replicate 96 255, polls)
  | polls, .heldBits _ => (Vector.replicate 96 0, polls)
  | polls, .close _ => ((), polls)
  | polls, .epollCreate _ => (some (3 : ℕ), polls)
  | polls, .epollCtl .. => (true, polls)
  | polls, .clockGettime => (⟨0, 0⟩, polls)
  | polls, .epollWait .. => (some (if polls = 0 then [1, 2] else [2]), polls + 1)
  | polls, .read fd => (some ⟨evKey, if fd = 1 then first else second, 1⟩, polls)
  | polls, .vibrate .. => ((), polls)

/-- The exchanges with them. -/
def pressedTogether (first second : UInt16) : Trace :=
  ((detectSafemodeTrigger 5 false).record (twoDevices first second) 0).1

theorem pressedTogether_makes {first second : UInt16} {r : Option Bool}
    (h : ((detectSafemodeTrigger 5 false).record (twoDevices first second) 0).2 = r) :
    (detectSafemodeTrigger 5 false).Makes (pressedTogether first second) r := by
  subst h
  exact record_makes _ 0

/-- A press of a key and, in the same poll, one of another key, which then alone
makes up the sequence. -/
theorem other_key_ignored :
    (detectSafemodeTrigger 5 false).Makes (pressedTogether 115 114) (some true) ∧
    presses (pressedTogether 115 114) = [115, 114, 114, 114, 114, 114] ∧
    ¬ OneKey (pressedTogether 115 114) := by
  have hpresses : presses (pressedTogether 115 114) = [115, 114, 114, 114, 114, 114] := by
    decide
  refine ⟨pressedTogether_makes (by decide), hpresses, ?_⟩
  rintro ⟨key, n, -, hall⟩
  have heq : ∀ c ∈ presses (pressedTogether 115 114), c = key := fun c hc =>
    List.eq_of_mem_replicate (hall ▸ List.mem_append_right _ hc)
  rw [hpresses] at heq
  have h₁ := heq 115 (by simp)
  have h₂ := heq 114 (by simp)
  exact absurd (h₁.trans h₂.symm) (by decide)

/-- With one key on both devices it is one key. -/
theorem same_key_detected :
    (detectSafemodeTrigger 5 false).Makes (pressedTogether 114 114) (some true) ∧
      OneKey (pressedTogether 114 114) := by
  have hmakes : (detectSafemodeTrigger 5 false).Makes (pressedTogether 114 114) (some true) :=
    pressedTogether_makes (by decide)
  have hbatch : firstBatch [] (pressedTogether 114 114) = [114, 114] := rfl
  have huniform : Uniform (pressedTogether 114 114) := by
    unfold Uniform
    rw [hbatch]
    simp
  exact ⟨hmakes, (oneKey_iff hmakes).mpr (.inr huniform)⟩

end Safemode

end Dynamicloader
