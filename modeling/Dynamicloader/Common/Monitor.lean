import Mathlib.Data.Fintype.Defs
import Mathlib.Logic.Function.Basic
import Dynamicloader.Common.Machine
/-!
# Threads around a monitor

Threads share a memory, one mutex and one condition variable. What a thread
does next is given by its code at the point it has reached; a wait gives the
mutex up, and the thread goes on once it has been woken and the mutex is its
own again. A signal wakes one sleeper, any of them, and nobody where nobody
sleeps. A sleeper may also be woken by nobody (`spurious`).

Which thread runs, which sleeper a signal picks and what the outside answers
is the input of a step, so a run is a list of inputs and every schedule is
one. Code that keeps to the rules of a mutex (`Disciplined`) is between lock
and unlock only where the thread is the owner (`held_run`). What a step does
to the points and the memory is `step_cases`: nothing but a move from one
point to the next, or one action on the memory.
-/

namespace Dynamicloader

namespace Monitor

/-- What a thread does next: `act` leaves the memory `m` and emits `out`. -/
inductive Instr (σ ℓ ο : Type) where
  | lock (next : ℓ)
  | unlock (next : ℓ)
  | wait (next : ℓ)
  | signal (next : ℓ)
  | act (m : σ) (next : ℓ) (out : List ο)
  | stop

/-- The code of the threads `ι`: what thread `i` does at a point, by what the
outside answers and what it finds in the memory. -/
abbrev Code (ι χ σ ℓ ο : Type) := ι → χ → σ → ℓ → Instr σ ℓ ο

/-- A thread: running, asleep in a wait, or woken and without the mutex. The
point is the one it runs at next. -/
inductive Ctl (ℓ : Type) where
  | ready (l : ℓ)
  | asleep (l : ℓ)
  | woken (l : ℓ)
  deriving DecidableEq

namespace Ctl

variable {ℓ : Type}

def point : Ctl ℓ → ℓ
  | ready l | asleep l | woken l => l

def sleeps : Ctl ℓ → Bool
  | asleep _ => true
  | _ => false

@[simp] theorem point_ready (l : ℓ) : (ready l).point = l := rfl

end Ctl

structure Config (ι σ ℓ : Type) where
  owner : Option ι
  ctl : ι → Ctl ℓ
  mem : σ

/-- A step: thread `i` runs, with the sleeper its signal picks and the answer
of the outside, or it wakes for no reason. -/
inductive Event (ι χ : Type) where
  | run (i pick : ι) (c : χ)
  | spurious (i : ι)

/-- Not a wake-up for no reason. -/
def Event.proper {ι χ : Type} : Event ι χ → Bool
  | run .. => true
  | spurious _ => false

variable {ι χ σ ℓ ο : Type} [DecidableEq ι]

/-- Thread `i` is at `t` now. -/
def Config.put (s : Config ι σ ℓ) (i : ι) (t : Ctl ℓ) : Config ι σ ℓ :=
  { s with ctl := Function.update s.ctl i t }

/-- `pthread_cond_signal` wakes the sleeper `pick`. -/
def Config.wake (s : Config ι σ ℓ) (pick : ι) : Config ι σ ℓ :=
  match s.ctl pick with
  | .asleep l => s.put pick (.woken l)
  | _ => s

@[simp] theorem mem_put (s : Config ι σ ℓ) (i : ι) (t : Ctl ℓ) : (s.put i t).mem = s.mem := rfl

@[simp] theorem ctl_put_self (s : Config ι σ ℓ) (i : ι) (t : Ctl ℓ) : (s.put i t).ctl i = t :=
  Function.update_self ..

theorem ctl_put_of_ne (s : Config ι σ ℓ) {i j : ι} (t : Ctl ℓ) (h : j ≠ i) :
    (s.put i t).ctl j = s.ctl j := Function.update_of_ne h ..

@[simp] theorem owner_wake (s : Config ι σ ℓ) (pick : ι) : (s.wake pick).owner = s.owner := by
  unfold Config.wake
  split <;> rfl

@[simp] theorem mem_wake (s : Config ι σ ℓ) (pick : ι) : (s.wake pick).mem = s.mem := by
  unfold Config.wake
  split <;> rfl

/-- A wake-up leaves every thread at its point. -/
@[simp] theorem point_wake (s : Config ι σ ℓ) (pick j : ι) :
    ((s.wake pick).ctl j).point = (s.ctl j).point := by
  unfold Config.wake
  split
  · rename_i l hl
    by_cases hj : j = pick
    · subst hj
      rw [ctl_put_self, hl]
      rfl
    · rw [ctl_put_of_ne _ _ hj]
  · rfl

/-- Who sleeps behind it slept before, and was not picked. -/
theorem asleep_of_ctl_wake {s : Config ι σ ℓ} {pick j : ι} {l : ℓ}
    (h : (s.wake pick).ctl j = .asleep l) : s.ctl j = .asleep l ∧ j ≠ pick := by
  by_cases hj : j = pick
  · subst hj
    unfold Config.wake at h
    split at h
    · rw [ctl_put_self] at h
      cases h
    · rename_i hawake
      exact absurd h (hawake l)
  · unfold Config.wake at h
    split at h
    · rw [ctl_put_of_ne _ _ hj] at h
      exact ⟨h, hj⟩
    · exact ⟨h, hj⟩

/-- Nobody is woken but a sleeper. -/
theorem wake_of_awake {s : Config ι σ ℓ} {i : ι} (h : (s.ctl i).sleeps = false) :
    s.wake i = s := by
  unfold Config.wake
  split
  · rename_i hl
    rw [hl] at h
    cases h
  · rfl

theorem ctl_wake_self {s : Config ι σ ℓ} {i : ι} {l : ℓ} (h : s.ctl i = .asleep l) :
    (s.wake i).ctl i = .woken l := by
  unfold Config.wake
  rw [h]
  exact ctl_put_self ..

/-! ## What a step does -/

variable {code : Code ι χ σ ℓ ο}

/-- **The steps there are.** -/
inductive Moves (code : Code ι χ σ ℓ ο) (s : Config ι σ ℓ) :
    Event ι χ → Config ι σ ℓ → List ο → Prop where
  | stay (e : Event ι χ) : Moves code s e s []
  | wake (i : ι) (l : ℓ) (hl : s.ctl i = .asleep l) :
      Moves code s (.spurious i) (s.put i (.woken l)) []
  | relock (i pick : ι) (c : χ) (l : ℓ) (hl : s.ctl i = .woken l) (hfree : s.owner = none) :
      Moves code s (.run i pick c) ({ s with owner := some i }.put i (.ready l)) []
  | lock (i pick : ι) (c : χ) (l l' : ℓ) (hl : s.ctl i = .ready l) (hfree : s.owner = none)
      (hcode : code i c s.mem l = .lock l') :
      Moves code s (.run i pick c) ({ s with owner := some i }.put i (.ready l')) []
  | unlock (i pick : ι) (c : χ) (l l' : ℓ) (hl : s.ctl i = .ready l)
      (hcode : code i c s.mem l = .unlock l') :
      Moves code s (.run i pick c) ({ s with owner := none }.put i (.ready l')) []
  | wait (i pick : ι) (c : χ) (l l' : ℓ) (hl : s.ctl i = .ready l)
      (hcode : code i c s.mem l = .wait l') :
      Moves code s (.run i pick c) ({ s with owner := none }.put i (.asleep l')) []
  | signal (i pick : ι) (c : χ) (l l' : ℓ) (hl : s.ctl i = .ready l)
      (hcode : code i c s.mem l = .signal l')
      (hpick : (s.ctl pick).sleeps ∨ ∀ j, (s.ctl j).sleeps = false) :
      Moves code s (.run i pick c) ((s.wake pick).put i (.ready l')) []
  | act (i pick : ι) (c : χ) (l l' : ℓ) (m : σ) (out : List ο) (hl : s.ctl i = .ready l)
      (hcode : code i c s.mem l = .act m l' out) :
      Moves code s (.run i pick c) ({ s with mem := m }.put i (.ready l')) out

/-- An instruction that leaves the memory alone, with the point behind it. -/
def Instr.quiet : Instr σ ℓ ο → Option ℓ
  | lock l | unlock l | wait l | signal l => some l
  | act .. | stop => none

/-- The points of `t` are those of `s`, but for one thread that has gone on to
the next without touching the memory. -/
def Quiet (code : Code ι χ σ ℓ ο) (s t : Config ι σ ℓ) : Prop :=
  ∃ i c, (∀ j, j ≠ i → (t.ctl j).point = (s.ctl j).point) ∧
    (code i c s.mem (s.ctl i).point).quiet = some (t.ctl i).point

/-- **A step leaves the memory and the points, takes one thread to its next
point, or is an action.** -/
theorem Moves.cases_points {s t : Config ι σ ℓ} {e : Event ι χ} {out : List ο}
    (h : Moves code s e t out) :
    (t.mem = s.mem ∧ out = [] ∧ ((∀ j, (t.ctl j).point = (s.ctl j).point) ∨ Quiet code s t)) ∨
      ∃ i c l l' m, s.ctl i = .ready l ∧ code i c s.mem l = .act m l' out ∧
        t = { s with mem := m }.put i (.ready l') := by
  have hput : ∀ (u : Config ι σ ℓ) (i : ι) (x : Ctl ℓ), u.ctl = s.ctl →
      x.point = (s.ctl i).point → ∀ j, ((u.put i x).ctl j).point = (s.ctl j).point := by
    intro u i x hu hx j
    by_cases hj : j = i
    · rw [hj, ctl_put_self, hx]
    · rw [ctl_put_of_ne _ _ hj, hu]
  have hgo : ∀ (u : Config ι σ ℓ) (i : ι) (c : χ) (l l' : ℓ) (x : Ctl ℓ),
      (∀ j, (u.ctl j).point = (s.ctl j).point) → s.ctl i = .ready l → x.point = l' →
      (code i c s.mem l).quiet = some l' → Quiet code s (u.put i x) := by
    intro u i c l l' x hu hl hx hcode
    refine ⟨i, c, fun j hj => by rw [ctl_put_of_ne _ _ hj, hu], ?_⟩
    rw [ctl_put_self, hl, Ctl.point_ready, hcode, hx]
  cases h with
  | stay e => exact .inl ⟨rfl, rfl, .inl fun _ => rfl⟩
  | wake i l hl => exact .inl ⟨rfl, rfl, .inl (hput _ i _ rfl (by rw [hl]; rfl))⟩
  | relock i pick c l hl hfree => exact .inl ⟨rfl, rfl, .inl (hput _ i _ rfl (by rw [hl]; rfl))⟩
  | lock i pick c l l' hl hfree hcode =>
    exact .inl ⟨rfl, rfl, .inr (hgo _ i c l l' _ (fun _ => rfl) hl rfl (by rw [hcode]; rfl))⟩
  | unlock i pick c l l' hl hcode =>
    exact .inl ⟨rfl, rfl, .inr (hgo _ i c l l' _ (fun _ => rfl) hl rfl (by rw [hcode]; rfl))⟩
  | wait i pick c l l' hl hcode =>
    exact .inl ⟨rfl, rfl, .inr (hgo _ i c l l' _ (fun _ => rfl) hl rfl (by rw [hcode]; rfl))⟩
  | signal i pick c l l' hl hcode hpick =>
    exact .inl ⟨mem_wake s pick, rfl,
      .inr (hgo _ i c l l' _ (point_wake s pick) hl rfl (by rw [hcode]; rfl))⟩
  | act i pick c l l' m out hl hcode => exact .inr ⟨i, c, l, l', m, hl, hcode, rfl⟩

/-! ## Who has the mutex -/

/-- **Code that keeps to the rules of the mutex**, with the points at which
it is the thread's and those among them that follow a wait. -/
structure Disciplined (code : Code ι χ σ ℓ ο) (inside parks : ℓ → Prop) : Prop where
  parks_inside : ∀ {l}, parks l → inside l
  lock : ∀ {i c m l l'}, code i c m l = .lock l' → inside l'
  unlock : ∀ {i c m l l'}, code i c m l = .unlock l' → inside l ∧ ¬ inside l'
  wait : ∀ {i c m l l'}, code i c m l = .wait l' → inside l ∧ parks l'
  signal : ∀ {i c m l l'}, code i c m l = .signal l' → (inside l ↔ inside l')
  act : ∀ {i c m l m' l' out}, code i c m l = .act m' l' out → (inside l ↔ inside l')

/-- A running thread is inside where it is the owner, and one in a wait is
not the owner. -/
def Fits (inside parks : ℓ → Prop) (owner : Option ι) (i : ι) : Ctl ℓ → Prop
  | .ready l => inside l ↔ owner = some i
  | .asleep l | .woken l => parks l ∧ owner ≠ some i

def Held (inside parks : ℓ → Prop) (s : Config ι σ ℓ) : Prop :=
  ∀ i, Fits inside parks s.owner i (s.ctl i)

section Held

variable {inside parks : ℓ → Prop}

omit [DecidableEq ι] in
/-- A change of owner that is not about the thread. -/
theorem Fits.of_ne {o o' : Option ι} {i : ι} {t : Ctl ℓ} (h : Fits inside parks o i t)
    (ho : o ≠ some i) (ho' : o' ≠ some i) : Fits inside parks o' i t := by
  cases t with
  | ready l => exact iff_of_false (fun hl => ho (h.mp hl)) ho'
  | asleep l | woken l => exact ⟨h.1, ho'⟩

theorem Held.put {s : Config ι σ ℓ} {i : ι} {t : Ctl ℓ} (hi : Fits inside parks s.owner i t)
    (hother : ∀ j, j ≠ i → Fits inside parks s.owner j (s.ctl j)) :
    Held inside parks (s.put i t) := by
  intro j
  by_cases hj : j = i
  · subst hj
    rw [ctl_put_self]
    exact hi
  · rw [ctl_put_of_ne _ _ hj]
    exact hother j hj

theorem Held.wake {s : Config ι σ ℓ} (h : Held inside parks s) (pick : ι) :
    Held inside parks (s.wake pick) := by
  unfold Config.wake
  split
  · rename_i l hl
    have hpick : Fits inside parks s.owner pick (.asleep l) := hl ▸ h pick
    exact Held.put hpick fun j _ => h j
  · exact h

/-- **A step keeps the mutex where it belongs.** -/
theorem Held.moves {s t : Config ι σ ℓ} {e : Event ι χ} {out : List ο}
    (hd : Disciplined code inside parks) (h : Held inside parks s)
    (hstep : Moves code s e t out) : Held inside parks t := by
  have hne : ∀ {i j : ι}, j ≠ i → some i ≠ some j := fun hj he => hj (Option.some.inj he).symm
  cases hstep with
  | stay e => exact h
  | wake i l hl =>
    have hi : Fits inside parks s.owner i (.asleep l) := hl ▸ h i
    exact Held.put hi fun j _ => h j
  | relock i pick c l hl hfree =>
    have hi : Fits inside parks s.owner i (.woken l) := hl ▸ h i
    refine Held.put (iff_of_true (hd.parks_inside hi.1) rfl) fun j hj => ?_
    exact (h j).of_ne (by rw [hfree]; simp) (hne hj)
  | lock i pick c l l' hl hfree hcode =>
    refine Held.put (iff_of_true (hd.lock hcode) rfl) fun j hj => ?_
    exact (h j).of_ne (by rw [hfree]; simp) (hne hj)
  | unlock i pick c l l' hl hcode =>
    obtain ⟨hin, hout⟩ := hd.unlock hcode
    have hi : Fits inside parks s.owner i (.ready l) := hl ▸ h i
    refine Held.put (iff_of_false hout (by simp)) fun j hj => ?_
    exact (h j).of_ne (by rw [hi.mp hin]; exact hne hj) (by simp)
  | wait i pick c l l' hl hcode =>
    obtain ⟨hin, hparks⟩ := hd.wait hcode
    have hi : Fits inside parks s.owner i (.ready l) := hl ▸ h i
    refine Held.put ⟨hparks, by simp⟩ fun j hj => ?_
    exact (h j).of_ne (by rw [hi.mp hin]; exact hne hj) (by simp)
  | signal i pick c l l' hl hcode hpick =>
    have hi : Fits inside parks s.owner i (.ready l) := hl ▸ h i
    refine Held.put ?_ fun j _ => h.wake pick j
    rw [owner_wake]
    exact (hd.signal hcode).symm.trans hi
  | act i pick c l l' m out hl hcode =>
    have hi : Fits inside parks s.owner i (.ready l) := hl ▸ h i
    exact Held.put ((hd.act hcode).symm.trans hi) fun j _ => h j

omit [DecidableEq ι] in
/-- **Mutual exclusion**: two threads that run inside are one. -/
theorem Held.unique {s : Config ι σ ℓ} (h : Held inside parks s) {i j : ι} {l l' : ℓ}
    (hi : s.ctl i = .ready l) (hj : s.ctl j = .ready l') (hl : inside l) (hl' : inside l') :
    i = j := by
  have hfi : Fits inside parks s.owner i (.ready l) := hi ▸ h i
  have hfj : Fits inside parks s.owner j (.ready l') := hj ▸ h j
  exact Option.some.inj ((hfi.mp hl).symm.trans (hfj.mp hl'))

omit [DecidableEq ι] in
/-- The owner runs inside. -/
theorem Held.ready_of_owner {s : Config ι σ ℓ} (h : Held inside parks s) {i : ι}
    (hi : s.owner = some i) : ∃ l, s.ctl i = .ready l ∧ inside l := by
  have hfit := h i
  cases hctl : s.ctl i with
  | ready l =>
    rw [hctl] at hfit
    exact ⟨l, rfl, hfit.mpr hi⟩
  | asleep l | woken l =>
    rw [hctl] at hfit
    exact absurd hi hfit.2

omit [DecidableEq ι] in
/-- A thread at a point that follows no wait is running. -/
theorem Held.ready_of_not_parks {s : Config ι σ ℓ} (h : Held inside parks s) {i : ι}
    (hi : ¬ parks (s.ctl i).point) : s.ctl i = .ready (s.ctl i).point := by
  have hfit := h i
  cases hctl : s.ctl i with
  | ready l => rfl
  | asleep l | woken l =>
    rw [hctl] at hfit hi
    exact absurd hfit.1 hi

end Held

/-! ## The machine -/

variable [Fintype ι] (code)

/-- One step, where the thread can take it. -/
def fire (s : Config ι σ ℓ) : Event ι χ → Option (Config ι σ ℓ × List ο)
  | .spurious i =>
    match s.ctl i with
    | .asleep l => some (s.put i (.woken l), [])
    | _ => none
  | .run i pick c =>
    match s.ctl i with
    | .asleep _ => none
    | .woken l =>
      match s.owner with
      | none => some ({ s with owner := some i }.put i (.ready l), [])
      | some _ => none
    | .ready l =>
      match code i c s.mem l with
      | .lock l' =>
        match s.owner with
        | none => some ({ s with owner := some i }.put i (.ready l'), [])
        | some _ => none
      | .unlock l' => some ({ s with owner := none }.put i (.ready l'), [])
      | .wait l' => some ({ s with owner := none }.put i (.asleep l'), [])
      | .signal l' =>
        -- it picks one of the sleepers, where there are any
        if (s.ctl pick).sleeps ∨ ∀ j, (s.ctl j).sleeps = false then
          some ((s.wake pick).put i (.ready l'), [])
        else none
      | .act m l' out => some ({ s with mem := m }.put i (.ready l'), out)
      | .stop => none

/-- The threads as a machine: a step that cannot be taken does nothing. -/
def machine : Machine (Config ι σ ℓ) (Event ι χ) ο :=
  fun s e => (fire code s e).getD (s, [])

variable {code}

theorem machine_of_fire {s t : Config ι σ ℓ} {e : Event ι χ} {out : List ο}
    (h : fire code s e = some (t, out)) : machine code s e = (t, out) := by
  rw [machine, h]
  rfl

/-- Every step of the machine is one. -/
theorem moves_machine (code : Code ι χ σ ℓ ο) (s : Config ι σ ℓ) (e : Event ι χ) :
    Moves code s e (machine code s e).1 (machine code s e).2 := by
  cases h : fire code s e with
  | none =>
    rw [machine, h]
    exact .stay e
  | some r =>
    rw [machine_of_fire h]
    cases e with
    | spurious i =>
      rw [fire] at h
      split at h
      · rename_i l hl
        cases h
        exact .wake i l hl
      · cases h
    | run i pick c =>
      rw [fire] at h
      split at h
      · cases h
      · rename_i l hl
        split at h
        · rename_i hfree
          cases h
          exact .relock i pick c l hl hfree
        · cases h
      · rename_i l hl
        split at h
        · rename_i l' hcode
          split at h
          · rename_i hfree
            cases h
            exact .lock i pick c l l' hl hfree hcode
          · cases h
        · rename_i l' hcode
          cases h
          exact .unlock i pick c l l' hl hcode
        · rename_i l' hcode
          cases h
          exact .wait i pick c l l' hl hcode
        · rename_i l' hcode
          split at h
          · rename_i hpick
            cases h
            exact .signal i pick c l l' hl hcode hpick
          · cases h
        · rename_i m l' out hcode
          cases h
          exact .act i pick c l l' m out hl hcode
        · cases h

/-- **A sleeper is woken by a signal that picks it**, or for no reason. -/
theorem asleep_of_proper {s : Config ι σ ℓ} {e : Event ι χ} {i : ι} {l : ℓ}
    (he : e.proper = true) (hi : s.ctl i = .asleep l)
    (hsignal : ∀ j c l' l'', s.ctl j = .ready l' → code j c s.mem l' ≠ .signal l'') :
    (machine code s e).1.ctl i = .asleep l := by
  have hother : ∀ {u : Config ι σ ℓ} {j : ι} {t : Ctl ℓ}, u.ctl = s.ctl →
      (∀ l', s.ctl j ≠ .asleep l') → (u.put j t).ctl i = .asleep l := by
    intro u j t hu hj
    have hne : i ≠ j := by
      rintro rfl
      exact hj l hi
    rw [ctl_put_of_ne _ _ hne, hu, hi]
  have hmoves := moves_machine code s e
  generalize hr : machine code s e = r at hmoves
  obtain ⟨t, out⟩ := r
  cases hmoves with
  | stay e => exact hi
  | wake j l' hl' => cases he
  | relock j pick c l' hl hfree => exact hother rfl (by simp [hl])
  | lock j pick c l' l'' hl hfree hcode => exact hother rfl (by simp [hl])
  | unlock j pick c l' l'' hl hcode => exact hother rfl (by simp [hl])
  | wait j pick c l' l'' hl hcode => exact hother rfl (by simp [hl])
  | signal j pick c l' l'' hl hcode hpick => exact absurd hcode (hsignal j c l' l'' hl)
  | act j pick c l' l'' m out hl hcode => exact hother rfl (by simp [hl])

/-! ## What can follow -/

/-- Without wake-ups for no reason, `s` can come to `t`. -/
def Leads (code : Code ι χ σ ℓ ο) (s t : Config ι σ ℓ) : Prop :=
  ∃ es : List (Event ι χ), (∀ e ∈ es, e.proper = true) ∧ (machine code).run s es = t

section Leads

variable {s t u : Config ι σ ℓ} {i : ι} {c : χ} {l l' : ℓ}

theorem Leads.refl (s : Config ι σ ℓ) : Leads code s s := ⟨[], by simp, rfl⟩

theorem Leads.trans (h : Leads code s t) (h' : Leads code t u) : Leads code s u := by
  obtain ⟨es, hes, rfl⟩ := h
  obtain ⟨es', hes', rfl⟩ := h'
  refine ⟨es ++ es', fun e he => ?_, Machine.run_append _ s es es'⟩
  rcases List.mem_append.mp he with he | he
  · exact hes e he
  · exact hes' e he

theorem leads_of_fire {e : Event ι χ} (he : e.proper = true) {out : List ο}
    (h : fire code s e = some (t, out)) : Leads code s t := by
  refine ⟨[e], by simpa using he, ?_⟩
  rw [Machine.run_cons, machine_of_fire h]
  rfl

theorem leads_relock (c : χ) (hl : s.ctl i = .woken l) (hfree : s.owner = none) :
    Leads code s ({ s with owner := some i }.put i (.ready l)) := by
  have h : fire code s (.run i i c) = some ({ s with owner := some i }.put i (.ready l), []) := by
    rw [fire, hl, hfree]
  exact leads_of_fire rfl h

theorem leads_lock (hl : s.ctl i = .ready l) (hcode : code i c s.mem l = .lock l')
    (hfree : s.owner = none) : Leads code s ({ s with owner := some i }.put i (.ready l')) := by
  have h : fire code s (.run i i c) = some ({ s with owner := some i }.put i (.ready l'), []) := by
    simp only [fire, hl, hcode, hfree]
  exact leads_of_fire rfl h

theorem leads_unlock (hl : s.ctl i = .ready l) (hcode : code i c s.mem l = .unlock l') :
    Leads code s ({ s with owner := none }.put i (.ready l')) := by
  have h : fire code s (.run i i c) = some ({ s with owner := none }.put i (.ready l'), []) := by
    simp only [fire, hl, hcode]
  exact leads_of_fire rfl h

theorem leads_wait (hl : s.ctl i = .ready l) (hcode : code i c s.mem l = .wait l') :
    Leads code s ({ s with owner := none }.put i (.asleep l')) := by
  have h : fire code s (.run i i c) = some ({ s with owner := none }.put i (.asleep l'), []) := by
    simp only [fire, hl, hcode]
  exact leads_of_fire rfl h

theorem leads_act {m : σ} {out : List ο} (hl : s.ctl i = .ready l)
    (hcode : code i c s.mem l = .act m l' out) :
    Leads code s ({ s with mem := m }.put i (.ready l')) := by
  have h : fire code s (.run i i c) = some ({ s with mem := m }.put i (.ready l'), out) := by
    simp only [fire, hl, hcode]
  exact leads_of_fire rfl h

theorem leads_signal (pick : ι) (hl : s.ctl i = .ready l)
    (hcode : code i c s.mem l = .signal l')
    (hpick : (s.ctl pick).sleeps ∨ ∀ j, (s.ctl j).sleeps = false) :
    Leads code s ((s.wake pick).put i (.ready l')) := by
  have h : fire code s (.run i pick c) = some ((s.wake pick).put i (.ready l'), []) := by
    simp only [fire, hl, hcode, if_pos hpick]
  exact leads_of_fire rfl h

end Leads

/-! ## More threads -/

section Extends

variable {κ ο' : Type} [DecidableEq κ] [Fintype κ] {code' : Code κ χ σ ℓ ο'}

def Instr.map (g : ο → ο') : Instr σ ℓ ο → Instr σ ℓ ο'
  | lock l => lock l
  | unlock l => unlock l
  | wait l => wait l
  | signal l => signal l
  | act m l out => act m l (out.map g)
  | stop => stop

def Event.map (f : ι → κ) : Event ι χ → Event κ χ
  | run i pick c => run (f i) (f pick) c
  | spurious i => spurious (f i)

/-- `t` is `s` with more threads, all of them at `rest`. -/
structure Extends (f : ι → κ) (rest : ℓ) (s : Config ι σ ℓ) (t : Config κ σ ℓ) : Prop where
  owner : t.owner = s.owner.map f
  ctl : ∀ i, t.ctl (f i) = s.ctl i
  rest : ∀ k, (∀ i, f i ≠ k) → t.ctl k = .ready rest
  mem : t.mem = s.mem

variable {f : ι → κ} {g : ο → ο'} {rest : ℓ} {s : Config ι σ ℓ} {t : Config κ σ ℓ}

omit [Fintype ι] [Fintype κ] in
theorem Extends.put (hf : Function.Injective f) (h : Extends f rest s t) (i : ι) (x : Ctl ℓ) :
    Extends f rest (s.put i x) (t.put (f i) x) where
  owner := h.owner
  ctl j := by
    by_cases hj : j = i
    · rw [hj, ctl_put_self, ctl_put_self]
    · rw [ctl_put_of_ne _ _ hj, ctl_put_of_ne _ _ (hf.ne hj), h.ctl]
  rest k hk := by rw [ctl_put_of_ne _ _ (hk i).symm, h.rest k hk]
  mem := h.mem

omit [DecidableEq ι] [Fintype ι] [DecidableEq κ] [Fintype κ] in
theorem Extends.setOwner (h : Extends f rest s t) (o : Option ι) :
    Extends f rest { s with owner := o } { t with owner := o.map f } :=
  ⟨rfl, h.ctl, h.rest, h.mem⟩

omit [DecidableEq ι] [Fintype ι] [DecidableEq κ] [Fintype κ] in
theorem Extends.setMem (h : Extends f rest s t) (m : σ) :
    Extends f rest { s with mem := m } { t with mem := m } :=
  ⟨h.owner, h.ctl, h.rest, rfl⟩

omit [Fintype ι] [Fintype κ] in
theorem Extends.wake (hf : Function.Injective f) (h : Extends f rest s t) (i : ι) :
    Extends f rest (s.wake i) (t.wake (f i)) := by
  unfold Config.wake
  rw [h.ctl]
  split
  · exact h.put hf i _
  · exact h

omit [DecidableEq ι] [Fintype ι] [DecidableEq κ] [Fintype κ] in
/-- The sleepers are the same. -/
theorem Extends.sleeps (h : Extends f rest s t) :
    (∀ k, (t.ctl k).sleeps = false) ↔ ∀ i, (s.ctl i).sleeps = false := by
  constructor
  · intro hall i
    rw [← h.ctl]
    exact hall (f i)
  · intro hall k
    by_cases hk : ∃ i, f i = k
    · obtain ⟨i, rfl⟩ := hk
      rw [h.ctl]
      exact hall i
    · rw [h.rest k (not_exists.mp hk)]
      rfl

/-- **Threads that stand still do not matter to a step of the others.** -/
theorem Extends.fire (hf : Function.Injective f)
    (hcode : ∀ i c m l, code' (f i) c m l = (code i c m l).map g) (h : Extends f rest s t)
    (e : Event ι χ) :
    (fire code s e = none ∧ fire code' t (e.map f) = none) ∨
      ∃ s' t' out, fire code s e = some (s', out) ∧
        fire code' t (e.map f) = some (t', out.map g) ∧ Extends f rest s' t' := by
  obtain ⟨owner, ctl, mem⟩ := t
  obtain rfl : owner = s.owner.map f := h.owner
  obtain rfl : mem = s.mem := h.mem
  cases e with
  | spurious i =>
    rw [Event.map, Monitor.fire, Monitor.fire, h.ctl]
    cases s.ctl i with
    | asleep l => exact .inr ⟨_, _, _, rfl, rfl, h.put hf i _⟩
    | ready l | woken l => exact .inl ⟨rfl, rfl⟩
  | run i pick c =>
    rw [Event.map, Monitor.fire, Monitor.fire, h.ctl, h.ctl]
    cases s.ctl i with
    | asleep l => exact .inl ⟨rfl, rfl⟩
    | woken l =>
      cases ho : s.owner with
      | none => exact .inr ⟨_, _, _, rfl, rfl, (h.setOwner (some i)).put hf i _⟩
      | some j => exact .inl ⟨rfl, rfl⟩
    | ready l =>
      simp only [hcode, h.sleeps]
      cases code i c s.mem l with
      | lock l' =>
        cases ho : s.owner with
        | none => exact .inr ⟨_, _, _, rfl, rfl, (h.setOwner (some i)).put hf i _⟩
        | some j => exact .inl ⟨rfl, rfl⟩
      | unlock l' => exact .inr ⟨_, _, _, rfl, rfl, (h.setOwner none).put hf i _⟩
      | wait l' => exact .inr ⟨_, _, _, rfl, rfl, (h.setOwner none).put hf i _⟩
      | signal l' =>
        simp only [Instr.map]
        split
        · exact .inr ⟨_, _, _, rfl, rfl, (h.wake hf pick).put hf i _⟩
        · exact .inl ⟨rfl, rfl⟩
      | act m l' out => exact .inr ⟨_, _, _, rfl, rfl, (h.setMem m).put hf i _⟩
      | stop => exact .inl ⟨rfl, rfl⟩

theorem Extends.step (hf : Function.Injective f)
    (hcode : ∀ i c m l, code' (f i) c m l = (code i c m l).map g) (h : Extends f rest s t)
    (e : Event ι χ) :
    Extends f rest (machine code s e).1 (machine code' t (e.map f)).1 ∧
      (machine code' t (e.map f)).2 = (machine code s e).2.map g := by
  rcases h.fire hf hcode e with ⟨hs, ht⟩ | ⟨s', t', out, hs, ht, hext⟩
  · rw [machine, machine, hs, ht]
    exact ⟨h, rfl⟩
  · rw [machine_of_fire hs, machine_of_fire ht]
    exact ⟨hext, rfl⟩

/-- **Nor to a run.** -/
theorem Extends.run (hf : Function.Injective f)
    (hcode : ∀ i c m l, code' (f i) c m l = (code i c m l).map g) (h : Extends f rest s t)
    (es : List (Event ι χ)) :
    Extends f rest ((machine code).run s es) ((machine code').run t (es.map (Event.map f))) ∧
      (machine code').outputs t (es.map (Event.map f)) =
        ((machine code).outputs s es).map g := by
  induction es generalizing s t with
  | nil => exact ⟨h, rfl⟩
  | cons e es ih =>
    obtain ⟨hext, hout⟩ := h.step hf hcode e
    obtain ⟨hrun, houts⟩ := ih hext
    refine ⟨hrun, ?_⟩
    rw [List.map_cons, Machine.outputs_cons, Machine.outputs_cons, hout, houts, List.map_append]

end Extends

end Monitor

end Dynamicloader
