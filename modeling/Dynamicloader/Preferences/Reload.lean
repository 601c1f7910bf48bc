import Dynamicloader.Common.Machine
import Mathlib.Data.Nat.Notation
/-!
# Preferences — reading them again

`BridgeSharedPreferences` reads a file of preferences in a thread, and again
when `reload` finds that it has changed: that it cannot be read, or that its
date or length is not the one noted. A load that fails empties the map and
leaves the notes of the last load that worked. When the file of those notes
comes back, `reload` takes it for the one in the map, which is empty
(`restored_file_missed`).

The other processes change the file at any time, so each call that looks at
the file may see another one: an event carries the file of each of its
calls. Events take the lock of the object and do not overlap. What a load
found is a log of the run, and `reload_iff` says from the last entry when
the preferences are up to date.

The types of the values and of the map do not matter, nor does the form of
the file: `parse` is any partial function.
-/

namespace Dynamicloader

namespace Preferences

/-! ## The model -/

/-- The file at one moment. A file that does not exist cannot be read, and its date
and length are 0. -/
structure PrefFile where
  canRead : Bool
  lastModified : ℕ
  content : List UInt8
  deriving DecidableEq

def PrefFile.length (f : PrefFile) : ℕ := f.content.length

/-- The file at each of the calls of `hasFileChanged`: `canRead()`,
`lastModified()` and `length()`. -/
structure Stat where
  checked : PrefFile
  dated : PrefFile
  sized : PrefFile
  deriving DecidableEq

/-- The same for `loadFromDiskLocked`, and the file that it reads. -/
structure Look extends Stat where
  read : PrefFile
  deriving DecidableEq

structure State (M : Type*) where
  /-- `mMap`, null before the first load -/
  map : Option M
  /-- `mLoaded` -/
  loaded : Bool
  /-- `mLastModified` -/
  lastModified : ℕ
  /-- `mFileSize` -/
  fileSize : ℕ
  /-- the threads that have been started and have not had the lock -/
  threads : ℕ
  deriving DecidableEq

section Model

variable {M : Type*} [EmptyCollection M] (parse : List UInt8 → Option M)

/-- What is parsed of a file that can be read and opened. -/
def Look.found (l : Look) : Option M :=
  if l.checked.canRead then
    if l.read.canRead then parse l.read.content else none
  else none

def loadFromDiskLocked (l : Look) (s : State M) : State M :=
  if s.loaded then s
  else
    match l.found parse with
    | some map =>
      { s with
        loaded := true
        map := some map
        lastModified := l.dated.lastModified
        fileSize := l.sized.length }
    | none => { s with loaded := true, map := some ∅ }

def startLoadFromDisk (s : State M) : State M :=
  { s with loaded := false, threads := s.threads + 1 }

/-- The constructor. -/
def initial : State M := startLoadFromDisk ⟨none, false, 0, 0, 0⟩

def hasFileChanged (st : Stat) (s : State M) : Bool :=
  if !st.checked.canRead then true
  else s.lastModified != st.dated.lastModified || s.fileSize != st.sized.length

def reload (st : Stat) (s : State M) : State M :=
  if hasFileChanged st s then startLoadFromDisk s else s

/-- `getAll`; `none` while it waits for a load. -/
def getAll (s : State M) : Option M := if s.loaded then s.map else none

inductive Event where
  | reload (st : Stat)
  /-- a load thread gets the lock -/
  | load (l : Look)
  deriving DecidableEq

/-- **The preferences.** The outputs are the loads that have set the map. -/
def machine : Machine (State M) Event Look
  | s, .reload st => (reload st s, [])
  | s, .load l =>
    match s.threads with
    | 0 => (s, [])
    | n + 1 =>
      (loadFromDiskLocked parse l { s with threads := n }, if s.loaded then [] else [l])

end Model

/-! ## A file that stays -/

def Stat.of (f : PrefFile) : Stat := ⟨f, f, f⟩

def Look.of (f : PrefFile) : Look := { Stat.of f with read := f }

/-- All calls of the event see this file. -/
def Event.Sees (f : PrefFile) : Event → Prop
  | .reload st => st = Stat.of f
  | .load l => l = Look.of f

def Event.files : Event → List PrefFile
  | .reload st => [st.checked, st.dated, st.sized]
  | .load l => [l.checked, l.dated, l.sized, l.read]

/-- Date and length determine the content. -/
def Stamped (files : List PrefFile) : Prop :=
  ∀ f ∈ files, ∀ g ∈ files,
    f.lastModified = g.lastModified → f.length = g.length → f.content = g.content

section Reload

variable {M : Type*} [EmptyCollection M] {parse : List UInt8 → Option M}

/-- What the map is made of: the preferences found, or none. -/
def Look.yields (parse : List UInt8 → Option M) (l : Look) : M := (l.found parse).getD ∅

/-- **The preferences in a file.** -/
def current (parse : List UInt8 → Option M) (f : PrefFile) : M := (Look.of f).yields parse

/-- `getAll` returns the preferences in the file, and does so once all threads have
run. -/
def UpToDate (parse : List UInt8 → Option M) (f : PrefFile) (s : State M) : Prop :=
  (∀ map, getAll s = some map → map = current parse f) ∧
    (s.threads = 0 → getAll s = some (current parse f))

/-! ## What a run keeps -/

theorem loadFromDiskLocked_of_loaded {l : Look} {s : State M} (h : s.loaded = true) :
    loadFromDiskLocked parse l s = s := if_pos h

variable (parse) in
/-- **A load that sets the map** makes it of what it finds, and notes the file if it
finds something. -/
theorem loadFromDiskLocked_of_not_loaded (l : Look) {s : State M} (h : s.loaded = false) :
    (loadFromDiskLocked parse l s).loaded = true ∧
      (loadFromDiskLocked parse l s).map = some (l.yields parse) ∧
      (l.found parse ≠ none →
        (loadFromDiskLocked parse l s).lastModified = l.dated.lastModified ∧
          (loadFromDiskLocked parse l s).fileSize = l.sized.length) := by
  unfold loadFromDiskLocked Look.yields
  rw [if_neg (by simp [h])]
  cases l.found parse with
  | none => simp
  | some map => simp

variable (parse) in
/-- **A load thread** that gets the lock: there is none, or another has loaded, or it
sets the map. -/
theorem machine_load (l : Look) (s : State M) :
    machine parse s (.load l) = (s, []) ∨
      (s.loaded = true ∧ ∃ n, machine parse s (.load l) = ({ s with threads := n }, [])) ∨
      (s.loaded = false ∧ ∃ n, machine parse s (.load l) =
        (loadFromDiskLocked parse l { s with threads := n }, [l])) := by
  cases hthreads : s.threads with
  | zero =>
    left
    simp only [machine, hthreads]
  | succ n =>
    right
    cases hloaded : s.loaded with
    | true =>
      refine Or.inl ⟨rfl, n, ?_⟩
      simp only [machine, hthreads, hloaded, if_true]
      rw [loadFromDiskLocked_of_loaded rfl]
    | false =>
      refine Or.inr ⟨rfl, n, ?_⟩
      simp only [machine, hthreads, hloaded, Bool.false_eq_true, if_false]

/-- What the fields say about the log of the loads. -/
structure Logged (parse : List UInt8 → Option M) (s : State M) (log : List Look) : Prop where
  map : ∀ l, log.getLast? = some l → s.map = some (l.yields parse)
  stamp : ∀ l, log.getLast? = some l → l.found parse ≠ none →
    s.lastModified = l.dated.lastModified ∧ s.fileSize = l.sized.length
  loaded : s.loaded = true → log ≠ []
  pending : s.loaded = true ∨ 0 < s.threads

theorem Logged.initial : Logged parse (initial : State M) [] where
  map := by simp
  stamp := by simp
  loaded := by simp [Preferences.initial, startLoadFromDisk]
  pending := by simp [Preferences.initial, startLoadFromDisk]

theorem Logged.startLoadFromDisk {s : State M} {log : List Look} (h : Logged parse s log) :
    Logged parse (startLoadFromDisk s) log where
  map := h.map
  stamp := h.stamp
  loaded := by simp [Preferences.startLoadFromDisk]
  pending := by simp [Preferences.startLoadFromDisk]

theorem Logged.step {s : State M} {log : List Look} (h : Logged parse s log) (e : Event) :
    Logged parse (machine parse s e).1 (log ++ (machine parse s e).2) := by
  cases e with
  | reload st =>
    simp only [machine, reload, List.append_nil]
    split
    · exact h.startLoadFromDisk
    · exact h
  | load l =>
    rcases machine_load parse l s with heq | ⟨hloaded, n, heq⟩ | ⟨hloaded, n, heq⟩
    · rw [heq, List.append_nil]
      exact h
    · rw [heq, List.append_nil]
      exact ⟨h.map, h.stamp, h.loaded, .inl hloaded⟩
    · rw [heq]
      obtain ⟨hset, hmap, hstamp⟩ := loadFromDiskLocked_of_not_loaded parse l
        (show { s with threads := n }.loaded = false from hloaded)
      have hlast : ∀ l', (log ++ [l]).getLast? = some l' → l = l' := by simp
      refine ⟨?_, ?_, by simp, .inl hset⟩
      · intro l' hl'
        obtain rfl := hlast l' hl'
        exact hmap
      · intro l' hl'
        obtain rfl := hlast l' hl'
        exact hstamp

variable (parse) in
theorem logged_run (es : List Event) :
    Logged parse ((machine parse).run initial es) ((machine parse).outputs initial es) := by
  have := Machine.run_outputs_invariant (fun s e log (h : Logged parse s log) => h.step e)
    Logged.initial es
  rwa [List.nil_append] at this

/-! ## After a reload -/

/-- What is true from a reload on, while the file stays. -/
structure Settled (parse : List UInt8 → Option M) (f : PrefFile) (s : State M) : Prop where
  map : s.loaded = true → s.map = some (current parse f)
  pending : s.loaded = true ∨ 0 < s.threads

theorem Settled.startLoadFromDisk {f : PrefFile} (s : State M) :
    Settled parse f (startLoadFromDisk s) where
  map := by simp [Preferences.startLoadFromDisk]
  pending := by simp [Preferences.startLoadFromDisk]

theorem Settled.step {f : PrefFile} {s : State M} {e : Event} (he : e.Sees f)
    (h : Settled parse f s) : Settled parse f (machine parse s e).1 := by
  cases e with
  | reload st =>
    simp only [machine, reload]
    split
    · exact Settled.startLoadFromDisk s
    · exact h
  | load l =>
    obtain rfl : l = Look.of f := he
    rcases machine_load parse (Look.of f) s with
      heq | ⟨hloaded, n, heq⟩ | ⟨hloaded, n, heq⟩
    · rw [heq]
      exact h
    · rw [heq]
      exact ⟨h.map, .inl hloaded⟩
    · rw [heq]
      obtain ⟨hset, hmap, -⟩ := loadFromDiskLocked_of_not_loaded parse (Look.of f)
        (show { s with threads := n }.loaded = false from hloaded)
      exact ⟨fun _ => hmap, .inl hset⟩

theorem Settled.upToDate {f : PrefFile} {s : State M} (h : Settled parse f s) :
    UpToDate parse f s := by
  unfold UpToDate getAll
  cases hloaded : s.loaded with
  | true =>
    rw [if_pos rfl, h.map hloaded]
    exact ⟨fun map hmap => (Option.some.inj hmap).symm, fun _ => rfl⟩
  | false =>
    rw [if_neg (by decide)]
    refine ⟨fun map hmap => by simp at hmap, fun hnone => ?_⟩
    have := h.pending.resolve_left (by simp [hloaded])
    omega

/-- `reload` does not see a change. -/
def Unchanged (f : PrefFile) (s : State M) : Prop :=
  f.canRead = true ∧ s.lastModified = f.lastModified ∧ s.fileSize = f.length

omit [EmptyCollection M] in
theorem hasFileChanged_of_iff (f : PrefFile) (s : State M) :
    hasFileChanged (Stat.of f) s = false ↔ Unchanged f s := by
  unfold hasFileChanged Unchanged Stat.of
  cases f.canRead with
  | false => simp
  | true => simp

/-- **Up to date from a reload on** means that the map is right when the file is
taken for the one in it. -/
theorem upToDate_reload_iff {f : PrefFile} {s : State M} {log : List Look}
    (hs : Logged parse s log) :
    (∀ rest : List Event, (∀ e ∈ rest, e.Sees f) →
        UpToDate parse f ((machine parse).run s (.reload (Stat.of f) :: rest))) ↔
      (s.loaded = true → Unchanged f s → s.map = some (current parse f)) := by
  constructor
  · intro hall hloaded hunchanged
    have hstays : reload (Stat.of f) s = s := by
      rw [reload, (hasFileChanged_of_iff f s).mpr hunchanged, if_neg (by decide)]
    have hnow : UpToDate parse f (reload (Stat.of f) s) := hall [] (by simp)
    rw [hstays] at hnow
    obtain ⟨l, hl⟩ : ∃ l, log.getLast? = some l :=
      ⟨_, List.getLast?_eq_some_getLast (hs.loaded hloaded)⟩
    have hmap := hs.map l hl
    rw [hmap, hnow.1 (l.yields parse) (by rw [getAll, if_pos hloaded, hmap])]
  · intro hright rest hrest
    rw [Machine.run_cons]
    refine Settled.upToDate
      (Machine.run_invariant (M := machine parse) (fun _ _ he h => Settled.step he h) hrest ?_)
    show Settled parse f (reload (Stat.of f) s)
    unfold reload
    cases hchanged : hasFileChanged (Stat.of f) s with
    | true => exact Settled.startLoadFromDisk s
    | false =>
      have hunchanged := (hasFileChanged_of_iff f s).mp hchanged
      exact ⟨fun hloaded => hright hloaded hunchanged, hs.pending⟩

/-! ## When a reload is misled -/

/-- The file stayed during the load, which found preferences in it. -/
def Look.Sound (parse : List UInt8 → Option M) (l : Look) : Prop :=
  l = Look.of l.read ∧ l.found parse ≠ none

/-- **A reload that is misled**: no load is pending and the file has the date and the
length that are noted, but the last load failed or the file changed under
it, and it yielded other preferences than those in the file. -/
def Misled (parse : List UInt8 → Option M) (es : List Event) (f : PrefFile) : Prop :=
  ((machine parse).run initial es).loaded = true ∧
    Unchanged f ((machine parse).run initial es) ∧
    ∃ l, ((machine parse).outputs initial es).getLast? = some l ∧ ¬ l.Sound parse ∧
      l.yields parse ≠ current parse f

theorem outputs_files {es : List Event} {s : State M} {l : Look}
    (hl : l ∈ (machine parse).outputs s es) : l.read ∈ es.flatMap Event.files := by
  induction es generalizing s with
  | nil => simp at hl
  | cons e es ih =>
    rw [Machine.outputs_cons, List.mem_append] at hl
    rw [List.flatMap_cons, List.mem_append]
    rcases hl with hnow | hlater
    · left
      cases e with
      | reload st => simp [machine] at hnow
      | load l' =>
        have heq : l = l' := by
          rcases machine_load parse l' s with h | ⟨-, n, h⟩ | ⟨-, n, h⟩
          · simp [h] at hnow
          · simp [h] at hnow
          · simpa [h] using hnow
        simp [Event.files, heq]
    · exact Or.inr (ih hlater)

/-- A sound load of a file with the date and the length of `f` has read what is in
`f`. -/
theorem yields_of_sound {f : PrefFile} {l : Look} {files : List PrefFile}
    (hstamped : Stamped files) (hf : f ∈ files) (hl : l.read ∈ files) (hread : f.canRead = true)
    (hsound : l.Sound parse) (hdate : l.dated.lastModified = f.lastModified)
    (hlength : l.sized.length = f.length) : l.yields parse = current parse f := by
  obtain ⟨hof, hfound⟩ := hsound
  have hcontent : l.read.content = f.content := by
    refine hstamped l.read hl f hf ?_ ?_
    · rw [← hdate, hof]
      rfl
    · rw [← hlength, hof]
      rfl
  have hchecked : l.checked = l.read := by
    rw [hof]
    rfl
  have hcan : l.read.canRead = true := by
    by_contra hnot
    exact hfound (by rw [Look.found, hchecked, if_neg hnot])
  rw [current, Look.yields, Look.yields, Look.found, Look.found, hchecked, if_pos hcan, if_pos hcan,
    hcontent]
  simp [Look.of, Stat.of, hread]

variable (parse) in
/-- **Preferences are up to date after a reload if and only if** it is not misled. -/
theorem reload_iff {es : List Event} {f : PrefFile}
    (hstamped : Stamped (f :: es.flatMap Event.files)) :
    (∀ rest : List Event, (∀ e ∈ rest, e.Sees f) →
        UpToDate parse f ((machine parse).run initial (es ++ .reload (Stat.of f) :: rest))) ↔
      ¬ Misled parse es f := by
  have hlogged := logged_run parse es
  simp only [Machine.run_append]
  rw [upToDate_reload_iff hlogged]
  constructor
  · rintro hright ⟨hloaded, hunchanged, l, hl, -, hother⟩
    have hmap := hright hloaded hunchanged
    rw [hlogged.map l hl] at hmap
    exact hother (Option.some.inj hmap)
  · intro hnot hloaded hunchanged
    obtain ⟨l, hl⟩ : ∃ l, ((machine parse).outputs initial es).getLast? = some l :=
      ⟨_, List.getLast?_eq_some_getLast (hlogged.loaded hloaded)⟩
    rw [hlogged.map l hl]
    by_contra hother
    refine hnot ⟨hloaded, hunchanged, l, hl, fun hsound => hother ?_, fun h => hother (by rw [h])⟩
    obtain ⟨hdate, hlength⟩ := hlogged.stamp l hl hsound.2
    obtain ⟨hread, hdate', hlength'⟩ := hunchanged
    have hmem : l.read ∈ es.flatMap Event.files := outputs_files (List.mem_of_getLast? hl)
    rw [yields_of_sound hstamped List.mem_cons_self (List.mem_cons_of_mem _ hmem) hread hsound
      (hdate.symm.trans hdate') (hlength.symm.trans hlength')]

end Reload

/-- A file of the letter a is one preference; no other file is well formed. -/
def onePreference (content : List UInt8) : Option (List (String × String)) :=
  if content = [97] then some [("key", "value")] else none

def written : PrefFile := ⟨true, 1, [97]⟩

/-- The file while it is away, renamed to its backup. -/
def away : PrefFile := ⟨false, 0, []⟩

/-- The file is loaded; it is away when it is loaded again. -/
def awayOnce : List Event := [.load (.of written), .reload (.of away), .load (.of away)]

/-- **The file that is back is not read**: date and length are those noted, and the
map stays empty. -/
theorem restored_file_missed :
    Stamped (written :: awayOnce.flatMap Event.files) ∧
      getAll ((machine onePreference).run initial (awayOnce ++ [Event.reload (.of written)])) =
        some [] ∧
      ((machine onePreference).run initial (awayOnce ++ [Event.reload (.of written)])).threads = 0 ∧
      current onePreference written = [("key", "value")] := by
  refine ⟨?_, by decide, by decide, by decide⟩
  unfold Stamped
  decide

/-- The file that is back with another date is read. -/
theorem rewritten_file_loaded :
    UpToDate onePreference ⟨true, 2, [97]⟩ ((machine onePreference).run initial
      (awayOnce ++ [Event.reload (.of ⟨true, 2, [97]⟩), Event.load (.of ⟨true, 2, [97]⟩)])) := by
  have hstamped : Stamped (⟨true, 2, [97]⟩ :: awayOnce.flatMap Event.files) := by
    unfold Stamped
    decide
  refine (reload_iff onePreference hstamped).mpr ?_ [.load (.of ⟨true, 2, [97]⟩)] ?_
  · rintro ⟨-, ⟨-, hdate, -⟩, -⟩
    exact absurd hdate (by decide)
  · intro e he
    obtain rfl := List.mem_singleton.mp he
    rfl

end Preferences

end Dynamicloader
