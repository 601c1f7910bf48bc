import Dynamicloader.Zygote.Model
/-!
# The sequential service

What the service is for, said without threads: clients take turns, a turn is
one function from its first request to its last, and the server answers each
request of the turn from the page the turn before has left (`Serves`). A log
of it falls into turns (`turns_of_servesAll`), and a turn is one function run
on its own (`Plays`).
-/

namespace Dynamicloader

namespace Zygote

variable {n : ℕ}

/-- What the server is asked with the call, on a page with the data `d`. -/
def Call.request (call : Call) (d : Data) : Request :=
  (callService call { init with data := d }).request

/-- What it answers. -/
def Call.answer (call : Call) (files : Files) (d : Data) : Reply :=
  (serve files (callService call { init with data := d })).reply

/-- The sequential service: the page, and the client whose turn it is. -/
structure Turn (n : ℕ) where
  page : Reply
  current : Option (Fin n × Local)

/-- **One event of the sequential service.** -/
inductive Serves : Turn n → Log n → Turn n → Prop where
  | began (i : Fin n) (f : Function) (page : Reply) :
      Serves ⟨page, none⟩ (.began i f) ⟨page, some (i, .start f)⟩
  | served (i : Fin n) (l : Local) (call : Call) (files : Files) (page : Reply)
      (hask : l.ask = some call) :
      Serves ⟨page, some (i, l)⟩
        (.served files (call.request page.data) (call.answer files page.data))
        ⟨call.answer files page.data, some (i, l.resume (call.answer files page.data))⟩
  | ended (i : Fin n) (r : Final) (m : MemBasedState) :
      Serves ⟨m.reply, some (i, .done r)⟩ (.ended i r (makeIdle r m).reply)
        ⟨(makeIdle r m).reply, none⟩
  | returned (t : Turn n) (i : Fin n) (v : Returned) : Serves t (.returned i v) t
  | refused (t : Turn n) (i : Fin n) (errno : ℤ) : Serves t (.refused i errno) t

/-- The events of a log, one after the other. -/
def ServesAll : Turn n → List (Log n) → Turn n → Prop
  | t, [], v => t = v
  | t, e :: log, v => ∃ u, Serves t e u ∧ ServesAll u log v

theorem servesAll_append {t v : Turn n} {log log' : List (Log n)} :
    ServesAll t (log ++ log') v ↔ ∃ u, ServesAll t log u ∧ ServesAll u log' v := by
  induction log generalizing t with
  | nil => exact ⟨fun h => ⟨t, rfl, h⟩, fun ⟨_, hu, h⟩ => hu ▸ h⟩
  | cons e log ih =>
    constructor
    · rintro ⟨u, he, h⟩
      obtain ⟨w, hlog, hlog'⟩ := ih.mp h
      exact ⟨w, ⟨u, he, hlog⟩, hlog'⟩
    · rintro ⟨w, ⟨u, he, hlog⟩, hlog'⟩
      exact ⟨u, he, ih.mpr ⟨w, hlog, hlog'⟩⟩

/-! ## A turn of its own -/

/-- One action of the server: the request, the answer and the files it is
from. -/
structure Served where
  files : Files
  request : Request
  reply : Reply

/-- A function goes from `l` to `l'`, its requests served as in `xs`. -/
def Plays : Local → Reply → List Served → Local → Reply → Prop
  | l, page, [], l', page' => l' = l ∧ page' = page
  | l, page, x :: xs, l', page' => ∃ call, l.ask = some call ∧
      x.request = call.request page.data ∧ x.reply = call.answer x.files page.data ∧
      Plays (l.resume x.reply) x.reply xs l' page'

theorem Plays.snoc {l l' : Local} {page page' : Reply} {xs : List Served} {call : Call}
    (h : Plays l page xs l' page') (hask : l'.ask = some call) (files : Files) :
    Plays l page (xs ++ [⟨files, call.request page'.data, call.answer files page'.data⟩])
      (l'.resume (call.answer files page'.data)) (call.answer files page'.data) := by
  induction xs generalizing l page with
  | nil =>
    obtain ⟨rfl, rfl⟩ := h
    exact ⟨call, hask, rfl, rfl, rfl, rfl⟩
  | cons x xs ih =>
    obtain ⟨call', hask', hreq, hreply, hrest⟩ := h
    exact ⟨call', hask', hreq, hreply, ih hrest⟩

/-- The actions of the server in a log. -/
def answers (log : List (Log n)) : List Served :=
  log.filterMap fun
    | .served files req r => some ⟨files, req, r⟩
    | _ => none

/-- Between turns only a beginning begins one. -/
theorem current_of_servesAll {t v : Turn n} {log : List (Log n)} (h : ServesAll t log v)
    (hlog : ∀ i f, .began i f ∉ log) (hnone : t.current = none) : v.current = none := by
  induction log generalizing t with
  | nil =>
    rw [← (show t = v from h)]
    exact hnone
  | cons e log ih =>
    obtain ⟨u, he, hrest⟩ := h
    have hrest' : ∀ i f, .began i f ∉ log := fun i f hm => hlog i f (List.mem_cons_of_mem _ hm)
    refine ih hrest hrest' ?_
    cases he with
    | began i f page => exact absurd List.mem_cons_self (hlog i f)
    | served => cases hnone
    | ended => rfl
    | returned | refused => exact hnone

/-- **The log of a turn is one function, from its first request on.** -/
theorem plays_of_servesAll {page page' : Reply} {i i' : Fin n} {l l' : Local}
    {log : List (Log n)} (h : ServesAll ⟨page, some (i, l)⟩ log ⟨page', some (i', l')⟩)
    (hlog : ∀ i f, .began i f ∉ log) : i' = i ∧ Plays l page (answers log) l' page' := by
  induction log generalizing page l with
  | nil =>
    cases (show Turn.mk page (some (i, l)) = ⟨page', some (i', l')⟩ from h)
    exact ⟨rfl, rfl, rfl⟩
  | cons e log ih =>
    obtain ⟨u, he, hrest⟩ := h
    have hrest' : ∀ i f, .began i f ∉ log := fun i f hm => hlog i f (List.mem_cons_of_mem _ hm)
    cases he with
    | served _ _ call files _ hask =>
      obtain ⟨hi, hplays⟩ := ih hrest hrest'
      exact ⟨hi, call, hask, rfl, rfl, hplays⟩
    | ended => exact absurd (current_of_servesAll hrest hrest' rfl) (by simp)
    | returned | refused => exact ih hrest hrest'

/-- **A turn in the log of a run.** -/
theorem plays_of_log {t v : Turn n} {pre mid post : List (Log n)} {i j : Fin n} {f : Function}
    {r : Final} {page : Reply}
    (h : ServesAll t (pre ++ .began i f :: (mid ++ .ended j r page :: post)) v)
    (hmid : ∀ i f, .began i f ∉ mid) :
    j = i ∧ ∃ page₀ m, Plays (.start f) page₀ (answers mid) (.done r) m.reply ∧
      page = (makeIdle r m).reply := by
  obtain ⟨u, -, u', hbegan, hrest⟩ := servesAll_append.mp h
  obtain ⟨w, hturn, w', hended, -⟩ := servesAll_append.mp hrest
  cases hbegan
  cases hended
  obtain ⟨hj, hplays⟩ := plays_of_servesAll hturn hmid
  exact ⟨hj, _, _, hplays, rfl⟩

/-! ## A log is a list of turns -/

/-- A finished turn. -/
structure Visit (n : ℕ) where
  client : Fin n
  function : Function
  served : List Served
  final : Final
  page : Reply

/-- The part of a log in which `i` has the service for `f`. -/
def turnLog (i : Fin n) (f : Function) (xs : List Served) : List (Log n) :=
  .began i f :: xs.map fun x => .served x.files x.request x.reply

def Visit.log (v : Visit n) : List (Log n) :=
  turnLog v.client v.function v.served ++ [Log.ended v.client v.final v.page]

/-- The visits follow each other, each on the page the one before has left. -/
def Visits : Reply → List (Visit n) → Reply → Prop
  | page, [], page' => page' = page
  | page, v :: vs, page' => (∃ m : MemBasedState,
      Plays (.start v.function) page v.served (.done v.final) m.reply ∧
      v.page = (makeIdle v.final m).reply) ∧ Visits v.page vs page'

/-- An entry of the log that is no event of the sequential service. -/
def Log.private : Log n → Bool
  | .returned .. | .refused .. => true
  | _ => false

/-- The log without what the clients do on their own. -/
def shared (log : List (Log n)) : List (Log n) := log.filter fun e => !e.private

/-- A log of whole turns, and of one that is not through. -/
def Turns (page : Reply) (log : List (Log n)) : Prop :=
  ∃ (vs : List (Visit n)) (page' : Reply) (rest : List (Log n)),
    log = vs.flatMap Visit.log ++ rest ∧ Visits page vs page' ∧
      (rest = [] ∨ ∃ i f xs l page'', rest = turnLog i f xs ∧ Plays (.start f) page' xs l page'')

theorem turns_cons {v : Visit n} {page : Reply} {m : MemBasedState} {log : List (Log n)}
    (hplays : Plays (.start v.function) page v.served (.done v.final) m.reply)
    (hpage : v.page = (makeIdle v.final m).reply) (h : Turns v.page log) :
    Turns page (v.log ++ log) := by
  obtain ⟨vs, page', rest, rfl, hvs, hrest⟩ := h
  refine ⟨v :: vs, page', rest, ?_, ⟨⟨m, hplays, hpage⟩, hvs⟩, hrest⟩
  rw [List.flatMap_cons, List.append_assoc]

/-- **The sequential service falls into turns**, from between two of them and
from the middle of one. -/
theorem turns_of_servesAll {log : List (Log n)} {v : Turn n} :
    (∀ page, ServesAll ⟨page, none⟩ log v → Turns page (shared log)) ∧
      ∀ page page' i f xs l, Plays (.start f) page xs l page' →
        ServesAll ⟨page', some (i, l)⟩ log v → Turns page (turnLog i f xs ++ shared log) := by
  induction log with
  | nil =>
    refine ⟨fun page _ => ⟨[], page, [], rfl, rfl, .inl rfl⟩, ?_⟩
    intro page page' i f xs l hplays _
    refine ⟨[], page, turnLog i f xs, ?_, rfl, .inr ⟨i, f, xs, l, page', rfl, hplays⟩⟩
    exact List.append_nil _
  | cons e log ih =>
    obtain ⟨ihnone, ihsome⟩ := ih
    constructor
    · rintro page ⟨u, he, hrest⟩
      cases he with
      | began i f page => exact ihsome page page i f [] _ ⟨rfl, rfl⟩ hrest
      | returned | refused => exact ihnone page hrest
    · rintro page page' i f xs l hplays ⟨u, he, hrest⟩
      cases he with
      | served _ _ call files _ hask =>
        have hturn := ihsome page _ i f _ _ (hplays.snoc hask files) hrest
        rw [turnLog, List.map_append, ← List.cons_append, List.append_assoc] at hturn
        exact hturn
      | ended _ r m =>
        have hturn := turns_cons (v := ⟨i, f, xs, r, (makeIdle r m).reply⟩) hplays rfl
          (ihnone _ hrest)
        rw [Visit.log, List.append_assoc] at hturn
        exact hturn
      | returned | refused => exact ihsome page page' i f xs l hplays hrest

end Zygote

end Dynamicloader
