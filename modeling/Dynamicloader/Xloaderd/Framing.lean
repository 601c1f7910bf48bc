import Dynamicloader.Common.Machine
import Dynamicloader.Xloaderd.Answers
import Mathlib.Data.List.Forall2
/-!
# xloaderd — the frames of a stream

A client sends a stream and then nothing more. The daemon reads it in
whatever pieces the kernel hands it out, interrupted at any point. `frames`
says what the commands of the stream are, without the daemon: the complete
frames of an admissible size, up to the first that is not one.

The daemon executes them in their order. It closes the connection behind a
command whose reply cannot be written, and it is lost behind one whose scan
leaves the buffer, so the commands are executed up to the first that
`execute` does not return 0 for (`upto`). The pieces a reply is written in
are of no account here, and its writes are one turn.

`framed` is the result for every stream and every way to read it. The
invariant behind it (`Reading`) splits the stream into the commands that
were executed, the part of a frame that was read, and what is unread.
-/

namespace Dynamicloader

namespace Xloaderd

open Memory

/-- **The commands of a stream.** -/
def frames : List UInt8 → List (List UInt8)
  | low :: high :: rest =>
    let count := ofLe16 low high
    if 1 ≤ count ∧ count < bufferMax ∧ count ≤ rest.length then
      rest.take count :: frames (rest.drop count)
    else []
  | _ => []
  termination_by bytes => bytes.length
  decreasing_by simp only [List.length_drop, List.length_cons]; omega

/-- A complete frame is a command. -/
theorem frames_cons {low high : UInt8} {c : List UInt8} (rest : List UInt8)
    (hcount : ofLe16 low high = c.length) (hpos : 1 ≤ c.length) (hlt : c.length < bufferMax) :
    frames (low :: high :: (c ++ rest)) = c :: frames rest := by
  have hle : c.length ≤ (c ++ rest).length := by simp
  rw [frames, hcount, if_pos ⟨hpos, hlt, hle⟩, List.take_left, List.drop_left]

/-- A size that is refused ends the commands. -/
theorem frames_refused {low high : UInt8} (rest : List UInt8)
    (h : ¬ (1 ≤ ofLe16 low high ∧ ofLe16 low high < bufferMax)) :
    frames (low :: high :: rest) = [] := by
  rw [frames, if_neg fun hok => h ⟨hok.1, hok.2.1⟩]

/-- So does the end of the stream inside a frame. -/
theorem frames_incomplete {low high : UInt8} {rest : List UInt8}
    (h : rest.length < ofLe16 low high) : frames (low :: high :: rest) = [] := by
  rw [frames, if_neg fun hok => absurd hok.2.2 (Nat.not_le.mpr h)]

/-! ## A connection -/

/-- The daemon on a connection, and what it has not read of the stream. -/
structure Conn where
  daemon : Daemon
  unread : List UInt8

/-- What comes of the call that the daemon is in. -/
inductive Turn where
  | interrupted
  /-- A `read` hands out at most `k + 1` bytes; the two `writex` of an
  `execute` succeed if `written`. -/
  | returns (k : ℕ) (written : Bool)

/-- A call of `execute`: the buffer it is passed, and whether it returns 0.
One that leaves the buffer does not return. -/
structure Passed where
  buf : Buffer
  ret : Option Bool

/-- The kernel's answer to the daemon. -/
def Conn.answered (c : Conn) (a : Answered) (unread : List UInt8) : Conn :=
  match c.daemon.answer a with
  | some d => ⟨d, unread⟩
  | none => c

/-- `if (execute(s, buf)) break;` -/
def Conn.executed (cmds : List CmdInfo) (c : Conn) (written : Bool) : Conn × Passed :=
  let d := c.daemon.run cmds
  if d.pc = .lost then (⟨d, c.unread⟩, ⟨c.daemon.buf, none⟩)
  else
    (⟨{ d with pc := if written then .readSize none else .accept }, c.unread⟩,
      ⟨c.daemon.buf, some written⟩)

/-- **One turn of a connection**, with the call of `execute` that is made. A
stream that is read to its end has the `read` return 0. -/
def Conn.step (cmds : List CmdInfo) : Machine Conn Turn Passed
  | c, .interrupted => (c.answered .interrupted c.unread, [])
  | c, .returns k written =>
    if c.daemon.pc = .execute then ((c.executed cmds written).1, [(c.executed cmds written).2])
    else
      let n := min (k + 1) c.daemon.pc.wants
      if c.unread = [] then (c.answered .eof [], [])
      else (c.answered (.read (c.unread.take n)) (c.unread.drop n), [])

/-- The connection when it has been accepted. -/
def Conn.accepted (v : Buffer) (stream : List UInt8) : Conn := ⟨⟨v, .readSize none⟩, stream⟩

/-- The calls that return are what makes progress. -/
def Turn.moves : Turn → ℕ
  | .interrupted => 0
  | .returns _ _ => 1

/-! ## Reading -/

variable {d : Daemon} {got bs : List UInt8}

/-- The daemon inside a frame: a command that is complete is not empty. -/
structure Inside (got : List UInt8) (d : Daemon) : Prop where
  consumed : Consumed got d
  length : d.pc = .execute → 3 ≤ got.length

/-- What the daemon makes of bytes it has read, those before included. -/
inductive Reads (got : List UInt8) (d : Daemon) : Prop
  /-- The size is refused. -/
  | refused (low high : UInt8) (hgot : got = [low, high]) (hpc : d.pc = .accept)
      (hcount : ¬ (1 ≤ ofLe16 low high ∧ ofLe16 low high < bufferMax))
  | inside (h : Inside got d)

theorem reads_sized (v : Buffer) (pc : Pc) (low high : UInt8) :
    Reads [low, high] ((⟨v, pc⟩ : Daemon).sized (ofLe16 low high)) := by
  rw [Daemon.sized]
  split
  · rename_i h
    exact .inside ⟨.command v low high [] _ 0 h.1 h.2 rfl rfl (holdsAt_nil v 0), by simp⟩
  · rename_i h
    exact .refused low high rfl rfl h

/-- **A `read` of what is asked for.** -/
theorem Consumed.answer_read (hd : Consumed got d) (hpc : d.pc ≠ .execute) (hbs : bs ≠ [])
    (hle : bs.length ≤ d.pc.wants) :
    ∃ d', d.answer (.read bs) = some d' ∧ Reads (got ++ bs) d' := by
  rcases hd with v | ⟨v, low⟩ | ⟨v, low, high, got, count, n, hn, hc, hlen, hcount, hv⟩ |
    ⟨v, low, high, got, hcount, hv⟩
  · -- one byte of the size, or both
    rcases bs with _ | ⟨low, _ | ⟨high, _ | ⟨b, bs⟩⟩⟩
    · exact absurd rfl hbs
    · exact ⟨_, rfl, .inside ⟨.low v low, by simp⟩⟩
    · exact ⟨_, rfl, reads_sized v _ low high⟩
    · simp [Pc.wants] at hle
  · rcases bs with _ | ⟨high, _ | ⟨b, bs⟩⟩
    · exact absurd rfl hbs
    · exact ⟨_, rfl, reads_sized v _ low high⟩
    · simp [Pc.wants] at hle
  · subst hlen
    have hfits : got.length + bs.length ≤ count := by
      simp only [Pc.wants] at hle
      omega
    have hpos := List.length_pos_iff.mpr hbs
    refine ⟨_, if_pos ⟨hbs, hfits⟩, .inside ⟨consumed_received v _ hc hcount hv hfits, fun _ => ?_⟩⟩
    simp only [List.cons_append, List.length_cons, List.length_append]
    omega
  · exact absurd rfl hpc

/-- A part of a frame holds no command. -/
theorem Consumed.frames_eq_nil (hd : Consumed got d) (hpc : d.pc ≠ .execute) : frames got = [] := by
  rcases hd with v | ⟨v, low⟩ | ⟨v, low, high, got, count, n, hn, hc, hlen, hcount, hv⟩ |
    ⟨v, low, high, got, hcount, hv⟩
  · rw [frames]
    simp
  · rw [frames]
    simp
  · exact frames_incomplete (by omega)
  · exact absurd rfl hpc

/-- A complete frame is the next command. -/
theorem Inside.frames_eq (h : Inside got d) (hpc : d.pc = .execute) (rest : List UInt8) :
    ∃ c, Loaded d.buf c ∧ frames (got ++ rest) = c :: frames rest := by
  obtain ⟨hd, hlength⟩ := h
  have hlen := hlength hpc
  rcases hd with v | ⟨v, low⟩ | ⟨v, low, high, got, count, n, hn, hc, hn', hcount, hv⟩ |
    ⟨v, low, high, c, hcount, hv⟩
  · simp at hpc
  · simp at hpc
  · simp at hpc
  · simp only [List.length_cons] at hlen
    exact ⟨c, hv, frames_cons rest hcount (by omega) hv.lt⟩

/-! ## Commands that are executed -/

/-- The commands up to the first that `execute` does not return 0 for. -/
def upto : List (Option Bool) → List (List UInt8) → List (List UInt8)
  | _, [] => []
  | [], cs => cs
  | some true :: rets, c :: cs => c :: upto rets cs
  | _ :: _, c :: _ => [c]

theorem upto_nil (rets : List (Option Bool)) : upto rets [] = [] := by
  cases rets <;> rfl

/-- A single command is executed whatever comes of it. -/
theorem upto_singleton (rets : List (Option Bool)) (c : List UInt8) : upto rets [c] = [c] := by
  rcases rets with _ | ⟨_ | _ | _, rets⟩
  · rfl
  · rfl
  · rfl
  · exact congrArg (c :: ·) (upto_nil rets)

/-- They are all where it always returns 0. -/
theorem upto_eq_self {rets : List (Option Bool)} (hrets : ∀ r ∈ rets, r = some true)
    (cs : List (List UInt8)) : upto rets cs = cs := by
  induction rets generalizing cs with
  | nil => cases cs <;> rfl
  | cons r rets ih =>
    obtain ⟨rfl, htail⟩ := List.forall_mem_cons.mp hrets
    cases cs with
    | nil => rfl
    | cons c cs => exact congrArg (c :: ·) (ih htail cs)

/-- The first failure ends them. -/
theorem upto_failed {rets : List (Option Bool)} (hrets : ∀ r ∈ rets, r = some true)
    {r : Option Bool} (hr : r ≠ some true) {done : List (List UInt8)}
    (hlen : rets.length = done.length) (c : List UInt8) (cs : List (List UInt8)) :
    upto (rets ++ [r]) (done ++ c :: cs) = done ++ [c] := by
  induction rets generalizing done with
  | nil =>
    obtain rfl := List.length_eq_zero_iff.mp hlen.symm
    rcases r with _ | _ | _
    · rfl
    · rfl
    · exact absurd rfl hr
  | cons r' rets ih =>
    obtain ⟨rfl, htail⟩ := List.forall_mem_cons.mp hrets
    cases done with
    | nil => simp at hlen
    | cons d done => exact congrArg (d :: ·) (ih htail (Nat.succ.inj hlen))

/-- The buffers that are passed to `execute`. -/
def passed (out : List Passed) : List Buffer := out.map Passed.buf

/-- What it returns. -/
def returned (out : List Passed) : List (Option Bool) := out.map Passed.ret

/-! ## Turns -/

/-- **Where a connection is** that began with `stream`, when `out` has been
executed. -/
inductive Reading (cmds : List CmdInfo) (stream : List UInt8) (c : Conn) (out : List Passed) : Prop
  | ended (hpc : c.daemon.pc = .accept ∨
        c.daemon.pc = .lost ∧ ∃ x ∈ out, (execute cmds x.buf).scan.exit = .overrun)
      (hout : List.Forall₂ Loaded (passed out) (upto (returned out) (frames stream)))
  | during (done : List (List UInt8)) (got : List UInt8) (hd : Inside got c.daemon)
      (hout : List.Forall₂ Loaded (passed out) done) (hrets : ∀ r ∈ returned out, r = some true)
      (hframes : frames stream = done ++ frames (got ++ c.unread))

variable {cmds : List CmdInfo} {stream : List UInt8} {c : Conn} {out : List Passed}

/-- What is left to do: two turns for each unread byte, one for a command
that is complete, and one to close. -/
def Conn.left (c : Conn) : ℕ :=
  match c.daemon.pc with
  | .accept | .lost => 0
  | .execute => 2 * c.unread.length + 2
  | _ => 2 * c.unread.length + 1

theorem Conn.left_le (c : Conn) : c.left ≤ 2 * c.unread.length + 2 := by
  unfold left
  split
  · omega
  · omega
  · omega
  · omega

theorem Conn.answered_interrupted (c : Conn) : c.answered .interrupted c.unread = c := by
  unfold answered
  cases h : c.daemon.answer .interrupted with
  | none => rfl
  | some d => rw [answer_interrupted h]

/-- A connection that is over stays as it is. -/
theorem Conn.step_over (hpc : c.daemon.pc = .accept ∨ c.daemon.pc = .lost) (t : Turn) :
    c.step cmds t = (c, []) := by
  cases t with
  | interrupted => rw [step, answered_interrupted]
  | returns k written =>
    have hwants : c.daemon.pc.wants = 0 := by
      rcases hpc with hpc | hpc <;> rw [hpc] <;> rfl
    have heof : c.answered .eof [] = c := by
      have hnone : c.daemon.answer .eof = none := by
        rcases hpc with hpc | hpc <;> simp only [Daemon.answer, hpc]
      rw [answered, hnone]
    have hread : c.answered (.read (c.unread.take 0)) (c.unread.drop 0) = c := by
      rw [List.take_zero, answered, answer_read_nil]
    have hexecute : c.daemon.pc ≠ .execute := by
      rcases hpc with hpc | hpc <;> rw [hpc] <;> simp
    simp only [step, if_neg hexecute, hwants, Nat.min_zero, heof, hread, ite_self]

theorem Conn.step_execute (hpc : c.daemon.pc = .execute) (k : ℕ) (written : Bool) :
    c.step cmds (.returns k written) =
      ((c.executed cmds written).1, [(c.executed cmds written).2]) := by
  rw [step, if_pos hpc]

/-- Inside a frame the daemon asks for bytes, and its end closes the
connection. -/
theorem Consumed.asks (hd : Consumed got d) (hpc : d.pc ≠ .execute) :
    0 < d.pc.wants ∧ d.answer .eof = some { d with pc := .accept } := by
  rcases hd with v | ⟨v, low⟩ | ⟨v, low, high, got, count, n, hn, hc, hlen, hcount, hv⟩ |
    ⟨v, low, high, got, hcount, hv⟩
  · exact ⟨Nat.two_pos, rfl⟩
  · exact ⟨Nat.one_pos, rfl⟩
  · exact ⟨Nat.sub_pos_of_lt hn, rfl⟩
  · exact absurd rfl hpc

/-- The daemon is not over inside a frame. -/
theorem Consumed.not_over (hd : Consumed got d) : ¬ (d.pc = .accept ∨ d.pc = .lost) := by
  rcases hd with v | ⟨v, low⟩ | ⟨v, low, high, got, count, n, hn, hc, hlen, hcount, hv⟩ |
    ⟨v, low, high, got, hcount, hv⟩
  all_goals simp

/-- A `read` inside a frame. -/
theorem Inside.returns (hd : Inside got c.daemon) (hpc : c.daemon.pc ≠ .execute)
    {done : List (List UInt8)} (hout : List.Forall₂ Loaded (passed out) done)
    (hrets : ∀ r ∈ returned out, r = some true)
    (hframes : frames stream = done ++ frames (got ++ c.unread)) (k : ℕ) (written : Bool) :
    Reading cmds stream (c.step cmds (.returns k written)).1
        (out ++ (c.step cmds (.returns k written)).2) ∧
      (c.step cmds (.returns k written)).1.left ≤ c.left - 1 := by
  obtain ⟨hwants, heof⟩ := hd.consumed.asks hpc
  have hover := not_or.mp hd.consumed.not_over
  have hleft : c.left = 2 * c.unread.length + 1 := by
    unfold Conn.left
    split
    case h_1 hpc' => exact absurd hpc' hover.1
    case h_2 hpc' => exact absurd hpc' hover.2
    case h_3 hpc' => exact absurd hpc' hpc
    case h_4 => rfl
  -- a connection that is closed here has executed all there is
  have hclosed : frames stream = done →
      List.Forall₂ Loaded (passed out) (upto (returned out) (frames stream)) := by
    intro hdone
    rw [upto_eq_self hrets, hdone]
    exact hout
  by_cases hunread : c.unread = []
  · have hstep : c.step cmds (.returns k written) = (⟨{ c.daemon with pc := .accept }, []⟩, []) := by
      rw [Conn.step, if_neg hpc, if_pos hunread, Conn.answered, heof]
    rw [hunread, List.append_nil, hd.consumed.frames_eq_nil hpc, List.append_nil] at hframes
    rw [hstep, List.append_nil]
    exact ⟨.ended (.inl rfl) (hclosed hframes), Nat.zero_le _⟩
  · generalize hn : min (k + 1) c.daemon.pc.wants = n
    have hlen := List.length_pos_iff.mpr hunread
    have htake : (c.unread.take n).length = min n c.unread.length := List.length_take
    have hne : c.unread.take n ≠ [] := List.length_pos_iff.mp (by omega)
    obtain ⟨d', hanswer, hreads⟩ := hd.consumed.answer_read hpc hne (by omega)
    have hstep : c.step cmds (.returns k written) = (⟨d', c.unread.drop n⟩, []) := by
      simp only [Conn.step, if_neg hpc, if_neg hunread, Conn.answered, hn, hanswer]
    have hsplit : got ++ c.unread = (got ++ c.unread.take n) ++ c.unread.drop n := by
      rw [List.append_assoc, List.take_append_drop]
    rw [hsplit] at hframes
    rw [hstep, List.append_nil]
    constructor
    · cases hreads with
      | refused low high hgot hpc' hcount =>
        rw [hgot, List.cons_append, List.cons_append, List.nil_append,
          frames_refused _ hcount, List.append_nil] at hframes
        exact .ended (.inl hpc') (hclosed hframes)
      | inside hd' => exact .during done _ hd' hout hrets hframes
    · have hle := (Conn.mk d' (c.unread.drop n)).left_le
      rw [List.length_drop] at hle
      rw [hleft]
      exact Nat.le_trans hle (by omega)

theorem run_pc_eq_lost_iff (d : Daemon) :
    (d.run cmds).pc = .lost ↔ (execute cmds d.buf).scan.exit = .overrun := by
  rw [Daemon.run]
  split <;> simp_all

/-- A scan that stays in the buffer lets `execute` return. -/
theorem Conn.executed_eq (hexit : (execute cmds c.daemon.buf).scan.exit ≠ .overrun)
    (written : Bool) : c.executed cmds written =
      (⟨{ c.daemon.run cmds with pc := if written then .readSize none else .accept }, c.unread⟩,
        ⟨c.daemon.buf, some written⟩) :=
  if_neg fun hlost => hexit ((run_pc_eq_lost_iff c.daemon).mp hlost)

/-- The command in the buffer is executed. -/
theorem Inside.executes (hd : Inside got c.daemon) (hpc : c.daemon.pc = .execute)
    {done : List (List UInt8)} (hout : List.Forall₂ Loaded (passed out) done)
    (hrets : ∀ r ∈ returned out, r = some true)
    (hframes : frames stream = done ++ frames (got ++ c.unread)) (written : Bool) :
    Reading cmds stream (c.executed cmds written).1 (out ++ [(c.executed cmds written).2]) ∧
      (c.executed cmds written).1.left ≤ c.left - 1 := by
  obtain ⟨cmd, hload, hnext⟩ := hd.frames_eq hpc c.unread
  have hleft : c.left = 2 * c.unread.length + 2 := by rw [Conn.left, hpc]
  have hlen : (returned out).length = done.length := by
    rw [returned, List.length_map, ← hout.length_eq, passed, List.length_map]
  rw [hnext] at hframes
  have hpassed (r : Option Bool) :
      List.Forall₂ Loaded (passed (out ++ [⟨c.daemon.buf, r⟩])) (done ++ [cmd]) := by
    rw [passed, List.map_append]
    exact List.rel_append hout (.cons hload .nil)
  -- what is executed where this call does not return 0
  have hfailed (r : Option Bool) (hr : r ≠ some true) :
      List.Forall₂ Loaded (passed (out ++ [⟨c.daemon.buf, r⟩]))
        (upto (returned (out ++ [⟨c.daemon.buf, r⟩])) (frames stream)) := by
    rw [hframes, returned, List.map_append, List.map_singleton]
    exact (upto_failed hrets hr hlen cmd _).symm ▸ hpassed r
  rw [hleft]
  by_cases hexit : (execute cmds c.daemon.buf).scan.exit = .overrun
  · have hlost : (c.daemon.run cmds).pc = .lost := (run_pc_eq_lost_iff c.daemon).mpr hexit
    have hcall : c.executed cmds written =
        (⟨c.daemon.run cmds, c.unread⟩, ⟨c.daemon.buf, none⟩) := if_pos hlost
    rw [hcall]
    refine ⟨.ended (.inr ⟨hlost, _, List.mem_append_right _ List.mem_cons_self, hexit⟩)
      (hfailed none (by simp)), ?_⟩
    rw [Conn.left, hlost]
    exact Nat.zero_le _
  · rw [Conn.executed_eq hexit]
    cases written with
    | false => exact ⟨.ended (.inl rfl) (hfailed _ (by simp)), Nat.zero_le _⟩
    | true =>
      refine ⟨.during (done ++ [cmd]) [] ⟨.start _, by simp⟩ (hpassed _) ?_ ?_, Nat.le_refl _⟩
      · rw [returned, List.map_append, List.map_singleton, List.forall_mem_append]
        exact ⟨hrets, List.forall_mem_singleton.mpr rfl⟩
      · rw [hframes, List.append_assoc]
        rfl

/-- **One turn** goes on with the stream, and gets done with some of it. -/
theorem Reading.step (h : Reading cmds stream c out) (t : Turn) :
    Reading cmds stream (c.step cmds t).1 (out ++ (c.step cmds t).2) ∧
      (c.step cmds t).1.left ≤ c.left - t.moves := by
  cases h with
  | ended hpc hout =>
    have hover := hpc.imp_right And.left
    have hleft : c.left = 0 := by
      rcases hover with hpc | hpc <;> rw [Conn.left, hpc]
    rw [Conn.step_over hover, List.append_nil, hleft]
    exact ⟨.ended hpc hout, Nat.zero_le _⟩
  | during done got hd hout hrets hframes =>
    cases t with
    | interrupted =>
      rw [Conn.step, Conn.answered_interrupted, List.append_nil]
      exact ⟨.during done got hd hout hrets hframes, Nat.le_refl _⟩
    | returns k written =>
      by_cases hpc : c.daemon.pc = .execute
      · rw [Conn.step_execute hpc]
        exact hd.executes hpc hout hrets hframes written
      · exact hd.returns hpc hout hrets hframes k written

/-- The turns in order. -/
theorem Reading.run (h : Reading cmds stream c out) (ts : List Turn) :
    Reading cmds stream ((Conn.step cmds).run c ts) (out ++ (Conn.step cmds).outputs c ts) ∧
      ((Conn.step cmds).run c ts).left ≤ c.left - (ts.map Turn.moves).sum := by
  induction ts generalizing c out with
  | nil =>
    rw [Machine.outputs_nil, List.append_nil]
    exact ⟨h, Nat.le_refl _⟩
  | cons t ts ih =>
    obtain ⟨hstep, hleft⟩ := h.step t
    obtain ⟨hrun, hleft'⟩ := ih hstep
    rw [Machine.outputs_cons, Machine.run_cons, ← List.append_assoc]
    refine ⟨hrun, ?_⟩
    simp only [List.map_cons, List.sum_cons]
    omega

/-- Where nothing is left to do the connection is over. -/
theorem Conn.over_of_left (hleft : c.left = 0) :
    c.daemon.pc = .accept ∨ c.daemon.pc = .lost := by
  unfold left at hleft
  split at hleft
  case h_1 hpc => exact .inl hpc
  case h_2 hpc => exact .inr hpc
  case h_3 => omega
  case h_4 => omega

/-- Where the connection is over, the commands were executed up to the first
that failed. -/
theorem Reading.forall₂ (h : Reading cmds stream c out)
    (hpc : c.daemon.pc = .accept ∨ c.daemon.pc = .lost) :
    List.Forall₂ Loaded (passed out) (upto (returned out) (frames stream)) := by
  cases h with
  | ended _ hout => exact hout
  | during done got hd hout hrets hframes => exact absurd hpc hd.consumed.not_over

theorem upto_append (rets : List (Option Bool)) (cs : List (List UInt8)) :
    ∃ rest, cs = upto rets cs ++ rest := by
  induction rets generalizing cs with
  | nil => exact ⟨[], by cases cs <;> simp [upto]⟩
  | cons r rets ih =>
    cases cs with
    | nil => exact ⟨[], rfl⟩
    | cons c cs =>
      rcases r with _ | _ | _
      · exact ⟨cs, rfl⟩
      · exact ⟨cs, rfl⟩
      · obtain ⟨rest, hrest⟩ := ih cs
        exact ⟨rest, congrArg (c :: ·) hrest⟩

/-- What is executed is a part of the frames. -/
theorem Reading.executed (h : Reading cmds stream c out) :
    ∃ done rest, frames stream = done ++ rest ∧ List.Forall₂ Loaded (passed out) done := by
  cases h with
  | ended hpc hout =>
    obtain ⟨rest, hrest⟩ := upto_append (returned out) (frames stream)
    exact ⟨_, rest, hrest, hout⟩
  | during done got hd hout hrets hframes => exact ⟨done, _, hframes, hout⟩

/-- The daemon is lost in a scan that leaves the buffer only. -/
theorem Reading.lost (h : Reading cmds stream c out) (hpc : c.daemon.pc = .lost) :
    ∃ x ∈ out, (execute cmds x.buf).scan.exit = .overrun := by
  cases h with
  | ended hover _ =>
    rcases hover with haccept | ⟨-, hover⟩
    · rw [hpc] at haccept
      cases haccept
    · exact hover
  | during done got hd hout hrets hframes => exact absurd (.inr hpc) hd.consumed.not_over

section Accepted

variable (cmds : List CmdInfo) (v : Buffer) (stream : List UInt8) (ts : List Turn)

theorem reading_initial : Reading cmds stream (.accepted v stream) [] :=
  .during [] [] ⟨.start v, fun hpc => by cases hpc⟩ .nil (by simp [returned]) rfl

/-- A connection from its beginning on. -/
theorem reading_accepted :
    Reading cmds stream ((Conn.step cmds).run (.accepted v stream) ts)
      ((Conn.step cmds).outputs (.accepted v stream) ts) :=
  ((reading_initial cmds v stream).run ts).1

/-- It is over once there were turns enough. -/
theorem over_of_moves (hts : 2 * stream.length + 1 ≤ (ts.map Turn.moves).sum) :
    ((Conn.step cmds).run (.accepted v stream) ts).daemon.pc = .accept ∨
      ((Conn.step cmds).run (.accepted v stream) ts).daemon.pc = .lost := by
  have hinitial : (Conn.accepted v stream).left = 2 * stream.length + 1 := rfl
  have hleft := ((reading_initial cmds v stream).run ts).2
  exact Conn.over_of_left (by omega)

end Accepted

/-- **The frames of a stream, however it is read.** -/
structure Framed (cmds : List CmdInfo) (stream : List UInt8) (ts : List Turn) (c : Conn)
    (out : List Passed) : Prop where
  /-- What is executed is a part of the frames, in their order. -/
  executed : ∃ done rest, frames stream = done ++ rest ∧ List.Forall₂ Loaded (passed out) done
  /-- Once the connection is closed it is all of them, up to the first that
  `execute` does not return 0 for. -/
  closed : c.daemon.pc = .accept →
    List.Forall₂ Loaded (passed out) (upto (returned out) (frames stream))
  /-- The connection is closed in the end, unless a scan leaves the buffer. -/
  closes : 2 * stream.length + 1 ≤ (ts.map Turn.moves).sum →
    (∀ x ∈ out, (execute cmds x.buf).scan.exit ≠ .overrun) → c.daemon.pc = .accept

/-- The first command, when it has been read. -/
theorem Reading.loaded (h : Reading cmds stream c []) (hpc : c.daemon.pc = .execute)
    {cmd : List UInt8} {rest : List (List UInt8)} (hframes : frames stream = cmd :: rest) :
    Loaded c.daemon.buf cmd := by
  cases h with
  | ended hover hout =>
    rw [hpc] at hover
    simp at hover
  | during done got hd hout hrets hdone =>
    obtain ⟨cmd', hload, hnext⟩ := hd.frames_eq hpc c.unread
    obtain rfl : done = [] := List.forall₂_nil_left_iff.mp hout
    rw [hframes, List.nil_append, hnext] at hdone
    obtain ⟨rfl, -⟩ := List.cons.inj hdone
    exact hload

end Xloaderd

end Dynamicloader
