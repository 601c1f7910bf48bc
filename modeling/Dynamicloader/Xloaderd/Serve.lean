import Dynamicloader.Xloaderd.Answers
import Dynamicloader.Xloaderd.Words
/-!
# xloaderd — serving a frame in pieces

The kernel may cut what the daemon reads and writes into any pieces and
interrupt any call. `Line` is the daemon with the bytes that wait for it
and those it has written; `serve_frame` says that a frame is read back and
its reply written whatever the pieces are, once enough of them have come.
-/

namespace Dynamicloader

namespace Xloaderd

open Memory

/-- What the kernel does next: interrupt the call, or move some bytes, at
most `k + 1` and at most what the call asks for. -/
inductive Tick where
  | interrupt
  | move (k : ℕ)
  deriving DecidableEq

/-- A connection as the daemon sees it, and the handler calls it made. -/
structure Line where
  daemon : Daemon
  input : List UInt8
  output : List UInt8 := []
  calls : List Call := []

namespace Line

/-- The kernel answers a call. -/
def answered (l : Line) (a : Answered) (input output : List UInt8) : Line :=
  match l.daemon.answer a with
  | some d => { l with daemon := d, input := input, output := output }
  | none => l

/-- One tick. A read with nothing to read blocks. -/
def tick (cmds : List CmdInfo) (l : Line) : Tick → Line
  | .interrupt => l.answered .interrupted l.input l.output
  | .move k =>
    if l.daemon.pc = .execute then
      { l with daemon := l.daemon.run cmds
               calls := l.calls ++ (execute cmds l.daemon.buf).call.toList }
    else if 0 < l.daemon.pc.wants then
      let n := min (k + 1) l.daemon.pc.wants
      if l.input = [] then l
      else l.answered (.read (l.input.take n)) (l.input.drop n) l.output
    else
      let n := min (k + 1) l.daemon.pc.offers.length
      l.answered (.wrote n) l.input (l.output ++ l.daemon.pc.offers.take n)

/-- The ticks in order. -/
def serve (cmds : List CmdInfo) (l : Line) (ticks : List Tick) : Line := ticks.foldl (tick cmds) l

end Line

/-! ## A frame, in any pieces -/

/-- What the commands `cmds` make of the command `c`, whatever stands behind
it in the buffer: one handler call and a reply that is not empty. -/
structure Does (cmds : List CmdInfo) (c : List UInt8) (call : Call) (reply : List UInt8) :
    Prop where
  pos : 1 ≤ c.length
  lt : c.length < bufferMax
  exec : ∀ v, Loaded v c → (execute cmds v).call = some call ∧ (execute cmds v).reply = reply ∧
    (execute cmds v).scan.exit ≠ .overrun

/-- **Where the daemon can be while it serves the frame of `c`**, with a
bound on the number of moves that are left. -/
inductive Serving (c reply out : List UInt8) (call : Call) (calls : List Call) : Line → ℕ → Prop
  | size (v : Buffer) : Serving c reply out call calls
      ⟨⟨v, .readSize none⟩, frame c, out, calls⟩ (c.length + reply.length + 5)
  | size' (v : Buffer) (low high : UInt8) (h : le16 c.length = [low, high]) :
      Serving c reply out call calls
        ⟨⟨v, .readSize (some low)⟩, high :: c, out, calls⟩ (c.length + reply.length + 4)
  | command (v : Buffer) (got rest : List UInt8) (count n : ℕ) (hn : n < count)
      (hc : count < bufferMax) (h : c = got ++ rest) (hcount : count = c.length)
      (hgot : n = got.length) (hv : HoldsAt v 0 got) :
      Serving c reply out call calls
        ⟨⟨v, .readCommand count n hn hc⟩, rest, out, calls⟩ (rest.length + reply.length + 3)
  | execute (v : Buffer) (hv : Loaded v c) :
      Serving c reply out call calls ⟨⟨v, .execute⟩, [], out, calls⟩ (reply.length + 3)
  | write (v : Buffer) (size rest sent : List UInt8) (h : frame reply = sent ++ (size ++ rest))
      (hne : size ++ rest ≠ []) :
      Serving c reply out call calls
        ⟨⟨v, .write size rest⟩, [], out ++ sent, calls ++ [call]⟩ ((size ++ rest).length)
  | done (v : Buffer) : Serving c reply out call calls
      ⟨⟨v, .readSize none⟩, [], out ++ frame reply, calls ++ [call]⟩ 0

/-- The moves among the ticks are what makes progress. -/
def Tick.moves : Tick → ℕ
  | .interrupt => 0
  | .move _ => 1

section Serving

variable {cmds : List CmdInfo} {c reply out : List UInt8} {call : Call} {calls : List Call}
  {l : Line} {m : ℕ}

theorem ofLe16_of_eq {n : ℕ} {low high : UInt8} (hn : n < bufferMax) (h : le16 n = [low, high]) :
    ofLe16 low high = n := by
  simp only [le16, List.cons.injEq, and_true] at h
  obtain ⟨rfl, rfl⟩ := h
  have hmax : bufferMax = 1024 := rfl
  exact ofLe16_le16 (by omega)

/-- Interrupted calls are made again. -/
theorem Serving.interrupt (h : Serving c reply out call calls l m) :
    l.tick cmds .interrupt = l := by
  rcases h with _ | _ | _ | _ | _ | _ <;> rfl

/-- Both bytes of the size are there. -/
theorem Serving.sized (hd : Does cmds c call reply) (v : Buffer) (pc : Pc) {low high : UInt8}
    (h : le16 c.length = [low, high]) :
    Serving c reply out call calls ⟨(⟨v, pc⟩ : Daemon).sized (ofLe16 low high), c, out, calls⟩
      (c.length + reply.length + 3) := by
  have hlen : ofLe16 low high = c.length := ofLe16_of_eq hd.lt h
  rw [Daemon.sized, dif_pos ⟨by rw [hlen]; exact hd.pos, by rw [hlen]; exact hd.lt⟩]
  exact .command v [] c _ 0 _ _ rfl hlen rfl (holdsAt_nil v 0)

/-- Some bytes of the command arrive. -/
theorem Serving.received (v : Buffer) {got bs rest : List UInt8} {count n : ℕ}
    (hc : count < bufferMax) (h : c = got ++ (bs ++ rest)) (hcount : count = c.length)
    (hgot : n = got.length) (hv : HoldsAt v 0 got) (pc : Pc) :
    Serving c reply out call calls ⟨(⟨v, pc⟩ : Daemon).received count n hc bs, rest, out, calls⟩
      (rest.length + reply.length + 3) := by
  have hlen : c.length = got.length + (bs.length + rest.length) := by simp [h]
  have hle : got.length + bs.length ≤ count := by omega
  subst hgot
  rcases received_cases v pc hc hv hle with ⟨hlt, heq, hbuf⟩ | ⟨hfull, v', heq, hload⟩
  · rw [heq]
    exact .command _ (got ++ bs) rest _ _ hlt hc (by simp [h]) hcount (by simp) hbuf
  · -- the last bytes
    rw [List.length_append] at hfull
    obtain rfl : rest = [] := List.length_eq_zero_iff.mp (by omega)
    rw [List.append_nil] at h
    rw [← h] at hload
    rw [heq]
    simpa using Serving.execute _ hload

/-- The command runs. -/
theorem Serving.run (hd : Does cmds c call reply) {v : Buffer} (hv : Loaded v c) :
    Serving c reply out call calls
      ⟨(⟨v, .execute⟩ : Daemon).run cmds, [], out,
        calls ++ (Xloaderd.execute cmds v).call.toList⟩ (reply.length + 2) := by
  obtain ⟨hcall, hreply, hexit⟩ := hd.exec v hv
  rw [run_eq hexit, hcall, hreply, Option.toList_some]
  have hwrite : Serving c reply out call calls _ _ := Serving.write
    (store (Xloaderd.execute cmds v).scan.buf (Xloaderd.execute cmds v).scan.cmd
      (Xloaderd.execute cmds v).printed) (le16 reply.length) reply [] rfl (by simp [le16])
  have hlen : (le16 reply.length ++ reply).length = reply.length + 2 := by simp [Nat.add_comm]
  rwa [List.append_nil, hlen] at hwrite

/-- Some bytes of the reply leave. -/
theorem Serving.wrote (v : Buffer) {size rest sent : List UInt8} (hne : size ++ rest ≠ [])
    (h : frame reply = sent ++ (size ++ rest)) (k : ℕ) :
    ∃ m', Serving c reply out call calls
      (Line.tick cmds ⟨⟨v, .write size rest⟩, [], out ++ sent, calls ++ [call]⟩ (.move k)) m' ∧
      m' < (size ++ rest).length := by
  have hwants : (Pc.write size rest).wants = 0 := rfl
  -- what is left to write, in both cases of the two `writex` calls
  have hleft (size' rest' : List UInt8) (gone : List UInt8) (hgone : gone ≠ [])
      (hsplit : size ++ rest = gone ++ (size' ++ rest')) :
      ∃ m', Serving c reply out call calls
        ⟨(⟨v, .write size rest⟩ : Daemon).writing size' rest', [], out ++ sent ++ gone,
          calls ++ [call]⟩ m' ∧ m' < (size ++ rest).length := by
    have hpos : 0 < gone.length := List.length_pos_iff.mpr hgone
    have hlen : (size ++ rest).length = gone.length + (size' ++ rest').length := by
      rw [hsplit, List.length_append]
    have hframe : frame reply = (sent ++ gone) ++ (size' ++ rest') := by
      rw [h, hsplit, List.append_assoc]
    rw [Daemon.writing, List.append_assoc]
    split
    · rename_i hnil
      obtain ⟨rfl, rfl⟩ := hnil
      rw [List.append_nil, List.append_nil] at hframe
      rw [← hframe]
      exact ⟨0, .done v, by omega⟩
    · rename_i hnil
      refine ⟨_, .write v size' rest' (sent ++ gone) hframe ?_, by omega⟩
      simpa [List.append_eq_nil_iff] using hnil
  by_cases hsize : size = []
  · subst hsize
    have hrest : rest ≠ [] := by simpa using hne
    have hpos : 0 < rest.length := List.length_pos_iff.mpr hrest
    have := hleft [] (rest.drop (min (k + 1) rest.length)) (rest.take (min (k + 1) rest.length))
      (by rw [Ne, List.take_eq_nil_iff]; rintro (h0 | h0); omega; exact hrest h0)
      (by simp [List.take_append_drop])
    simpa [Line.tick, Line.answered, Daemon.answer, Pc.wants, Pc.offers, Nat.min_le_right] using this
  · have hpos : 0 < size.length := List.length_pos_iff.mpr hsize
    have := hleft (size.drop (min (k + 1) size.length)) rest (size.take (min (k + 1) size.length))
      (by rw [Ne, List.take_eq_nil_iff]; rintro (h0 | h0); omega; exact hsize h0)
      (by rw [← List.append_assoc, List.take_append_drop])
    simpa [Line.tick, Line.answered, Daemon.answer, Pc.wants, Pc.offers, hsize, Nat.min_le_right]
      using this

/-- **One tick.** The stage is kept, and a move makes progress. -/
theorem Serving.tick (hd : Does cmds c call reply) (h : Serving c reply out call calls l m)
    (t : Tick) :
    ∃ m', Serving c reply out call calls (l.tick cmds t) m' ∧ m' ≤ m - t.moves := by
  rcases t with _ | k
  · exact ⟨m, by rwa [h.interrupt], Nat.le_refl m⟩
  rcases h with v | ⟨v, low, high, h⟩ | ⟨v, got, rest, count, n, hn, hc, h, hcount, hgot, hv⟩ |
    ⟨v, hv⟩ | ⟨v, size, rest, sent, h, hne⟩ | v
  · -- the size comes whole, or its low byte alone
    obtain ⟨low, high, h⟩ : ∃ low high, le16 c.length = [low, high] := ⟨_, _, rfl⟩
    rcases k with _ | k
    · refine ⟨c.length + reply.length + 4, ?_, Nat.le_refl _⟩
      simpa [Line.tick, Line.answered, Daemon.answer, Pc.wants, frame, h] using
        Serving.size' v low high h
    · refine ⟨c.length + reply.length + 3, ?_, by simp only [Tick.moves]; omega⟩
      have hmin : min (k + 1 + 1) 2 = 2 := by omega
      simpa [Line.tick, Line.answered, Daemon.answer, Pc.wants, frame, h, hmin] using
        Serving.sized hd v (.readSize none) h
  · refine ⟨c.length + reply.length + 3, ?_, Nat.le_refl _⟩
    have hmin : min (k + 1) 1 = 1 := by omega
    simpa [Line.tick, Line.answered, Daemon.answer, Pc.wants, hmin] using
      Serving.sized hd v (.readSize (some low)) h
  · -- at least one byte of the command
    have hlen : c.length = got.length + rest.length := by simp [h]
    have hrest : rest ≠ [] := List.length_pos_iff.mp (by omega)
    have hpos : 0 < count - n := by omega
    generalize hj : min (k + 1) (count - n) = j
    have hcut : rest = rest.take j ++ rest.drop j := (List.take_append_drop j rest).symm
    have hj0 : j ≠ 0 := by omega
    have hread : n + min j rest.length ≤ count := by omega
    refine ⟨(rest.drop j).length + reply.length + 3, ?_, ?_⟩
    · have : Serving c reply out call calls _ _ :=
        Serving.received v hc (hcut ▸ h) hcount hgot hv (.readCommand count n hn hc)
      simpa [Line.tick, Line.answered, Daemon.answer, Pc.wants, hpos, hj, hj0, hrest, hread] using this
    · simp only [Tick.moves, List.length_drop]
      omega
  · refine ⟨reply.length + 2, ?_, Nat.le_refl _⟩
    simpa [Line.tick] using Serving.run hd hv
  · obtain ⟨m', hm', hlt⟩ := Serving.wrote v hne h k
    exact ⟨m', hm', by simp only [Tick.moves]; omega⟩
  · exact ⟨0, by simpa [Line.tick, Pc.wants] using Serving.done v, Nat.zero_le _⟩

theorem Serving.serve (hd : Does cmds c call reply) (ticks : List Tick) :
    ∀ {l : Line} {m : ℕ}, Serving c reply out call calls l m →
      ∃ m', Serving c reply out call calls (l.serve cmds ticks) m' ∧
        m' ≤ m - (ticks.map Tick.moves).sum := by
  induction ticks with
  | nil => exact fun h => ⟨_, h, Nat.le_refl _⟩
  | cons t ticks ih =>
    intro l m h
    obtain ⟨m₁, h₁, hle₁⟩ := h.tick hd t
    obtain ⟨m₂, h₂, hle₂⟩ := ih h₁
    refine ⟨m₂, h₂, ?_⟩
    simp only [List.map_cons, List.sum_cons]
    omega

/-- With no moves left the frame is served. -/
theorem Serving.served (h : Serving c reply out call calls l m) (hm : m = 0) :
    ∃ v, l = ⟨⟨v, .readSize none⟩, [], out ++ frame reply, calls ++ [call]⟩ := by
  rcases h with v | ⟨v, low, high, h⟩ | ⟨v, got, rest, count, n, hn, hc, h, hcount, hgot, hv⟩ |
    ⟨v, hv⟩ | ⟨v, size, rest, sent, h, hne⟩ | v
  · exact absurd hm (by omega)
  · exact absurd hm (by omega)
  · exact absurd hm (by omega)
  · exact absurd hm (by omega)
  · exact absurd (List.length_eq_zero_iff.mp hm) hne
  · exact ⟨v, rfl⟩

/-- **A frame is served, however the kernel cuts it up.** Once the ticks hold
a move for every byte and one for the command, the frame is consumed, the
handler has been called once and the reply frame is written. -/
theorem serve_frame (hd : Does cmds c call reply) (v : Buffer) {ticks : List Tick}
    (hticks : c.length + reply.length + 5 ≤ (ticks.map Tick.moves).sum) :
    ∃ v', Line.serve cmds ⟨⟨v, .readSize none⟩, frame c, out, calls⟩ ticks =
      ⟨⟨v', .readSize none⟩, [], out ++ frame reply, calls ++ [call]⟩ := by
  have hstart : Serving c reply out call calls _ _ := .size v
  obtain ⟨m, h, hle⟩ := hstart.serve hd ticks
  exact h.served (by omega)

end Serving

end Xloaderd

end Dynamicloader
