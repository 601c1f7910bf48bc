import Dynamicloader.Xloaderd.Execute
/-!
# xloaderd — what one answer of the kernel does

One lemma for each kind of answer. `Consumed` says where the daemon stands
after the bytes of a frame it has read so far, so that a reader of the
frame loop need not look at the loop again.
-/

namespace Dynamicloader

namespace Xloaderd

open Memory

variable {d d' : Daemon}

/-- **What an answer can do**: a connection begins, an interrupted call is
made again, and every failure or end leads back to `accept`. -/
theorem answer_cases {a : Answered} (h : d.answer a = some d') :
    (a = .accepted ∧ d.pc = .accept ∧ d' = { d with pc := .readSize none }) ∨
      (a = .interrupted ∧ d' = d) ∨ ((a = .failed ∨ a = .eof) ∧ d' = { d with pc := .accept }) ∨
      (∃ bytes, a = .read bytes ∧ bytes ≠ []) ∨ ∃ n, a = .wrote n := by
  obtain ⟨v, pc⟩ := d
  cases a with
  | accepted =>
    cases pc with
    | accept =>
      obtain rfl := Option.some.inj h
      exact .inl ⟨rfl, rfl, rfl⟩
    | _ => simp [Daemon.answer] at h
  | interrupted =>
    cases pc with
    | accept | execute | lost => simp [Daemon.answer] at h
    | _ =>
      obtain rfl := Option.some.inj h
      exact .inr (.inl ⟨rfl, rfl⟩)
  | failed =>
    cases pc with
    | execute | lost => simp [Daemon.answer] at h
    | _ =>
      obtain rfl := Option.some.inj h
      exact .inr (.inr (.inl ⟨.inl rfl, rfl⟩))
  | eof =>
    cases pc with
    | readSize low =>
      obtain rfl := Option.some.inj h
      exact .inr (.inr (.inl ⟨.inr rfl, rfl⟩))
    | readCommand count n hn hc =>
      obtain rfl := Option.some.inj h
      exact .inr (.inr (.inl ⟨.inr rfl, rfl⟩))
    | _ => simp [Daemon.answer] at h
  | read bytes =>
    refine .inr (.inr (.inr (.inl ⟨bytes, rfl, ?_⟩)))
    rintro rfl
    cases pc with
    | readSize low => cases low <;> simp [Daemon.answer] at h
    | _ => simp [Daemon.answer] at h
  | wrote n => exact .inr (.inr (.inr (.inr ⟨n, rfl⟩)))

theorem answer_accepted (h : d.answer .accepted = some d') :
    d.pc = .accept ∧ d' = { d with pc := .readSize none } := by
  simpa using answer_cases h

theorem answer_interrupted (h : d.answer .interrupted = some d') : d' = d := by
  simpa using answer_cases h

/-- A failure leads back to `accept`. -/
theorem answer_failed (h : d.answer .failed = some d') : d' = { d with pc := .accept } := by
  simpa using answer_cases h

theorem answer_eof (h : d.answer .eof = some d') : d' = { d with pc := .accept } := by
  simpa using answer_cases h

theorem answer_read_nil : d.answer (.read []) = none := by
  cases h : d.answer (.read []) with
  | none => rfl
  | some d' => simpa using answer_cases h

/-- What both `writex` calls have left, as one text. -/
def Pc.unsent : Pc → List UInt8
  | .write size reply => size ++ reply
  | _ => []

/-- The two ways to go on behind bytes written. -/
def Wrote (left : List UInt8) (pc : Pc) : Prop :=
  left = [] ∧ pc = .readSize none ∨
    left ≠ [] ∧ ∃ size reply, left = size ++ reply ∧ pc = .write size reply

theorem wrote_writing (d : Daemon) (size reply : List UInt8) :
    Wrote (size ++ reply) (d.writing size reply).pc := by
  rw [Daemon.writing]
  by_cases hnil : size = [] ∧ reply = []
  · exact Or.inl ⟨by simp [hnil], by rw [if_pos hnil]⟩
  · exact Or.inr ⟨by simpa using hnil, size, reply, rfl, by rw [if_neg hnil]⟩

/-- Bytes of the reply leave in order. -/
theorem answer_wrote {n : ℕ} (h : d.answer (.wrote n) = some d') :
    ∃ left, d.pc.unsent = d.pc.offers.take n ++ left ∧ Wrote left d'.pc ∧
      ∃ size reply, d.pc = .write size reply := by
  obtain ⟨v, pc⟩ := d
  cases pc with
  | write size reply =>
    simp only [Daemon.answer] at h
    by_cases hsize : size = []
    · subst hsize
      simp only [ne_eq, not_true_eq_false, ↓reduceIte, Option.ite_none_right_eq_some,
        Option.some.injEq] at h
      obtain ⟨-, rfl⟩ := h
      refine ⟨[] ++ reply.drop n, ?_, wrote_writing _ _ _, _, _, rfl⟩
      simp [Pc.unsent, Pc.offers]
    · simp only [ne_eq, hsize, not_false_eq_true, ↓reduceIte, Option.ite_none_right_eq_some,
        Option.some.injEq] at h
      obtain ⟨-, rfl⟩ := h
      refine ⟨size.drop n ++ reply, ?_, wrote_writing _ _ _, _, _, rfl⟩
      simp [Pc.unsent, Pc.offers, hsize, ← List.append_assoc]
  | readSize low => cases low <;> simp [Daemon.answer] at h
  | _ => simp [Daemon.answer] at h

/-- The reply is short and not empty. -/
theorem length_reply (cmds : List CmdInfo) (v : Buffer) :
    1 ≤ (execute cmds v).reply.length ∧ (execute cmds v).reply.length ≤ 267 := by
  refine ⟨?_, length_format_le _⟩
  have hne := Decimal.decimal_ne_nil (execute cmds v).dispatched.answer.ret.toInt
  have hpos := List.length_pos_iff.mpr hne
  rw [Executed.reply, format, List.length_append, ascii, List.length_map]
  omega

/-- A command that does not scan past the buffer leaves its reply to be
written. -/
theorem run_eq {cmds : List CmdInfo} (h : (execute cmds d.buf).scan.exit ≠ .overrun) :
    d.run cmds =
      { buf := store (execute cmds d.buf).scan.buf (execute cmds d.buf).scan.cmd
          (execute cmds d.buf).printed
        pc := .write (le16 (execute cmds d.buf).reply.length) (execute cmds d.buf).reply } := by
  have hle := (length_reply cmds d.buf).2
  have hmax : bufferMax = 1024 := rfl
  have hcount : (execute cmds d.buf).count = (execute cmds d.buf).reply.length := by
    rw [Executed.count]
    omega
  have hprinted : (execute cmds d.buf).printed.take (execute cmds d.buf).reply.length =
      (execute cmds d.buf).reply := by
    have htake : (execute cmds d.buf).reply.take (bufferMax - 1) = (execute cmds d.buf).reply :=
      List.take_of_length_le (by omega)
    rw [Executed.printed, htake, List.take_left]
  rw [Daemon.run, if_neg h, hcount, hprinted]

theorem run_pc (d : Daemon) (cmds : List CmdInfo) :
    (d.run cmds).pc = .lost ∨
      ∃ text, (d.run cmds).pc = .write (le16 text.length) text ∧ 1 ≤ text.length ∧
        text.length ≤ 267 := by
  by_cases h : (execute cmds d.buf).scan.exit = .overrun
  · exact Or.inl (by rw [Daemon.run, if_pos h])
  · exact Or.inr ⟨_, by rw [run_eq h], length_reply cmds d.buf⟩

/-! ## Reading a frame -/

/-- **Where the daemon stands after the bytes `got` of a frame.** -/
inductive Consumed : List UInt8 → Daemon → Prop
  | start (v : Buffer) : Consumed [] ⟨v, .readSize none⟩
  | low (v : Buffer) (low : UInt8) : Consumed [low] ⟨v, .readSize (some low)⟩
  | command (v : Buffer) (low high : UInt8) (bs : List UInt8) (count n : ℕ) (hn : n < count)
      (hc : count < bufferMax) (hlen : n = bs.length) (hcount : ofLe16 low high = count)
      (hv : HoldsAt v 0 bs) : Consumed (low :: high :: bs) ⟨v, .readCommand count n hn hc⟩
  | full (v : Buffer) (low high : UInt8) (bs : List UInt8) (hcount : ofLe16 low high = bs.length)
      (hv : Loaded v bs) : Consumed (low :: high :: bs) ⟨v, .execute⟩

theorem consumed_sized (v : Buffer) (pc : Pc) (low high : UInt8) :
    ((⟨v, pc⟩ : Daemon).sized (ofLe16 low high)).pc = .accept ∨
      Consumed [low, high] ((⟨v, pc⟩ : Daemon).sized (ofLe16 low high)) := by
  rw [Daemon.sized]
  split
  · rename_i h
    exact Or.inr (.command v low high [] _ 0 h.1 h.2 rfl rfl (holdsAt_nil v 0))
  · exact Or.inl rfl

/-- Bytes of the command stand behind those already there, and the last of
them complete it. -/
theorem received_cases (v : Buffer) (pc : Pc) {got bs : List UInt8} {count : ℕ}
    (hc : count < bufferMax) (hv : HoldsAt v 0 got) (hle : got.length + bs.length ≤ count) :
    (∃ hlt, (⟨v, pc⟩ : Daemon).received count got.length hc bs =
        ⟨store v got.length bs, .readCommand count (got.length + bs.length) hlt hc⟩ ∧
      HoldsAt (store v got.length bs) 0 (got ++ bs)) ∨
    count = (got ++ bs).length ∧
      ∃ v', (⟨v, pc⟩ : Daemon).received count got.length hc bs = ⟨v', .execute⟩ ∧
        Loaded v' (got ++ bs) := by
  have hstore : HoldsAt (store v got.length bs) 0 (got ++ bs) := by
    rw [holdsAt_append, Nat.zero_add]
    exact ⟨hv.store _ bs (Or.inr (by omega)), holdsAt_store v _ bs (by omega)⟩
  rw [Daemon.received]
  split
  · rename_i hlt
    exact Or.inl ⟨hlt, rfl, hstore⟩
  · rename_i hge
    have hlen : (got ++ bs).length = count := by
      rw [List.length_append]
      omega
    refine Or.inr ⟨hlen.symm, _, rfl, ?_⟩
    -- the terminator goes behind the command
    rw [Loaded, holdsAt_append, holdsAt_singleton, Nat.zero_add, hlen]
    exact ⟨hstore.set hc 0 (Or.inr (by omega)), Vector.getElem?_set_self hc⟩

theorem consumed_received (v : Buffer) (pc : Pc) {low high : UInt8} {got bs : List UInt8}
    {count : ℕ} (hc : count < bufferMax) (hcount : ofLe16 low high = count)
    (hv : HoldsAt v 0 got) (hle : got.length + bs.length ≤ count) :
    Consumed (low :: high :: (got ++ bs))
      ((⟨v, pc⟩ : Daemon).received count got.length hc bs) := by
  rcases received_cases v pc hc hv hle with ⟨hlt, heq, hbuf⟩ | ⟨hlen, v', heq, hload⟩
  · rw [heq]
    exact .command _ low high _ _ _ hlt hc (by rw [List.length_append]) hcount hbuf
  · rw [heq]
    exact .full _ low high _ (hcount.trans hlen) hload

/-- **Bytes read extend what is consumed**, unless the size is refused. -/
theorem Consumed.read {got bs : List UInt8} (hd : Consumed got d)
    (h : d.answer (.read bs) = some d') : d'.pc = .accept ∨ Consumed (got ++ bs) d' := by
  rcases hd with v | ⟨v, low⟩ | ⟨v, low, high, got, count, n, hn, hc, hlen, hcount, hv⟩ |
    ⟨v, low, high, got, hcount, hv⟩
  · -- the first byte of the size, or both
    rcases bs with _ | ⟨low, _ | ⟨high, _ | ⟨b, bs⟩⟩⟩
    · simp [Daemon.answer] at h
    · obtain rfl := Option.some.inj h
      exact Or.inr (.low v low)
    · obtain rfl := Option.some.inj h
      exact consumed_sized v _ low high
    · simp [Daemon.answer] at h
  · rcases bs with _ | ⟨high, _ | ⟨b, bs⟩⟩
    · simp [Daemon.answer] at h
    · obtain rfl := Option.some.inj h
      exact consumed_sized v _ low high
    · simp [Daemon.answer] at h
  · subst hlen
    simp only [Daemon.answer, Option.ite_none_right_eq_some, Option.some.injEq] at h
    obtain ⟨⟨-, hle⟩, rfl⟩ := h
    exact Or.inr (consumed_received v _ hc hcount hv hle)
  · simp [Daemon.answer] at h

/-- What was consumed when the command runs: the whole frame of the command
in the buffer. -/
theorem Consumed.eq_frame {got c : List UInt8} (hd : Consumed got d) (hpc : d.pc = .execute)
    (hpre : got <+: frame c) (hc : c.length < 2 ^ 16) : got = frame c ∧ Loaded d.buf c := by
  rcases hd with v | ⟨v, low⟩ | ⟨v, low, high, bs, count, n, hn, hlt, hlen, hcount, hv⟩ |
    ⟨v, low, high, bs, hcount, hv⟩
  · simp at hpc
  · simp at hpc
  · simp at hpc
  · obtain ⟨rfl, hframe⟩ := eq_of_prefix_frame hpre hc hcount
    exact ⟨hframe, hv⟩

/-- The states in which a frame is read. -/
theorem Consumed.reads {got : List UInt8} (hd : Consumed got d) :
    d.pc ≠ .accept ∧ ∀ n, d.answer (.wrote n) = none := by
  rcases hd with v | ⟨v, low⟩ | ⟨v, low, high, bs, count, n, hn, hlt, hlen, hcount, hv⟩ |
    ⟨v, low, high, bs, hcount, hv⟩
  all_goals exact ⟨by simp, fun n => by simp [Daemon.answer]⟩

end Xloaderd

end Dynamicloader
