import Dynamicloader.Session.Model
import Dynamicloader.Xloaderd.Answers
/-!
# The session invariant

`Inv` is what holds of the records and of the connections the client has
given up: their bytes are gone, so the daemon can only finish what it
already holds. The connection in use is in one of two phases. In `Flow` the
daemon has read some of what the transaction has sent and answered nothing;
in `Answered` it has run the command, and the reply is split into what the
client has read, what is on the way, and what the daemon has left to write.

The step lemmas say what each step of the daemon keeps.
-/

namespace Dynamicloader

namespace Session

open Memory Xloaderd

/-- The bytes of transaction `t`. -/
def tag (t : ℕ) (bs : List UInt8) : List (ℕ × UInt8) := bs.map fun b => (t, b)

theorem tag_append (t : ℕ) (bs cs : List UInt8) : tag t (bs ++ cs) = tag t bs ++ tag t cs :=
  List.map_append

theorem map_snd_tag (t : ℕ) (bs : List UInt8) : (tag t bs).map Prod.snd = bs := by
  simp [tag, Function.comp_def]

/-- The transaction the first byte of a frame belongs to. -/
def ownerOf (bytes : List (ℕ × UInt8)) : Option ℕ := bytes.head?.map Prod.fst

theorem ownerOf_tag_frame (t : ℕ) (c : List UInt8) : ownerOf (tag t (frame c)) = some t := rfl

def Execution.owner (x : Execution) : Option ℕ := ownerOf x.bytes

namespace World

/-- The bytes of the command of transaction `t`. -/
def command (w : World) (t : ℕ) : List UInt8 := Xloader.getBytes ((w.commands[t]?).getD "")

/-- No execution of transaction `t` is recorded. -/
def Unexecuted (w : World) (t : ℕ) : Prop := ∀ x ∈ w.log, x.owner ≠ some t

end World

/-- The execution `x` is one of transaction `t`: its frame is the one the
transaction writes, and its buffer holds the transaction's command. -/
structure Execution.IsOf (w : World) (x : Execution) (t : ℕ) : Prop where
  begun : t < w.commands.length
  bytes : x.bytes = tag t (frame (w.command t))
  loaded : Loaded x.buf (w.command t)

/-- **The invariant.** -/
structure Inv (w : World) : Prop where
  /-- Every execution is one of a transaction, and runs its command. -/
  own : ∀ x ∈ w.log, ∃ t, x.IsOf w t
  /-- No transaction is executed twice. -/
  once : (w.log.map Execution.owner).Nodup
  /-- A reply that was returned is the one to the transaction's command. -/
  replies : ∀ p ∈ w.replies, ∃ x ∈ w.log, x.owner = some p.1 ∧ x.reply = some p.2
  /-- Connections that are not in use carry no request. -/
  stale : ∀ c, w.current ≠ some c → (w.conns c).request = []
  attached_lt : ∀ c, w.attached = some c → c < w.next
  current_lt : ∀ c, w.current = some c → c < w.next
  side : ∀ c, (w.conns c).side = .accepted ↔ w.attached = some c
  free : w.attached = none → w.daemon.pc = .accept ∨ w.daemon.pc = .lost
  busy : w.attached ≠ none → w.daemon.pc ≠ .accept
  /-- A command about to run is one of a transaction without executions. -/
  exec : w.daemon.pc = .execute →
    ∃ t, (⟨w.held, w.daemon.buf, none⟩ : Execution).IsOf w t ∧ w.Unexecuted t

/-- The daemon has read some of what transaction `t` has sent on connection
`c`, and answered nothing. -/
structure Flow (w : World) (c t : ℕ) (sent : List UInt8) : Prop where
  current : w.current = some c
  clientOpen : (w.conns c).clientOpen = true
  reply : (w.conns c).reply = []
  pending : (w.conns c).side = .pending → (w.conns c).request = tag t sent
  accepted : w.attached = some c →
    w.held ++ (w.conns c).request = tag t sent ∧ Consumed (w.held.map Prod.snd) w.daemon
  closed : (w.conns c).side = .closed → (w.conns c).request = []

/-- The daemon has run the command of transaction `t` on connection `c`, and
the client has read `got` of the reply. -/
structure Answered (w : World) (c t : ℕ) (got : List UInt8) : Prop where
  current : w.current = some c
  clientOpen : (w.conns c).clientOpen = true
  request : (w.conns c).request = []
  side : (w.conns c).side ≠ .pending
  entry : ∃ x ∈ w.log, x.owner = some t ∧ ∃ text left, x.reply = some text ∧
    1 ≤ text.length ∧ text.length ≤ 267 ∧ frame text = got ++ ((w.conns c).reply ++ left) ∧
    (w.attached = some c → w.held = [] ∧ Wrote left w.daemon.pc)

/-- Transaction `t` has not been executed, and no connection given up can
lead to its execution. -/
structure Fresh (w : World) (t : ℕ) : Prop where
  unexecuted : w.Unexecuted t
  held : w.daemon.pc = .execute → w.attached ≠ w.current → ownerOf w.held ≠ some t

/-! ## Leaving a connection -/

section Leave

variable (w : World) (d : Daemon) (keep : ℕ)

@[simp] theorem leave_daemon : (w.leave d keep).daemon = d := by
  unfold World.leave; split <;> rfl

@[simp] theorem leave_attached : (w.leave d keep).attached = none := by
  unfold World.leave; split <;> simp_all

@[simp] theorem leave_log : (w.leave d keep).log = w.log := by
  unfold World.leave; split <;> rfl

@[simp] theorem leave_commands : (w.leave d keep).commands = w.commands := by
  unfold World.leave; split <;> rfl

@[simp] theorem leave_replies : (w.leave d keep).replies = w.replies := by
  unfold World.leave; split <;> rfl

@[simp] theorem leave_current : (w.leave d keep).current = w.current := by
  unfold World.leave; split <;> rfl

@[simp] theorem leave_next : (w.leave d keep).next = w.next := by
  unfold World.leave; split <;> rfl

theorem leave_conns_of_ne {c : ℕ} (h : w.attached ≠ some c) :
    (w.leave d keep).conns c = w.conns c := by
  unfold World.leave
  split
  · rfl
  · rename_i a ha
    have hne : c ≠ a := fun hca => h (by rw [ha, hca])
    simp [World.setConn, hne]

theorem leave_conns_self {c : ℕ} (h : w.attached = some c) :
    (w.leave d keep).conns c =
      { w.conns c with request := [], reply := (w.conns c).reply.take keep, side := .closed } := by
  unfold World.leave
  simp [h, World.setConn]

end Leave

section Records

variable {w w' : World}

/-- An execution stays one of its transaction while the commands stay. -/
theorem Execution.IsOf.congr {x : Execution} {t : ℕ} (h : x.IsOf w t)
    (hc : w'.commands = w.commands) : x.IsOf w' t := by
  have hcmd : w'.command t = w.command t := by rw [World.command, World.command, hc]
  exact ⟨by rw [hc]; exact h.begun, by rw [hcmd]; exact h.bytes, by rw [hcmd]; exact h.loaded⟩

theorem Execution.IsOf.owner {x : Execution} {t : ℕ} (h : x.IsOf w t) : x.owner = some t := by
  rw [Execution.owner, h.bytes, ownerOf_tag_frame]

/-- The records, in a world with the same commands. -/
theorem Inv.own_congr (h : Inv w) (hc : w'.commands = w.commands) :
    ∀ x ∈ w.log, ∃ t, x.IsOf w' t := by
  intro x hx
  obtain ⟨t, ht⟩ := h.own x hx
  exact ⟨t, ht.congr hc⟩

theorem Inv.exec_congr (h : Inv w) (hc : w'.commands = w.commands)
    (hpc : w.daemon.pc = .execute) :
    ∃ t, (⟨w.held, w.daemon.buf, none⟩ : Execution).IsOf w' t ∧ w.Unexecuted t := by
  obtain ⟨t, ht, hnew⟩ := h.exec hpc
  exact ⟨t, ht.congr hc, hnew⟩

theorem Inv.leave (h : Inv w) {d : Daemon} (hd : d.pc = .accept ∨ d.pc = .lost) (keep : ℕ) :
    Inv (w.leave d keep) := by
  refine ⟨?_, ?_, ?_, ?_, ?_, ?_, ?_, ?_, ?_, ?_⟩
  · rw [leave_log]
    exact h.own_congr (leave_commands w d keep)
  · rw [leave_log]
    exact h.once
  · intro p hp
    rw [leave_replies] at hp
    rw [leave_log]
    exact h.replies p hp
  · intro c hc
    rw [leave_current] at hc
    by_cases ha : w.attached = some c
    · rw [leave_conns_self w d keep ha]
    · rw [leave_conns_of_ne w d keep ha]
      exact h.stale c hc
  · intro c hc
    simp at hc
  · intro c hc
    rw [leave_current] at hc
    rw [leave_next]
    exact h.current_lt c hc
  · intro c
    by_cases ha : w.attached = some c
    · rw [leave_conns_self w d keep ha]
      simp
    · rw [leave_conns_of_ne w d keep ha, h.side c]
      simp [ha]
  · intro _
    rw [leave_daemon]
    exact hd
  · intro hne
    simp at hne
  · intro hpc
    rw [leave_daemon] at hpc
    rcases hd with hd | hd <;> simp [hd] at hpc

/-- The command in the buffer is run and recorded. -/
theorem Inv.executed (h : Inv w) (hpc : w.daemon.pc = .execute) (r : Option (List UInt8))
    {d : Daemon} (hd : d.pc ≠ .accept) (hd' : d.pc ≠ .execute) :
    Inv { w.record r with daemon := d, held := [] } := by
  obtain ⟨t, ht, hnew⟩ := h.exec hpc
  have hatt : w.attached ≠ none := by
    intro hnone
    rcases h.free hnone with hf | hf <;> simp [hf] at hpc
  refine ⟨?_, ?_, ?_, h.stale, h.attached_lt, h.current_lt, h.side, fun hnone => absurd hnone hatt,
    fun _ => hd, fun hex => absurd hex hd'⟩
  · intro x hx
    rcases List.mem_append.mp hx with hx | hx
    · refine h.own_congr ?_ x hx
      rfl
    · obtain rfl := List.mem_singleton.mp hx
      exact ⟨t, ⟨ht.begun, ht.bytes, ht.loaded⟩⟩
  · have howner : (⟨w.held, w.daemon.buf, r⟩ : Execution).owner = some t := ht.owner
    simp only [World.record, List.map_append, List.map_cons, List.map_nil, howner]
    rw [List.nodup_append]
    refine ⟨h.once, by simp, fun a ha b hb => ?_⟩
    obtain rfl := List.mem_singleton.mp hb
    obtain ⟨x, hx, rfl⟩ := List.mem_map.mp ha
    exact hnew x hx
  · intro p hp
    obtain ⟨x, hx, hx'⟩ := h.replies p hp
    exact ⟨x, List.mem_append_left _ hx, hx'⟩

theorem record_leave (w : World) (r : Option (List UInt8)) (d : Daemon) (keep : ℕ) :
    (w.record r).leave d keep =
      ({ w.record r with daemon := d, held := [] } : World).leave d keep := by
  unfold World.leave
  rfl

theorem Inv.dropPending (h : Inv w) (dropped : ℕ → Bool) : Inv (w.dropPending dropped) := by
  refine ⟨h.own_congr rfl, h.once, h.replies, fun c hc => ?_, h.attached_lt, h.current_lt,
    fun c => ?_, h.free, h.busy, h.exec_congr rfl⟩
  · have hreq := h.stale c hc
    simp only [World.dropPending]
    split
    · rfl
    · exact hreq
  · have hside := h.side c
    simp only [World.dropPending]
    split
    · rename_i hp
      rw [← hside, hp.2]
      simp
    · exact hside

/-- What the daemon would run if it read on now is a command of a
transaction without executions. -/
def Ripe (w : World) : Prop :=
  ∀ c d bytes rest, w.attached = some c → (w.conns c).request = bytes ++ rest →
    w.daemon.answer (.read (bytes.map Prod.snd)) = some d → d.pc = .execute →
    ∃ t, (⟨w.held ++ bytes, d.buf, none⟩ : Execution).IsOf w t ∧ w.Unexecuted t

theorem ripe_of_request_nil (h : ∀ c, w.attached = some c → (w.conns c).request = []) :
    Ripe w := by
  intro c d bytes rest hc hreq hread
  rw [h c hc] at hreq
  obtain ⟨rfl, -⟩ := List.append_eq_nil_iff.mp hreq.symm
  rw [List.map_nil, answer_read_nil] at hread
  exact absurd hread (by simp)

theorem setConn_conns_of_ne (w : World) {a c : ℕ} (k : Conn) (h : c ≠ a) :
    (w.setConn a k).conns c = w.conns c := by
  simp [World.setConn, h]

theorem setConn_conns_self (w : World) (c : ℕ) (k : Conn) : (w.setConn c k).conns c = k := by
  simp [World.setConn]

/-- A step that only changes how much of the request waits, or the reply. -/
theorem Inv.setConn (h : Inv w) {c : ℕ} {k : Conn} (hside : k.side = (w.conns c).side)
    (hreq : w.current ≠ some c → k.request = []) : Inv (w.setConn c k) := by
  refine ⟨h.own_congr rfl, h.once, h.replies, fun a ha => ?_, h.attached_lt, h.current_lt,
    fun a => ?_, h.free, h.busy, h.exec_congr rfl⟩
  · by_cases hac : a = c
    · subst hac
      rw [setConn_conns_self]
      exact hreq ha
    · rw [setConn_conns_of_ne w k hac]
      exact h.stale a ha
  · have := h.side a
    by_cases hac : a = c
    · subst hac
      rw [setConn_conns_self, hside]
      exact this
    · rw [setConn_conns_of_ne w k hac]
      exact this

/-- The daemon goes on to another place without leaving its connection. -/
theorem Inv.moved (h : Inv w) {d : Daemon} {held : List (ℕ × UInt8)} (hatt : w.attached ≠ none)
    (hd : d.pc ≠ .accept)
    (hexec : d.pc = .execute →
      ∃ t, (⟨held, d.buf, none⟩ : Execution).IsOf w t ∧ w.Unexecuted t) :
    Inv { w with daemon := d, held := held } := by
  refine ⟨h.own_congr rfl, h.once, h.replies, h.stale, h.attached_lt, h.current_lt, h.side,
    fun hnone => absurd hnone hatt, fun _ => hd, fun hpc => ?_⟩
  obtain ⟨t, ht, hnew⟩ := hexec hpc
  exact ⟨t, ht.congr rfl, hnew⟩

/-- A step that only repeats a call. -/
theorem again_eq (h : Inv w) {d : Daemon}
    (hd : w.daemon.answer .interrupted = some d ∨
      w.attached = none ∧ w.daemon.answer .failed = some d) : d = w.daemon := by
  rcases hd with hd | ⟨hnone, hd⟩
  · exact answer_interrupted hd
  · rcases h.free hnone with hpc | hpc
    · rw [answer_failed hd, ← hpc]
    · simp [Daemon.answer, hpc] at hd

/-- The daemon accepts a connection: it served none. -/
theorem attached_none_of_accepted (h : Inv w) {d : Daemon}
    (hd : w.daemon.answer .accepted = some d) : w.attached = none := by
  by_contra hne
  exact h.busy hne (answer_accepted hd).1

/-- **The invariant under a step of the daemon.** -/
theorem Inv.step (h : Inv w) (hr : Ripe w) (hs : DaemonStep w w') : Inv w' := by
  rcases hs with ⟨c, d, hc, hside, hd⟩ | ⟨d, hd⟩ | ⟨c, d, bytes, rest, hc, hreq, hd, hpc⟩ |
    ⟨c, d, bytes, rest, keep, hc, hreq, hd, hpc⟩ | ⟨c, d, keep, hc, hopen, hnil, hd⟩ |
    ⟨c, d, keep, hc, hd⟩ | ⟨cmds, size, text, hpc, hrun⟩ | ⟨cmds, keep, hpc, hrun⟩ |
    ⟨c, n, d, hc, hd⟩ | ⟨buf, keep, dropped⟩
  · -- accept
    have hnone := attached_none_of_accepted h hd
    obtain ⟨-, rfl⟩ := answer_accepted hd
    refine ⟨h.own_congr rfl, h.once, h.replies, fun a ha => ?_, fun a ha => ?_, h.current_lt,
      fun a => ?_, fun hnone => ?_, fun _ => by simp, fun hex => by simp at hex⟩
    · have := h.stale a ha
      by_cases hac : a = c <;> simpa [World.setConn, hac] using this
    · obtain rfl := Option.some.inj ha
      exact hc
    · have := h.side a
      by_cases hac : a = c
      · simp [World.setConn, hac]
      · simp only [World.setConn, hac, ↓reduceIte, this, hnone]
        simp [Ne.symm hac]
    · simp at hnone
  · rw [again_eq h hd]
    exact h
  · -- read
    have hatt : w.attached ≠ none := by simp [hc]
    have hex : d.pc = .execute → _ := hr c d bytes rest hc hreq hd
    have hmoved := h.moved hatt hpc hex
    refine hmoved.setConn (c := c) rfl fun hcur => ?_
    have := h.stale c hcur
    rw [hreq] at this
    exact (List.append_eq_nil_iff.mp this).2
  · exact h.leave (Or.inl hpc) keep
  · exact h.leave (Or.inl (by rw [answer_eof hd])) keep
  · exact h.leave (Or.inl (by rw [answer_failed hd])) keep
  · exact h.executed hpc _ (by simp [hrun]) (by simp [hrun])
  · rw [record_leave]
    exact (h.executed hpc none (by simp [hrun]) (by simp [hrun])).leave (Or.inr hrun) keep
  · -- write
    obtain ⟨left, -, hw, size, reply, hpc⟩ := answer_wrote hd
    have hatt : w.attached ≠ none := by simp [hc]
    have hd₁ : d.pc ≠ .accept ∧ d.pc ≠ .execute := by
      rcases hw with ⟨-, hw⟩ | ⟨-, _, _, -, hw⟩ <;> simp [hw]
    have hmoved : Inv { w with daemon := d, held := w.held } :=
      h.moved hatt hd₁.1 fun hex => absurd hex hd₁.2
    exact hmoved.setConn (c := c) rfl fun hcur => h.stale c hcur
  · exact (h.leave (Or.inl rfl) keep).dropPending dropped

end Records

end Session

end Dynamicloader
