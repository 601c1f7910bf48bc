import Dynamicloader.Session.Phases
/-!
# The client's view of its connection

The assertions that hold between the client's calls, from one transaction's
point of view: it has no connection (`Off`), it has sent a part of its
frame (`Sending`), it has sent the whole frame and read a part of the reply
(`Waiting`), or it has returned (`Finished`). The daemon keeps each of
them, so each can be assumed at the client's next call, and one lemma for
each kind of call says which of them holds behind it.
-/

namespace Dynamicloader

namespace Session

open Memory Xloaderd

variable {w w' : World} {c t : ℕ} {sent got text : List UInt8} {cmd : String}

theorem DaemonStep.commands (hs : DaemonStep w w') : w'.commands = w.commands := by
  cases hs <;> simp [World.setConn, World.record, World.dropPending]

theorem DaemonStep.log (hs : DaemonStep w w') : w.log <+: w'.log := by
  cases hs <;> simp [World.setConn, World.record, World.dropPending]

/-- Transaction `t` is under way, and its command is `cmd`. -/
structure Now (t : ℕ) (cmd : String) (w : World) : Prop where
  last : w.commands.length = t + 1
  command : w.command t = Xloader.getBytes cmd

theorem Now.congr (h : Now t cmd w) (hc : w'.commands = w.commands) : Now t cmd w' :=
  ⟨by rw [hc]; exact h.last, by rw [World.command, hc]; exact h.command⟩

theorem Now.begun (h : Now t cmd w) : t < w.commands.length := by
  rw [h.last]
  exact Nat.lt_succ_self t

/-- The client has no connection, and its command has not run. -/
structure Off (t : ℕ) (cmd : String) (w : World) : Prop where
  now : Now t cmd w
  inv : Inv w
  current : w.current = none
  fresh : Fresh w t

/-- The client has sent less than the frame of `text`. -/
structure Sending (t : ℕ) (cmd : String) (c : ℕ) (text sent : List UInt8) (w : World) :
    Prop where
  now : Now t cmd w
  inv : Inv w
  fresh : Fresh w t
  flow : Flow w c t sent
  isPrefix : sent <+: frame text
  unfinished : sent ≠ frame text
  short : text.length < 2 ^ 16

/-- The client has sent the whole frame, and read `got` of the reply. -/
structure Waiting (t : ℕ) (cmd : String) (c : ℕ) (got : List UInt8) (w : World) : Prop where
  now : Now t cmd w
  inv : Inv w
  short : (Xloader.getBytes cmd).length < 2 ^ 16
  phase : got = [] ∧ Flow w c t (frame (Xloader.getBytes cmd)) ∧
      (Fresh w t ∨ (w.conns c).side = .closed) ∨
    Answered w c t got

/-- Between transactions: the connection behind the socket is quiet. -/
structure Linked (x : Xloader.State) (w : World) : Prop where
  inv : Inv w
  quiet : x.socket = true → ∃ c, Flow w c 0 []
  none : x.socket = false → w.current = none

/-- Transaction `t` has returned. -/
structure Finished (t : ℕ) (r : Option (List UInt8) × Xloader.State) (w : World) : Prop where
  last : w.commands.length = t + 1
  linked : Linked r.2 w
  reply : ∀ text ∈ r.1, ∃ x ∈ w.log, x.owner = some t ∧ x.reply = some text

/-! ## What the daemon keeps -/

/-- A connection on which nothing is sent carries no transaction's bytes. -/
theorem Flow.retag {t' : ℕ} (hf : Flow w c t []) : Flow w c t' [] :=
  ⟨hf.current, hf.clientOpen, hf.reply, hf.pending, hf.accepted, hf.closed⟩

theorem ripe_of_current_none (hI : Inv w) (hcur : w.current = none) : Ripe w :=
  ripe_of_current hI fun c hc => by simp [hcur] at hc

theorem attached_free (hI : Inv w) (hcur : w.current = none) (hatt : w.attached = w.current) :
    w.daemon.pc ≠ .execute := by
  rw [hcur] at hatt
  rcases hI.free hatt with hpc | hpc <;> simp [hpc]

theorem DaemonStep.current (hs : DaemonStep w w') : w'.current = w.current := by
  cases hs <;> simp [World.setConn, World.record, World.dropPending]

theorem off_stable : arena.Stable (Off t cmd) := by
  intro w w' hs h
  exact ⟨h.now.congr hs.commands, h.inv.step (ripe_of_current_none h.inv h.current) hs,
    by rw [hs.current, h.current],
    h.fresh.step h.inv (attached_free h.inv h.current) hs⟩

/-- As long as the frame is not complete, the daemon does not run it. -/
theorem Flow.not_execute (hf : Flow w c t sent) (hpre : sent <+: frame text)
    (hne : sent ≠ frame text) (hlen : text.length < 2 ^ 16) (hatt : w.attached = some c) :
    w.daemon.pc ≠ .execute :=
  fun hpc => hne (hf.sent_eq hatt hpc hpre hlen).1

theorem Flow.step_unfinished (hI : Inv w) (hf : Flow w c t sent) (hpre : sent <+: frame text)
    (hne : sent ≠ frame text) (hlen : text.length < 2 ^ 16) (hs : DaemonStep w w') :
    Inv w' ∧ Flow w' c t sent :=
  ⟨hI.step (hf.ripe_of_unfinished hI hpre hne hlen) hs,
    (hf.step hI hpre hlen hs).resolve_right fun h => hne h.1⟩

theorem sending_stable : arena.Stable (Sending t cmd c text sent) := by
  intro w w' hs h
  obtain ⟨hI, hf⟩ := h.flow.step_unfinished h.inv h.isPrefix h.unfinished h.short hs
  refine ⟨h.now.congr hs.commands, hI, h.fresh.step h.inv (fun hatt => ?_) hs, hf, h.isPrefix,
    h.unfinished, h.short⟩
  exact h.flow.not_execute h.isPrefix h.unfinished h.short (hatt.trans h.flow.current)

theorem frame_ne_nil (text : List UInt8) : [] ≠ frame text := by
  simp [frame, le16]

theorem linked_stable {x : Xloader.State} : arena.Stable (Linked x) := by
  intro w w' hs h
  cases hx : x.socket with
  | true =>
    obtain ⟨c, hf⟩ := h.quiet hx
    obtain ⟨hI, hf⟩ := hf.step_unfinished h.inv (List.nil_prefix (l := frame []))
      (frame_ne_nil []) (by simp) hs
    exact ⟨hI, fun _ => ⟨c, hf⟩, fun hx' => by simp [hx] at hx'⟩
  | false =>
    have hcur := h.none hx
    exact ⟨h.inv.step (ripe_of_current_none h.inv hcur) hs, fun hx' => by simp [hx] at hx',
      fun _ => by rw [hs.current, hcur]⟩

theorem finished_stable {r : Option (List UInt8) × Xloader.State} :
    arena.Stable (Finished t r) := by
  intro w w' hs h
  refine ⟨by rw [hs.commands]; exact h.last, linked_stable w w' hs h.linked, fun text htext => ?_⟩
  obtain ⟨x, hx, hx'⟩ := h.reply text htext
  exact ⟨x, hs.log.subset hx, hx'⟩

theorem waiting_stable : arena.Stable (Waiting t cmd c got) := by
  intro w w' hs h
  have hnow := h.now.congr hs.commands
  rcases h.phase with ⟨rfl, hf, hphase⟩ | ha
  · have hpre := List.prefix_refl (frame (Xloader.getBytes cmd))
    have hI' : Inv w' := by
      refine h.inv.step ?_ hs
      rcases hphase with hfresh | hcl
      · rw [← h.now.command] at hf
        exact hf.ripe h.inv hfresh.unexecuted h.now.begun (List.prefix_refl _)
          (by rw [h.now.command]; exact h.short)
      · refine ripe_of_current h.inv fun a ha _ => ?_
        obtain rfl := Option.some.inj (hf.current.symm.trans ha)
        exact hf.closed hcl
    refine ⟨hnow, hI', h.short, ?_⟩
    rcases hf.step h.inv hpre h.short hs with hf' | ⟨-, ha⟩
    · rcases hphase with hfresh | hcl
      · -- the command is run, or it is still new
        by_cases hx : w.attached = w.current → w.daemon.pc ≠ .execute
        · exact Or.inl ⟨rfl, hf', Or.inl (hfresh.step h.inv hx hs)⟩
        · obtain ⟨hatt, hpc⟩ := Classical.not_imp.mp hx
          have hatt := hatt.trans hf.current
          rcases hf.step_execute h.inv hatt (not_not.mp hpc) hpre h.short hs with ha | hcl
          · exact Or.inr ha
          · exact Or.inl ⟨rfl, hf', Or.inr hcl⟩
      · exact Or.inl ⟨rfl, hf', Or.inr (closed_step h.inv hcl hs)⟩
    · exact Or.inr ha
  · refine ⟨hnow, h.inv.step (ripe_of_current h.inv fun a hcur _ => ?_) hs, h.short,
      Or.inr (ha.step h.inv hs)⟩
    obtain rfl := Option.some.inj (ha.current.symm.trans hcur)
    exact ha.request

/-! ## What the calls do -/

/-- `World` after the client has closed connection `c`. -/
def World.closed (w : World) (c : ℕ) : World :=
  { w.setConn c { w.conns c with request := [], reply := [], clientOpen := false } with
    current := none }

theorem Inv.closed (hI : Inv w) (hcur : w.current = some c) : Inv (w.closed c) := by
  have hset : Inv (w.setConn c
      { w.conns c with request := [], reply := [], clientOpen := false }) :=
    hI.setConn rfl fun _ => rfl
  refine ⟨hset.own_congr rfl, hset.once, hset.replies, fun a _ => ?_, hset.attached_lt,
    fun a ha => ?_, hset.side, hset.free, hset.busy, hset.exec_congr rfl⟩
  · -- the connection given up is emptied, and the others already were
    by_cases hac : a = c
    · simp [World.closed, World.setConn, hac]
    · refine hset.stale a fun h => hac ?_
      exact Option.some.inj (h.symm.trans hcur)
  · simp [World.closed] at ha

theorem Sending.closed (h : Sending t cmd c text sent w) : Off t cmd (w.closed c) := by
  refine ⟨h.now.congr rfl, h.inv.closed h.flow.current, rfl, ⟨h.fresh.unexecuted, fun hpc _ => ?_⟩⟩
  refine h.fresh.held hpc fun hatt => ?_
  exact h.flow.not_execute h.isPrefix h.unfinished h.short (hatt.trans h.flow.current) hpc

theorem Waiting.current (h : Waiting t cmd c got w) : w.current = some c := by
  rcases h.phase with ⟨-, hf, -⟩ | ha
  · exact hf.current
  · exact ha.current

/-- A new connection. -/
theorem Off.connected (h : Off t cmd w) :
    Sending t cmd w.next [] []
      { w.setConn w.next {} with next := w.next + 1, current := some w.next } := by
  -- the daemon cannot hold a connection that did not exist
  have hatt : w.attached ≠ some w.next := fun ha => Nat.lt_irrefl _ (h.inv.attached_lt _ ha)
  refine ⟨h.now.congr rfl, ⟨h.inv.own_congr rfl, h.inv.once, h.inv.replies, fun a ha => ?_,
    fun a ha => ?_, fun a ha => ?_, fun a => ?_, h.inv.free, h.inv.busy, h.inv.exec_congr rfl⟩,
    ⟨h.fresh.unexecuted, fun hpc _ => ?_⟩, ⟨rfl, ?_, ?_, fun _ => ?_, fun ha => ?_, fun hcl => ?_⟩,
    List.nil_prefix, frame_ne_nil [], by simp⟩
  · have hne : a ≠ w.next := fun hne => ha (by rw [hne])
    have := h.inv.stale a (by simp [h.current])
    simpa [World.setConn, hne] using this
  · exact Nat.lt_succ_of_lt (h.inv.attached_lt a ha)
  · obtain rfl := Option.some.inj ha
    exact Nat.lt_succ_self _
  · have := h.inv.side a
    by_cases hne : a = w.next
    · subst hne
      simpa [World.setConn] using hatt
    · simpa [World.setConn, hne] using this
  · exact h.fresh.held hpc fun hatt => attached_free h.inv h.current hatt hpc
  · simp [World.setConn]
  · simp [World.setConn]
  · simp [World.setConn, tag]
  · exact absurd ha hatt
  · simp [World.setConn] at hcl

theorem deliver_closed {bytes : List UInt8} (hcl : (w.conns c).side = .closed) :
    w.deliver c bytes = w := if_pos hcl

theorem deliver_open {bytes : List UInt8} (hcl : (w.conns c).side ≠ .closed) :
    w.deliver c bytes = w.setConn c { w.conns c with
      request := (w.conns c).request ++ tag (w.commands.length - 1) bytes } := if_neg hcl

/-- **Bytes written extend what is sent.** -/
theorem Flow.deliver (hI : Inv w) (hf : Flow w c t sent) (hlast : w.commands.length = t + 1)
    (bytes : List UInt8) : Flow (w.deliver c bytes) c t (sent ++ bytes) := by
  by_cases hcl : (w.conns c).side = .closed
  · rw [deliver_closed hcl]
    refine ⟨hf.current, hf.clientOpen, hf.reply, fun hp => ?_, fun hatt => ?_, hf.closed⟩
    · simp [hcl] at hp
    · rw [(hI.side c).mpr hatt] at hcl
      simp at hcl
  · rw [deliver_open hcl]
    have ht : w.commands.length - 1 = t := by omega
    refine ⟨hf.current, ?_, ?_, fun hp => ?_, fun hatt => ?_, fun hcl' => ?_⟩
    · simpa [World.setConn] using hf.clientOpen
    · simpa [World.setConn] using hf.reply
    · rw [setConn_conns_self] at hp ⊢
      rw [tag_append, ← hf.pending hp, ht]
    · obtain ⟨hheld, hcons⟩ := hf.accepted hatt
      rw [setConn_conns_self]
      refine ⟨?_, hcons⟩
      rw [tag_append, ← hheld, List.append_assoc, ht]
      rfl
    · rw [setConn_conns_self] at hcl'
      exact absurd hcl' hcl

theorem Inv.deliver (hI : Inv w) (hcur : w.current = some c) (bytes : List UInt8) :
    Inv (w.deliver c bytes) := by
  by_cases hcl : (w.conns c).side = .closed
  · rw [deliver_closed hcl]
    exact hI
  · rw [deliver_open hcl]
    exact hI.setConn rfl fun h => absurd hcur h

theorem Fresh.deliver (hf : Fresh w t) (c : ℕ) (bytes : List UInt8) :
    Fresh (w.deliver c bytes) t := by
  unfold World.deliver
  split
  · exact hf
  · exact ⟨hf.unexecuted, hf.held⟩

theorem deliver_commands (w : World) (c : ℕ) (bytes : List UInt8) :
    (w.deliver c bytes).commands = w.commands := by
  unfold World.deliver
  split <;> rfl

/-- More of the frame is written, but not all. -/
theorem Sending.wrote (h : Sending t cmd c text sent w) {bytes rest : List UInt8}
    (hframe : sent ++ bytes ++ rest = frame text) (hrest : rest ≠ []) :
    Sending t cmd c text (sent ++ bytes) (w.deliver c bytes) := by
  refine ⟨h.now.congr (deliver_commands w c bytes), h.inv.deliver h.flow.current bytes,
    h.fresh.deliver c bytes, h.flow.deliver h.inv h.now.last bytes, ⟨rest, hframe⟩, fun heq => ?_,
    h.short⟩
  rw [← heq] at hframe
  exact hrest (List.append_right_eq_self.mp hframe)

/-- The rest of the frame is written. -/
theorem Sending.wrote_all (h : Sending t cmd c (Xloader.getBytes cmd) sent w)
    {bytes : List UInt8} (hframe : sent ++ bytes = frame (Xloader.getBytes cmd)) :
    Waiting t cmd c [] (w.deliver c bytes) := by
  refine ⟨h.now.congr (deliver_commands w c bytes), h.inv.deliver h.flow.current bytes, h.short,
    Or.inl ⟨rfl, ?_, Or.inl (h.fresh.deliver c bytes)⟩⟩
  rw [← hframe]
  exact h.flow.deliver h.inv h.now.last bytes

/-- Bytes of the reply are read. -/
theorem Waiting.read (h : Waiting t cmd c got w) {bytes rest : List UInt8} (hne : bytes ≠ [])
    (hreply : (w.conns c).reply = bytes ++ rest) :
    Waiting t cmd c (got ++ bytes) (w.setConn c { w.conns c with reply := rest }) := by
  rcases h.phase with ⟨-, hf, -⟩ | ha
  · -- nothing has been answered
    rw [hf.reply] at hreply
    exact absurd (List.append_eq_nil_iff.mp hreply.symm).1 hne
  · refine ⟨h.now.congr rfl, h.inv.setConn rfl fun hcur => absurd ha.current hcur, h.short, Or.inr ?_⟩
    obtain ⟨x, hx, howner, text, left, hr, hpos, hle, hframe, hw⟩ := ha.entry
    refine ⟨ha.current, ?_, ?_, ?_, ⟨x, hx, howner, text, left, hr, hpos, hle, ?_, hw⟩⟩
    · simpa [World.setConn] using ha.clientOpen
    · simpa [World.setConn] using ha.request
    · simpa [World.setConn] using ha.side
    · rw [hframe, hreply, setConn_conns_self]
      simp

/-- What is read is the reply to the command of the transaction. -/
theorem Waiting.reply_eq (h : Waiting t cmd c got w) (hne : got ≠ []) :
    ∃ x ∈ w.log, x.owner = some t ∧ ∃ text, x.reply = some text ∧ 1 ≤ text.length ∧
      text.length ≤ 267 ∧ got <+: frame text := by
  rcases h.phase with ⟨rfl, -, -⟩ | ha
  · exact absurd rfl hne
  · obtain ⟨x, hx, howner, text, left, hr, hpos, hle, hframe, -⟩ := ha.entry
    exact ⟨x, hx, howner, text, hr, hpos, hle, ⟨_, hframe.symm⟩⟩

end Session

end Dynamicloader
