import Dynamicloader.Session.Invariant
/-!
# The phases of the connection in use

What a step of the daemon does to each phase. A step keeps `Flow` until it
runs the command, which takes the connection to `Answered` or closes it;
it keeps `Answered`; and it keeps `Fresh` unless it runs the command of the
connection in use.
-/

namespace Dynamicloader

namespace Session

open Memory Xloaderd

variable {w w' : World} {c t : ℕ} {sent got text : List UInt8}

/-! ## What is kept when the daemon leaves its connection -/

theorem Flow.leave (hf : Flow w c t sent) (d : Daemon) (keep : ℕ) :
    Flow (w.leave d keep) c t sent := by
  by_cases ha : w.attached = some c
  · have hconn := leave_conns_self w d keep ha
    refine ⟨by rw [leave_current, hf.current], by rw [hconn]; exact hf.clientOpen,
      by rw [hconn]; simp [hf.reply], fun hp => ?_, fun hacc => ?_, fun _ => by rw [hconn]⟩
    · rw [hconn] at hp
      simp at hp
    · simp at hacc
  · have hconn := leave_conns_of_ne w d keep ha
    refine ⟨by rw [leave_current, hf.current], by rw [hconn]; exact hf.clientOpen,
      by rw [hconn]; exact hf.reply, fun hp => ?_, fun hacc => ?_, fun hcl => ?_⟩
    · rw [hconn] at hp ⊢
      exact hf.pending hp
    · simp at hacc
    · rw [hconn] at hcl ⊢
      exact hf.closed hcl

theorem Answered.leave (ha : Answered w c t got) (d : Daemon) (keep : ℕ) :
    Answered (w.leave d keep) c t got := by
  obtain ⟨x, hx, howner, text, left, hreply, hpos, hle, hframe, -⟩ := ha.entry
  by_cases hatt : w.attached = some c
  · have hconn := leave_conns_self w d keep hatt
    refine ⟨by rw [leave_current, ha.current], by rw [hconn]; exact ha.clientOpen, by rw [hconn],
      by rw [hconn]; simp, ⟨x, by rwa [leave_log], howner, text,
        (w.conns c).reply.drop keep ++ left, hreply, hpos, hle, ?_, by simp⟩⟩
    rw [hconn, hframe, ← List.append_assoc ((w.conns c).reply.take keep), List.take_append_drop]
  · have hconn := leave_conns_of_ne w d keep hatt
    exact ⟨by rw [leave_current, ha.current], by rw [hconn]; exact ha.clientOpen,
      by rw [hconn]; exact ha.request, by rw [hconn]; exact ha.side,
      ⟨x, by rwa [leave_log], howner, text, left, hreply, hpos, hle, by rw [hconn]; exact hframe,
        by simp⟩⟩

theorem Fresh.leave (hf : Fresh w t) {d : Daemon} (hd : d.pc ≠ .execute) (keep : ℕ) :
    Fresh (w.leave d keep) t := by
  refine ⟨fun x hx => ?_, fun hpc => ?_⟩
  · rw [leave_log] at hx
    exact hf.unexecuted x hx
  · rw [leave_daemon] at hpc
    exact absurd hpc hd

theorem Flow.dropPending (hf : Flow w c t sent) (hnone : w.attached = none) (dropped : ℕ → Bool) :
    Flow (w.dropPending dropped) c t sent := by
  by_cases hp : dropped c ∧ (w.conns c).side = .pending
  · have hconn : (w.dropPending dropped).conns c =
        { w.conns c with request := [], side := .closed } := if_pos hp
    refine ⟨hf.current, by rw [hconn]; exact hf.clientOpen, by rw [hconn]; exact hf.reply,
      fun hpend => ?_, fun hacc => ?_, fun _ => by rw [hconn]⟩
    · rw [hconn] at hpend
      simp at hpend
    · rw [World.dropPending, hnone] at hacc
      simp at hacc
  · have hconn : (w.dropPending dropped).conns c = w.conns c := if_neg hp
    exact ⟨hf.current, by rw [hconn]; exact hf.clientOpen, by rw [hconn]; exact hf.reply,
      by rw [hconn]; exact hf.pending, by rw [hconn]; exact hf.accepted,
      by rw [hconn]; exact hf.closed⟩

theorem Answered.dropPending (ha : Answered w c t got) (dropped : ℕ → Bool) :
    Answered (w.dropPending dropped) c t got := by
  have hconn : (w.dropPending dropped).conns c = w.conns c := if_neg fun hp => ha.side hp.2
  exact ⟨ha.current, by rw [hconn]; exact ha.clientOpen, by rw [hconn]; exact ha.request,
    by rw [hconn]; exact ha.side, by rw [hconn]; exact ha.entry⟩

/-! ## What the daemon does to a connection in use -/

/-- A connection the daemon does not serve stays as it is. -/
theorem Flow.elsewhere (hf : Flow w c t sent) (hconn : w'.conns c = w.conns c)
    (hcur : w'.current = w.current) (hatt : w'.attached ≠ some c) : Flow w' c t sent :=
  ⟨by rw [hcur, hf.current], by rw [hconn]; exact hf.clientOpen, by rw [hconn]; exact hf.reply,
    by rw [hconn]; exact hf.pending, fun h => absurd h hatt, by rw [hconn]; exact hf.closed⟩

/-- The daemon serves the connection, and holds the first bytes of it. -/
theorem Flow.served (hf : Flow w c t sent) (hcur : w'.current = w.current)
    (hopen : (w'.conns c).clientOpen = (w.conns c).clientOpen)
    (hreply : (w'.conns c).reply = (w.conns c).reply) (hside : (w'.conns c).side = .accepted)
    (hheld : w'.held ++ (w'.conns c).request = tag t sent)
    (hcons : Consumed (w'.held.map Prod.snd) w'.daemon) : Flow w' c t sent := by
  refine ⟨hcur.trans hf.current, hopen.trans hf.clientOpen, hreply.trans hf.reply, fun hp => ?_,
    fun _ => ⟨hheld, hcons⟩, fun hcl => ?_⟩
  · rw [hside] at hp
    cases hp
  · rw [hside] at hcl
    cases hcl

theorem Answered.elsewhere (ha : Answered w c t got) (hconn : w'.conns c = w.conns c)
    (hcur : w'.current = w.current) (hatt : w'.attached ≠ some c) (hlog : w.log <+: w'.log) :
    Answered w' c t got := by
  obtain ⟨x, hx, howner, text, left, hreply, hpos, hle, hframe, -⟩ := ha.entry
  exact ⟨by rw [hcur, ha.current], by rw [hconn]; exact ha.clientOpen,
    by rw [hconn]; exact ha.request, by rw [hconn]; exact ha.side,
    ⟨x, hlog.subset hx, howner, text, left, hreply, hpos, hle, by rw [hconn]; exact hframe,
      fun h => absurd h hatt⟩⟩

/-- The daemon serves no connection it could read from but the one in use. -/
theorem eq_of_read (hI : Inv w) (hcur : w.current = some c) {a : ℕ} {d : Daemon}
    {bytes rest : List (ℕ × UInt8)} (hreq : (w.conns a).request = bytes ++ rest)
    (hd : w.daemon.answer (.read (bytes.map Prod.snd)) = some d) : a = c := by
  by_contra hne
  have hnil : (w.conns a).request = [] := hI.stale a fun h => by
    rw [hcur] at h
    exact hne (Option.some.inj h).symm
  rw [hnil] at hreq
  obtain ⟨rfl, -⟩ := List.append_eq_nil_iff.mp hreq.symm
  rw [List.map_nil, answer_read_nil] at hd
  exact absurd hd (by simp)

/-- The bytes held are the first of those sent. -/
theorem Flow.held_isPrefix (hf : Flow w c t sent) (hatt : w.attached = some c) :
    w.held.map Prod.snd <+: sent := by
  have h := congrArg (List.map Prod.snd) (hf.accepted hatt).1
  rw [map_snd_tag, List.map_append] at h
  exact ⟨_, h⟩

/-- **The command of the connection in use runs**: everything was sent, and
everything read. -/
theorem Flow.sent_eq (hf : Flow w c t sent) (hatt : w.attached = some c)
    (hpc : w.daemon.pc = .execute) (hsent : sent <+: frame text) (hlen : text.length < 2 ^ 16) :
    sent = frame text ∧ (w.conns c).request = [] ∧ w.held = tag t (frame text) ∧
      Loaded w.daemon.buf text := by
  obtain ⟨hheld, hcons⟩ := hf.accepted hatt
  have hpre := hf.held_isPrefix hatt
  obtain ⟨heq, hload⟩ := hcons.eq_frame hpc (hpre.trans hsent) hlen
  have hsent' : sent = frame text := hsent.eq_of_length_le (by rw [← heq]; exact hpre.length_le)
  have hreq : (w.conns c).request = [] := by
    have h₁ := congrArg List.length hheld
    have h₂ := congrArg List.length heq
    rw [hsent'] at h₁
    simp only [tag, List.length_append, List.length_map] at h₁ h₂
    exact List.length_eq_zero_iff.mp (by omega)
  rw [hreq, List.append_nil, hsent'] at hheld
  exact ⟨hsent', hreq, hheld, hload⟩

/-- Running the command of the connection in use answers it. -/
theorem Flow.answered (hI : Inv w) (hf : Flow w c t sent) (hatt : w.attached = some c)
    (hpc : w.daemon.pc = .execute) (hsent : sent <+: frame text) (hlen : text.length < 2 ^ 16)
    {cmds : List CmdInfo} {size reply : List UInt8}
    (hrun : (w.daemon.run cmds).pc = .write size reply) :
    Answered { w.record (some reply) with daemon := w.daemon.run cmds, held := [] } c t [] := by
  obtain ⟨-, hreq, hheld, -⟩ := hf.sent_eq hatt hpc hsent hlen
  obtain ⟨hpos, hle, hframe⟩ : 1 ≤ reply.length ∧ reply.length ≤ 267 ∧
      size ++ reply = frame reply := by
    rcases run_pc w.daemon cmds with hlost | ⟨r, hr, hpos, hle⟩
    · simp [hrun] at hlost
    · rw [hrun] at hr
      simp only [Pc.write.injEq] at hr
      obtain ⟨rfl, rfl⟩ := hr
      exact ⟨hpos, hle, rfl⟩
  have hne : size ++ reply ≠ [] := by
    rw [hframe]
    simp [frame, le16]
  refine ⟨hf.current, hf.clientOpen, hreq, ?_, ⟨⟨w.held, w.daemon.buf, some reply⟩,
    List.mem_append_right _ (List.mem_singleton_self _), ?_, reply, size ++ reply, rfl, hpos, hle,
    ?_, fun _ => ⟨rfl, Or.inr ⟨hne, size, reply, rfl, hrun⟩⟩⟩⟩
  · intro hp
    have hp : (w.conns c).side = .pending := hp
    rw [(hI.side c).mpr hatt] at hp
    simp at hp
  · rw [Execution.owner, hheld, ownerOf_tag_frame]
  · have hnil : (w.conns c).reply = [] := hf.reply
    change frame reply = [] ++ ((w.conns c).reply ++ (size ++ reply))
    rw [hnil, hframe]
    rfl

/-! ## The steps of the daemon -/

/-- **`Flow` under a step**: it is kept, unless the command is answered. -/
theorem Flow.step (hI : Inv w) (hf : Flow w c t sent) (hsent : sent <+: frame text)
    (hlen : text.length < 2 ^ 16) (hs : DaemonStep w w') :
    Flow w' c t sent ∨ sent = frame text ∧ Answered w' c t [] := by
  rcases hs with ⟨a, d, ha, hside, hd⟩ | ⟨d, hd⟩ | ⟨a, d, bytes, rest, ha, hreq, hd, hpc⟩ |
    ⟨a, d, bytes, rest, keep, ha, hreq, hd, hpc⟩ | ⟨a, d, keep, ha, hopen, hnil, hd⟩ |
    ⟨a, d, keep, ha, hd⟩ | ⟨cmds, size, reply, hpc, hrun⟩ | ⟨cmds, keep, hpc, hrun⟩ |
    ⟨a, n, d, ha, hd⟩ | ⟨buf, keep, dropped⟩
  · -- accept: what waited for the daemon is what was sent
    left
    obtain ⟨-, rfl⟩ := answer_accepted hd
    by_cases hac : c = a
    · subst hac
      have hreq := hf.pending hside
      exact hf.served rfl (by simp [World.setConn]) (by simp [World.setConn])
        (by simp [World.setConn]) (by simpa [World.setConn] using hreq) (.start _)
    · exact hf.elsewhere (by simp [World.setConn, hac]) rfl (by simpa using Ne.symm hac)
  · rw [again_eq hI hd]
    exact Or.inl hf
  · -- read: from the connection in use
    left
    obtain rfl := eq_of_read hI hf.current hreq hd
    obtain ⟨hheld, hcons⟩ := hf.accepted ha
    have hcons' := (hcons.read hd).resolve_left hpc
    rw [hreq, ← List.append_assoc] at hheld
    exact hf.served rfl (by simp [World.setConn]) (by simp [World.setConn])
      (by simpa [World.setConn] using (hI.side a).mpr ha) (by simpa [World.setConn] using hheld)
      (by simpa using hcons')
  · exact Or.inl (hf.leave d keep)
  · exact Or.inl (hf.leave d keep)
  · exact Or.inl (hf.leave d keep)
  · -- execute
    by_cases hatt : w.attached = some c
    · exact Or.inr ⟨(hf.sent_eq hatt hpc hsent hlen).1, hf.answered hI hatt hpc hsent hlen hrun⟩
    · exact Or.inl (hf.elsewhere rfl rfl hatt)
  · -- crash
    left
    have hrec : Flow (w.record none) c t sent :=
      ⟨hf.current, hf.clientOpen, hf.reply, hf.pending, hf.accepted, hf.closed⟩
    exact hrec.leave _ keep
  · -- write: on another connection
    left
    have hne : c ≠ a := by
      rintro rfl
      have := (hf.accepted ha).2.reads.2 n
      rw [this] at hd
      simp at hd
    refine hf.elsewhere (by simp [World.setConn, hne]) rfl fun hatt => ?_
    exact hne (Option.some.inj (hatt.symm.trans ha))
  · exact Or.inl ((hf.leave _ keep).dropPending (leave_attached _ _ _) dropped)

/-- **`Answered` under a step.** -/
theorem Answered.step (hI : Inv w) (ha : Answered w c t got) (hs : DaemonStep w w') :
    Answered w' c t got := by
  have hexec (hatt : w.attached = some c) : w.daemon.pc ≠ .execute := by
    obtain ⟨x, -, -, text, left, -, -, -, -, hw⟩ := ha.entry
    rcases (hw hatt).2 with ⟨-, hpc⟩ | ⟨-, _, _, -, hpc⟩ <;> simp [hpc]
  rcases hs with ⟨a, d, hlt, hside, hd⟩ | ⟨d, hd⟩ | ⟨a, d, bytes, rest, hatt, hreq, hd, hpc⟩ |
    ⟨a, d, bytes, rest, keep, hatt, hreq, hd, hpc⟩ | ⟨a, d, keep, hatt, hopen, hnil, hd⟩ |
    ⟨a, d, keep, hatt, hd⟩ | ⟨cmds, size, reply, hpc, hrun⟩ | ⟨cmds, keep, hpc, hrun⟩ |
    ⟨a, n, d, hatt, hd⟩ | ⟨buf, keep, dropped⟩
  · have hne : c ≠ a := by
      rintro rfl
      exact ha.side hside
    exact ha.elsewhere (by simp [World.setConn, hne]) rfl (by simpa using Ne.symm hne)
      (List.prefix_refl _)
  · rw [again_eq hI hd]
    exact ha
  · -- read: nothing is left to read
    obtain rfl := eq_of_read hI ha.current hreq hd
    rw [ha.request] at hreq
    obtain ⟨rfl, -⟩ := List.append_eq_nil_iff.mp hreq.symm
    rw [List.map_nil, answer_read_nil] at hd
    exact absurd hd (by simp)
  · exact ha.leave d keep
  · exact ha.leave d keep
  · exact ha.leave d keep
  · have hatt : w.attached ≠ some c := fun h => hexec h hpc
    exact ha.elsewhere rfl rfl hatt (List.prefix_append _ _)
  · have hatt : w.attached ≠ some c := fun h => hexec h hpc
    have hrec : Answered (w.record none) c t got :=
      ha.elsewhere rfl rfl hatt (List.prefix_append _ _)
    exact hrec.leave _ keep
  · by_cases hac : c = a
    · -- write: more of the reply is on the way
      subst hac
      obtain ⟨x, hx, howner, text, left, hreply, hpos, hle, hframe, hw⟩ := ha.entry
      obtain ⟨hheld, hw⟩ := hw hatt
      obtain ⟨left', hleft, hw', size, reply, hpc⟩ := answer_wrote hd
      have hunsent : left = w.daemon.pc.unsent := by
        rcases hw with ⟨-, hpc'⟩ | ⟨-, size', reply', rfl, hpc'⟩
        · simp [hpc] at hpc'
        · rw [hpc', Pc.unsent]
      have hconn : (({ w.setConn c { w.conns c with
            reply := if (w.conns c).clientOpen then
              (w.conns c).reply ++ w.daemon.pc.offers.take n else (w.conns c).reply } with
          daemon := d } : World).conns c) =
          { w.conns c with reply := (w.conns c).reply ++ w.daemon.pc.offers.take n } := by
        simp [World.setConn, ha.clientOpen]
      refine ⟨ha.current, by rw [hconn]; exact ha.clientOpen, by rw [hconn]; exact ha.request,
        by rw [hconn]; exact ha.side,
        ⟨x, hx, howner, text, left', hreply, hpos, hle, ?_, fun _ => ⟨hheld, hw'⟩⟩⟩
      rw [hconn, hframe, hunsent, hleft]
      simp
    · refine ha.elsewhere (by simp [World.setConn, hac]) rfl (fun h => ?_) (List.prefix_refl _)
      exact hac (Option.some.inj (h.symm.trans hatt))
  · exact (ha.leave _ keep).dropPending dropped

/-- **`Fresh` under a step** that does not run the command in use. -/
theorem Fresh.step (hI : Inv w) (hf : Fresh w t)
    (hx : w.attached = w.current → w.daemon.pc ≠ .execute) (hs : DaemonStep w w') :
    Fresh w' t := by
  -- an execution on a connection given up is one of another transaction
  have hrecord (hpc : w.daemon.pc = .execute) (r : Option (List UInt8)) :
      (w.record r).Unexecuted t := by
    intro x hmem
    rcases List.mem_append.mp hmem with hmem | hmem
    · exact hf.unexecuted x hmem
    · obtain rfl := List.mem_singleton.mp hmem
      exact hf.held hpc fun h => hx h hpc
  rcases hs with ⟨a, d, hlt, hside, hd⟩ | ⟨d, hd⟩ | ⟨a, d, bytes, rest, hatt, hreq, hd, hpc⟩ |
    ⟨a, d, bytes, rest, keep, hatt, hreq, hd, hpc⟩ | ⟨a, d, keep, hatt, hopen, hnil, hd⟩ |
    ⟨a, d, keep, hatt, hd⟩ | ⟨cmds, size, reply, hpc, hrun⟩ | ⟨cmds, keep, hpc, hrun⟩ |
    ⟨a, n, d, hatt, hd⟩ | ⟨buf, keep, dropped⟩
  · obtain ⟨-, rfl⟩ := answer_accepted hd
    exact ⟨hf.unexecuted, fun hpc => by simp at hpc⟩
  · rw [again_eq hI hd]
    exact hf
  · refine ⟨hf.unexecuted, fun _ hne => ?_⟩
    -- only the connection in use can be read from
    exfalso
    have hcur : w.current ≠ some a := fun h => hne (hatt.trans h.symm)
    rw [hI.stale a hcur] at hreq
    obtain ⟨rfl, -⟩ := List.append_eq_nil_iff.mp hreq.symm
    rw [List.map_nil, answer_read_nil] at hd
    simp at hd
  · exact hf.leave (by simp [hpc]) keep
  · exact hf.leave (by simp [answer_eof hd]) keep
  · exact hf.leave (by simp [answer_failed hd]) keep
  · exact ⟨hrecord hpc _, fun hpc' => by simp [hrun] at hpc'⟩
  · refine ⟨fun x hmem => ?_, fun hpc' => ?_⟩
    · rw [leave_log] at hmem
      exact hrecord hpc none x hmem
    · rw [leave_daemon, hrun] at hpc'
      simp at hpc'
  · refine ⟨hf.unexecuted, fun hpc' => ?_⟩
    obtain ⟨left, -, hw, -⟩ := answer_wrote hd
    have hpc' : d.pc = .execute := hpc'
    rcases hw with ⟨-, hw⟩ | ⟨-, _, _, -, hw⟩ <;> simp [hw] at hpc'
  · have := hf.leave (d := ⟨buf, .accept⟩) (by simp) keep
    exact ⟨this.unexecuted, this.held⟩

/-- A connection the daemon has closed stays closed. -/
theorem closed_step (hI : Inv w) (hcl : (w.conns c).side = .closed) (hs : DaemonStep w w') :
    (w'.conns c).side = .closed := by
  have hne {a : ℕ} (ha : w.attached = some a) : c ≠ a := by
    rintro rfl
    rw [(hI.side c).mpr ha] at hcl
    simp at hcl
  have hleave (d : Daemon) (keep : ℕ) : ((w.leave d keep).conns c).side = .closed := by
    rw [leave_conns_of_ne w d keep fun ha => hne ha rfl, hcl]
  rcases hs with ⟨a, d, hlt, hside, hd⟩ | ⟨d, hd⟩ | ⟨a, d, bytes, rest, hatt, hreq, hd, hpc⟩ |
    ⟨a, d, bytes, rest, keep, hatt, hreq, hd, hpc⟩ | ⟨a, d, keep, hatt, hopen, hnil, hd⟩ |
    ⟨a, d, keep, hatt, hd⟩ | ⟨cmds, size, reply, hpc, hrun⟩ | ⟨cmds, keep, hpc, hrun⟩ |
    ⟨a, n, d, hatt, hd⟩ | ⟨buf, keep, dropped⟩
  · have hac : c ≠ a := by
      rintro rfl
      simp [hcl] at hside
    simpa [World.setConn, hac] using hcl
  · exact hcl
  · simpa [World.setConn, hne hatt] using hcl
  · exact hleave d keep
  · exact hleave d keep
  · exact hleave d keep
  · exact hcl
  · have hatt : (w.record none).attached ≠ some c := fun ha => hne ha rfl
    rw [leave_conns_of_ne _ _ keep hatt]
    exact hcl
  · simpa [World.setConn, hne hatt] using hcl
  · simp only [World.dropPending]
    split
    · rfl
    · exact hleave _ keep

/-- **The command in use is about to run**: the next step answers it, or
closes the connection. -/
theorem Flow.step_execute (hI : Inv w) (hf : Flow w c t sent) (hatt : w.attached = some c)
    (hpc : w.daemon.pc = .execute) (hsent : sent <+: frame text) (hlen : text.length < 2 ^ 16)
    (hs : DaemonStep w w') : Answered w' c t [] ∨ (w'.conns c).side = .closed := by
  -- the daemon waits for nothing
  have hnone (a : Xloaderd.Answered) : w.daemon.answer a = none := by
    simp [Daemon.answer, hpc]
  rcases hs with ⟨a, d, hlt, hside, hd⟩ | ⟨d, hd⟩ | ⟨a, d, bytes, rest, ha, hreq, hd, hpc'⟩ |
    ⟨a, d, bytes, rest, keep, ha, hreq, hd, hpc'⟩ | ⟨a, d, keep, ha, hopen, hnil, hd⟩ |
    ⟨a, d, keep, ha, hd⟩ | ⟨cmds, size, reply, -, hrun⟩ | ⟨cmds, keep, -, hrun⟩ |
    ⟨a, n, d, ha, hd⟩ | ⟨buf, keep, dropped⟩
  · simp [hnone] at hd
  · simp [hnone] at hd
  · simp [hnone] at hd
  · simp [hnone] at hd
  · simp [hnone] at hd
  · simp [hnone] at hd
  · exact Or.inl (hf.answered hI hatt hpc hsent hlen hrun)
  · right
    have hatt' : (w.record none).attached = some c := hatt
    rw [leave_conns_self _ _ keep hatt']
  · simp [hnone] at hd
  · right
    simp only [World.dropPending]
    split
    · rfl
    · rw [leave_conns_self _ _ keep hatt]

/-! ## When reading on is safe -/

/-- Bytes read from the connection in use that make a command run complete
the frame that was sent. -/
theorem Flow.read_execute (hf : Flow w c t sent) (hatt : w.attached = some c)
    {d : Daemon} {bytes rest : List (ℕ × UInt8)} (hreq : (w.conns c).request = bytes ++ rest)
    (hread : w.daemon.answer (.read (bytes.map Prod.snd)) = some d) (hpc : d.pc = .execute)
    (hsent : sent <+: frame text) (hlen : text.length < 2 ^ 16) :
    sent = frame text ∧ w.held ++ bytes = tag t (frame text) ∧ Loaded d.buf text := by
  obtain ⟨hheld, hcons⟩ := hf.accepted hatt
  have hcons := (hcons.read hread).resolve_left (by simp [hpc])
  rw [hreq, ← List.append_assoc] at hheld
  have hpre : (w.held ++ bytes).map Prod.snd <+: sent := by
    have := congrArg (List.map Prod.snd) hheld
    rw [map_snd_tag, List.map_append] at this
    exact ⟨_, this⟩
  rw [← List.map_append] at hcons
  obtain ⟨heq, hload⟩ := hcons.eq_frame hpc (hpre.trans hsent) hlen
  have hall : sent = frame text := hsent.eq_of_length_le (by rw [← heq]; exact hpre.length_le)
  have htag : w.held ++ bytes <+: tag t (frame text) := ⟨rest, by rw [hheld, hall]⟩
  refine ⟨hall, htag.eq_of_length_le ?_, hload⟩
  have := congrArg List.length heq
  rw [List.length_map] at this
  rw [tag, List.length_map, this]

/-- What is sent is the command of a transaction without executions. -/
theorem Flow.ripe (hI : Inv w) (hf : Flow w c t sent) (hnew : w.Unexecuted t)
    (hbegun : t < w.commands.length) (hsent : sent <+: frame (w.command t))
    (hlen : (w.command t).length < 2 ^ 16) : Ripe w := by
  intro a d bytes rest hatt hreq hread hpc
  obtain rfl := eq_of_read hI hf.current hreq hread
  obtain ⟨-, hbytes, hload⟩ := hf.read_execute hatt hreq hread hpc hsent hlen
  exact ⟨t, ⟨hbegun, hbytes, hload⟩, hnew⟩

/-- An unfinished frame is not run, whatever is read of it. -/
theorem Flow.ripe_of_unfinished (hI : Inv w) (hf : Flow w c t sent) (hsent : sent <+: frame text)
    (hne : sent ≠ frame text) (hlen : text.length < 2 ^ 16) : Ripe w := by
  intro a d bytes rest hatt hreq hread hpc
  obtain rfl := eq_of_read hI hf.current hreq hread
  exact absurd (hf.read_execute hatt hreq hread hpc hsent hlen).1 hne

theorem ripe_of_current (hI : Inv w) (h : ∀ c, w.current = some c → w.attached = some c →
    (w.conns c).request = []) : Ripe w := by
  refine ripe_of_request_nil fun c hatt => ?_
  by_cases hc : w.current = some c
  · exact h c hc hatt
  · exact hI.stale c hc

end Session

end Dynamicloader
