import Dynamicloader.Session.Model
import Dynamicloader.Session.RoundTrip
/-!
# A session in which nothing fails

The client connects, writes the frame of a command and reads the reply; the
daemon reads the frame, runs the command and answers. For every command that
the daemon does there is such a run (`exists_answered`).
-/

namespace Dynamicloader

namespace Session

open Memory Xloaderd Relation

/-! ## A program in the session -/

/-- The client can get through the program, from one world to another, while the
daemon does some of its steps. -/
inductive Runs {α : Type} : Xloader.Io α → World → α → World → Prop
  | ret (a : α) (w : World) : Runs (.ret a) w a w
  | call {op : Xloader.Op} {k : Xloader.Ans op → Xloader.Io α} {w w' w'' : World}
      {a : Xloader.Ans op} {b : α} (h : ClientStep op w a w') (hk : Runs (k a) w' b w'') :
      Runs (.call op k) w b w''
  | daemon {c : Xloader.Io α} {w w' w'' : World} {b : α} (h : DaemonStep w w')
      (hc : Runs c w' b w'') : Runs c w b w''

theorem Runs.bind {α β : Type} {c : Xloader.Io α} {f : α → Xloader.Io β} {w w' w'' : World}
    {a : α} {b : β} (h : Runs c w a w') (hf : Runs (f a) w' b w'') :
    Runs (c >>= f) w b w'' := by
  induction h with
  | ret => exact hf
  | call h _ ih => exact .call h (ih hf)
  | daemon h _ ih => exact .daemon h (ih hf)

theorem Runs.after {α : Type} {c : Xloader.Io α} {w w' w'' : World} {b : α}
    (h : Runs c w' b w'') (hd : ReflTransGen DaemonStep w w') : Runs c w b w'' := by
  induction hd using ReflTransGen.head_induction_on with
  | refl => exact h
  | head hstep _ ih => exact .daemon hstep ih

theorem Runs.leads {c : Xloader.Io (Option (List UInt8) × Xloader.State)} {w w' : World}
    {r : Option (List UInt8) × Xloader.State} (h : Runs c w r w') :
    ReflTransGen Step ⟨.running c, w⟩ ⟨.running (.ret r), w'⟩ := by
  induction h with
  | ret => exact .refl
  | call h _ ih => exact .head (.client _ h) ih
  | daemon h _ ih => exact .head (.daemon _ h) ih

/-! ## One connection -/

/-- The first transaction is under way, on the only connection there has been. -/
def first (cmd : String) (d : Daemon) (attached : Option ℕ) (held : List (ℕ × UInt8))
    (log : List Execution) (k : Conn) : World where
  conns i := if i = 0 then k else {}
  next := 1
  current := some 0
  daemon := d
  attached := attached
  held := held
  log := log
  commands := [cmd]

/-- Bytes of the first transaction. -/
def ofFirst (bytes : List UInt8) : List (ℕ × UInt8) := bytes.map fun b => (0, b)

theorem map_snd_ofFirst (bytes : List UInt8) : (ofFirst bytes).map Prod.snd = bytes := by
  rw [ofFirst, List.map_map]
  exact List.map_id _

theorem setConn_first (cmd : String) (d : Daemon) (attached : Option ℕ)
    (held : List (ℕ × UInt8)) (log : List Execution) (k k' : Conn) :
    (first cmd d attached held log k).setConn 0 k' = first cmd d attached held log k' := by
  rw [first, World.setConn, first]
  congr 1
  funext i
  by_cases hi : i = 0 <;> simp [hi]

section Daemon

variable {cmd : String} {d d' : Daemon} {held : List (ℕ × UInt8)} {log : List Execution}
  {cmds : List CmdInfo} {c reply : List UInt8} {call : Call}

/-! ## The daemon -/

theorem daemonStep_accept (cmd : String) (v : Buffer) (request : List (ℕ × UInt8)) :
    DaemonStep (first cmd ⟨v, .accept⟩ none [] [] { request := request })
      (first cmd ⟨v, .readSize none⟩ (some 0) [] []
        { request := request, side := .accepted }) := by
  have h := DaemonStep.accept (first cmd ⟨v, .accept⟩ none [] [] { request := request }) 0 _
    Nat.zero_lt_one rfl rfl
  rwa [setConn_first] at h

theorem daemonStep_read (cmd : String) (held : List (ℕ × UInt8)) (bytes rest : List UInt8)
    (h : d.answer (.read bytes) = some d') (hpc : d'.pc ≠ .accept) :
    DaemonStep
      (first cmd d (some 0) held [] { request := ofFirst (bytes ++ rest), side := .accepted })
      (first cmd d' (some 0) (held ++ ofFirst bytes) []
        { request := ofFirst rest, side := .accepted }) := by
  have h := DaemonStep.read
    (first cmd d (some 0) held [] { request := ofFirst (bytes ++ rest), side := .accepted }) 0 d'
    (ofFirst bytes) (ofFirst rest) rfl (List.map_append ..)
    (by rw [map_snd_ofFirst]; exact h) hpc
  rwa [setConn_first] at h

theorem daemonStep_wrote (cmd : String) (log : List Execution) (sent : List UInt8) {n : ℕ}
    (h : d.answer (.wrote n) = some d') :
    DaemonStep (first cmd d (some 0) [] log { reply := sent, side := .accepted })
      (first cmd d' (some 0) [] log
        { reply := sent ++ d.pc.offers.take n, side := .accepted }) := by
  have h := DaemonStep.write
    (first cmd d (some 0) [] log { reply := sent, side := .accepted }) 0 n d' rfl h
  rwa [setConn_first] at h

/-- The two bytes of the size are there. -/
theorem answer_size (hc : 1 ≤ c.length) (hc' : c.length < bufferMax) (v : Buffer) :
    (⟨v, .readSize none⟩ : Daemon).answer (.read (le16 c.length)) =
      some ⟨v, .readCommand c.length 0 hc hc'⟩ := by
  obtain ⟨low, high, hsize⟩ : ∃ low high, le16 c.length = [low, high] := ⟨_, _, rfl⟩
  have hof : ofLe16 low high = c.length := ofLe16_of_eq hc' hsize
  have hsized : (⟨v, .readSize none⟩ : Daemon).answer (.read [low, high]) =
      some ((⟨v, .readSize none⟩ : Daemon).sized (ofLe16 low high)) := rfl
  rw [hsize, hsized, hof, Daemon.sized, dif_pos ⟨hc, hc'⟩]

/-- The command comes in one piece. -/
theorem answer_command (hc : 1 ≤ c.length) (hc' : c.length < bufferMax) (v : Buffer) :
    ∃ v', Loaded v' c ∧ (⟨v, .readCommand c.length 0 hc hc'⟩ : Daemon).answer (.read c) =
      some ⟨v', .execute⟩ := by
  have hle : ([] : List UInt8).length + c.length ≤ c.length := Nat.le_of_eq (Nat.zero_add _)
  have hne : c ≠ [] := List.length_pos_iff.mp hc
  have hanswer : (⟨v, .readCommand c.length 0 hc hc'⟩ : Daemon).answer (.read c) =
      if c ≠ [] ∧ 0 + c.length ≤ c.length then
        some ((⟨v, .readCommand c.length 0 hc hc'⟩ : Daemon).received c.length 0 hc' c)
      else none := rfl
  rcases received_cases v (.readCommand c.length 0 hc hc') hc' (holdsAt_nil v 0) hle with
    ⟨hlt, -⟩ | ⟨-, v', hreceived, hloaded⟩
  · exact absurd hlt (by simp)
  · refine ⟨v', hloaded, ?_⟩
    rw [hanswer, if_pos ⟨hne, hle⟩]
    exact congrArg some hreceived

/-- The daemon writes the size of its reply, and then the reply. -/
theorem leads_reply (hreply : reply ≠ []) (cmd : String) (log : List Execution) (v : Buffer) :
    ReflTransGen DaemonStep
      (first cmd ⟨v, .write (le16 reply.length) reply⟩ (some 0) [] log { side := .accepted })
      (first cmd ⟨v, .readSize none⟩ (some 0) [] log
        { reply := frame reply, side := .accepted }) := by
  have hsize : (⟨v, .write (le16 reply.length) reply⟩ : Daemon).answer (.wrote 2) =
      some ⟨v, .write [] reply⟩ := by
    simp [Daemon.answer, Daemon.writing, le16, hreply]
  have htext : (⟨v, .write [] reply⟩ : Daemon).answer (.wrote reply.length) =
      some ⟨v, .readSize none⟩ := by
    simp [Daemon.answer, Daemon.writing]
  have hwrote₁ := daemonStep_wrote cmd log [] hsize
  have hwrote₂ := daemonStep_wrote cmd log (le16 reply.length) htext
  have hoffers₁ : [] ++ (Pc.write (le16 reply.length) reply).offers.take 2 =
      le16 reply.length := rfl
  have hoffers₂ : le16 reply.length ++ (Pc.write [] reply).offers.take reply.length =
      frame reply := by
    simp [Pc.offers, frame]
  rw [hoffers₁] at hwrote₁
  rw [hoffers₂] at hwrote₂
  exact .head hwrote₁ (.single hwrote₂)

/-- The daemon takes up the connection, reads the frame, runs the command and
answers. -/
theorem leads_answered (hd : Does cmds c call reply) (hreply : reply ≠ []) (cmd : String)
    (v : Buffer) :
    ∃ v' v'', ReflTransGen DaemonStep
      (first cmd ⟨v, .accept⟩ none [] [] { request := ofFirst (frame c) })
      (first cmd ⟨v'', .readSize none⟩ (some 0) [] [⟨ofFirst (frame c), v', some reply⟩]
        { reply := frame reply, side := .accepted }) := by
  obtain ⟨v', hloaded, hcommand⟩ := answer_command hd.pos hd.lt v
  obtain ⟨-, hx, hexit⟩ := hd.exec v' hloaded
  obtain ⟨v'', hrun⟩ : ∃ v'', (⟨v', .execute⟩ : Daemon).run cmds =
      ⟨v'', .write (le16 reply.length) reply⟩ := ⟨_, by rw [run_eq hexit, hx]⟩
  have hread₁ := daemonStep_read cmd [] _ c (answer_size hd.pos hd.lt v) (by simp)
  have hread₂ := daemonStep_read cmd (ofFirst (le16 c.length)) _ [] hcommand (by simp)
  have hexecute := DaemonStep.execute
    (first cmd ⟨v', .execute⟩ (some 0) (ofFirst (frame c)) [] { side := .accepted }) cmds _ _ rfl
    (congrArg Daemon.pc hrun)
  simp only [List.nil_append, List.append_nil, ofFirst, List.map_nil, ← List.map_append]
    at hread₁ hread₂
  refine ⟨v', v'', ?_⟩
  refine .head (daemonStep_accept ..) (.head hread₁ (.head hread₂ (.head hexecute ?_)))
  rw [show (first cmd ⟨v', .execute⟩ (some 0) (ofFirst (frame c)) [] { side := .accepted }).daemon =
    ⟨v', .execute⟩ from rfl, hrun]
  exact leads_reply hreply cmd _ v''

end Daemon

/-! ## The client -/

section Client

variable {cmd : String} {d : Daemon} {attached : Option ℕ} {log : List Execution}
  (x : Xloader.State)

theorem runs_connect (w : World) :
    Runs (Xloader.connect { x with socket := false }) w (true, { x with socket := true })
      { w.setConn w.next {} with next := w.next + 1, current := some w.next } :=
  .call (.connected w) (.call (.getStreams _ true) (.ret _ _))

theorem clientStep_wrote (cmd : String) (d : Daemon) (request : List (ℕ × UInt8))
    (bytes : List UInt8) :
    ClientStep (.write bytes) (first cmd d none [] [] { request := request }) true
      (first cmd d none [] [] { request := request ++ ofFirst bytes }) := by
  have h := ClientStep.wrote (first cmd d none [] [] { request := request }) bytes 0 rfl
  rw [World.deliver, if_neg (by simp [first]), setConn_first] at h
  exact h

theorem runs_writeCommand (hc : 1 ≤ (Xloader.getBytes cmd).length)
    (hc' : (Xloader.getBytes cmd).length ≤ 1024) :
    Runs (Xloader.writeCommand x cmd) (first cmd d none [] [] {})
      (true, { x with buf := store x.buf 0 (le16 (Xloader.getBytes cmd).length) })
      (first cmd d none [] [] { request := ofFirst (frame (Xloader.getBytes cmd)) }) := by
  have hok : ¬ ((Xloader.getBytes cmd).length < 1 ∨ (Xloader.getBytes cmd).length > 1024) := by
    omega
  have hsize : 2 ≤ Xloader.bufSize := by decide
  have hframe : ofFirst (frame (Xloader.getBytes cmd)) =
      [] ++ ofFirst (le16 (Xloader.getBytes cmd).length) ++ ofFirst (Xloader.getBytes cmd) := by
    rw [frame, ofFirst, List.map_append]
    rfl
  simp only [Xloader.writeCommand, hok, ↓reduceIte, take_store_le16 _ _ hsize]
  rw [hframe]
  exact .call (clientStep_wrote ..) (.call (clientStep_wrote ..) (.ret _ _))

/-- The bytes that are asked for are there, in one piece. -/
theorem runs_readBytes {bytes : List UInt8} (hpos : 0 < bytes.length) (rest : List UInt8) :
    Runs (Xloader.readBytes x bytes.length 0)
      (first cmd d attached [] log { reply := bytes ++ rest, side := .accepted })
      (true, { x with buf := store x.buf 0 bytes })
      (first cmd d attached [] log { reply := rest, side := .accepted }) := by
  have h := ClientStep.read
    (first cmd d attached [] log { reply := bytes ++ rest, side := .accepted })
    (bytes.length - 0) 0 ⟨bytes, hpos, Nat.le_refl _⟩ rest rfl rfl
  rw [setConn_first] at h
  rw [Xloader.readBytes, if_pos hpos]
  refine .call h ?_
  dsimp only
  rw [Xloader.readBytes, if_neg (by omega)]
  exact .ret _ _

theorem runs_readReply (cmd : String) (d : Daemon) (attached : Option ℕ) (log : List Execution)
    {reply : List UInt8} (h : 1 ≤ reply.length) (h' : reply.length ≤ 1024) :
    ∃ buf, HoldsAt buf 0 reply ∧
      Runs (Xloader.readReply x)
        (first cmd d attached [] log { reply := frame reply, side := .accepted })
        (true, { x with buf := buf, buflen := reply.length })
        (first cmd d attached [] log { side := .accepted }) := by
  have hmax : 2 ≤ Xloader.bufSize ∧ 1024 ≤ Xloader.bufSize := by decide
  have hsize : HoldsAt (store x.buf 0 (le16 reply.length)) 0 (le16 reply.length) :=
    holdsAt_store x.buf 0 _ hmax.1
  have hlen : ofLe16 (store x.buf 0 (le16 reply.length))[0] (store x.buf 0 (le16 reply.length))[1] =
      reply.length := by
    rw [hsize.ofLe16_eq (by decide), ofLe16_le16 (by omega)]
  have hok : ¬ (reply.length < 1 ∨ reply.length > 1024) := by omega
  have hread : Runs (Xloader.readBytes { x with buflen := 0 } (le16 reply.length).length 0)
      (first cmd d attached [] log { reply := frame reply, side := .accepted }) _ _ :=
    runs_readBytes { x with buflen := 0 } (by simp) reply
  have htext : Runs (Xloader.readBytes
        { x with buf := store x.buf 0 (le16 reply.length), buflen := 0 } reply.length 0)
      (first cmd d attached [] log { reply := reply ++ [], side := .accepted }) _ _ :=
    runs_readBytes { x with buf := store x.buf 0 (le16 reply.length), buflen := 0 } h []
  rw [List.append_nil] at htext
  refine ⟨store (store x.buf 0 (le16 reply.length)) 0 reply, holdsAt_store _ 0 _ ?_, ?_⟩
  · rw [Nat.zero_add]
    exact Nat.le_trans h' hmax.2
  rw [Xloader.readReply]
  refine .bind hread ?_
  simp only [Bool.not_true, Bool.false_eq_true, ↓reduceIte, hlen, hok]
  exact .bind htext (.ret _ _)

end Client

/-- The programs of the client and the daemon get through a transaction. -/
theorem runs_exchange {cmds : List CmdInfo} {cmd : String} {call : Call} {reply : List UInt8}
    (hd : Does cmds (Xloader.getBytes cmd) call reply) (h : 1 ≤ reply.length)
    (h' : reply.length ≤ 1024) (x : Xloader.State) (v : Buffer) :
    ∃ buf d log, Runs (Xloader.exchange { x with socket := false } cmd)
      { daemon := ⟨v, .accept⟩, commands := [cmd] }
      (some reply, { buf := buf, buflen := reply.length, socket := true })
      (first cmd d (some 0) [] log { side := .accepted }) := by
  obtain ⟨v', v'', hanswered⟩ := leads_answered hd (List.length_pos_iff.mp h) cmd v
  have hwrite : Runs (Xloader.writeCommand { x with socket := true } cmd)
      (first cmd ⟨v, .accept⟩ none [] [] {}) _ _ :=
    runs_writeCommand { x with socket := true } hd.pos (Nat.le_of_lt hd.lt)
  obtain ⟨buf, hbuf, hread⟩ := runs_readReply
    { x with socket := true, buf := store x.buf 0 (le16 (Xloader.getBytes cmd).length) }
    cmd ⟨v'', .readSize none⟩ (some 0)
    [⟨ofFirst (frame (Xloader.getBytes cmd)), v', some reply⟩] h h'
  refine ⟨buf, ⟨v'', .readSize none⟩,
    [⟨ofFirst (frame (Xloader.getBytes cmd)), v', some reply⟩], ?_⟩
  rw [Xloader.exchange]
  refine .bind (runs_connect x _) ?_
  simp only [Bool.not_true, Bool.false_eq_true, ↓reduceIte]
  refine .bind hwrite ?_
  simp only [↓reduceIte]
  rw [Xloader.exchange.receive]
  refine .bind (hread.after hanswered) ?_
  simp only [↓reduceIte, hbuf.take_eq]
  exact .ret _ _

/-- **A session in which nothing fails.** For every command that the daemon does
there is a run in which its reply is returned, with the socket open. -/
theorem exists_answered {cmds : List CmdInfo} {cmd : String} {call : Call} {reply : List UInt8}
    (hd : Does cmds (Xloader.getBytes cmd) call reply) (h : 1 ≤ reply.length)
    (h' : reply.length ≤ 1024) :
    ∃ s x, Reachable s ∧ s.client = .idle x ∧ x.socket = true ∧ s.world.commands = [cmd] ∧
      s.world.replies = [(0, reply)] := by
  obtain ⟨buf, d, log, hruns⟩ := runs_exchange hd h h' {} (Vector.replicate bufferMax 0)
  refine ⟨⟨.idle ⟨buf, reply.length, true⟩, { first cmd d (some 0) [] log { side := .accepted } with
    replies := [(0, reply)] }⟩, _, ⟨Vector.replicate bufferMax 0, {}, ?_⟩, rfl, rfl, rfl, rfl⟩
  exact .head (.begin _ cmd _) (.tail hruns.leads (.finish _ _ _))

end Session

end Dynamicloader
