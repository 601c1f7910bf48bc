import Mathlib.Data.List.Nodup
import Dynamicloader.Session.Client
import Dynamicloader.Session.Answered
/-!
# Transactions do not get mixed up

Each method of the client is safe in the world of the daemon, from the
assertion its caller has to the assertion its caller needs. For the whole
transaction this says that whatever is executed meanwhile is a command of
one transaction that was not executed before, and that the socket is quiet
when the transaction returns. The last theorem carries that over all runs.
-/

namespace Dynamicloader

namespace Session

open Memory Xloaderd Xloader

open Prog.Arena (safe_pure safe_bind safe_call)

variable {w u : World} {c t : ℕ} {sent got text : List UInt8} {cmd : String} {x : State}

/-- Before the command is written. -/
structure Ready (t : ℕ) (cmd : String) (x : State) (w : World) : Prop where
  on : x.socket = true → ∃ c, Sending t cmd c [] [] w
  off : x.socket = false → Off t cmd w

theorem Off.linked (h : Off t cmd w) (hx : x.socket = false) : Linked x w :=
  ⟨h.inv, fun hx' => by simp [hx] at hx', fun _ => h.current⟩

theorem Ready.finished (h : Ready t cmd x w) : Finished t (none, x) w := by
  cases hx : x.socket with
  | false => exact ⟨(h.off hx).now.last, (h.off hx).linked hx, by simp⟩
  | true =>
    obtain ⟨c, hs⟩ := h.on hx
    exact ⟨hs.now.last, ⟨hs.inv, fun _ => ⟨c, hs.flow.retag⟩, fun hx' => by simp [hx] at hx'⟩,
      by simp⟩

/-! ## Closing -/

theorem safe_disconnect {P : World → Prop} {Q : State → World → Prop} (hx : x.socket = true)
    (hP : arena.Stable P) (hI : ∀ w, P w → Inv w) (hw : P w)
    (hQ : ∀ w u, P w → ClientStep .close w () u → Q { x with socket := false } u) :
    arena.Safe Inv Q (disconnect x) w := by
  rw [disconnect, if_pos hx]
  exact safe_call hP hI hw fun v a u hv hact => hQ v u hv hact

theorem Off.close (h : Off t cmd w) (hs : ClientStep .close w () u) : Off t cmd u := by
  cases hs with
  | close _ c hc => simp [h.current] at hc
  | closeUnconnected _ hc => exact h

theorem Sending.close (h : Sending t cmd c text sent w) (hs : ClientStep .close w () u) :
    Off t cmd u := by
  cases hs with
  | close _ a ha =>
    obtain rfl := Option.some.inj (h.flow.current.symm.trans ha)
    exact h.closed
  | closeUnconnected _ hc => simp [h.flow.current] at hc

theorem Waiting.close (h : Waiting t cmd c got w) (hs : ClientStep .close w () u) :
    Finished t (none, { x with socket := false }) u := by
  cases hs with
  | close _ a ha =>
    exact ⟨h.now.last, ⟨h.inv.closed ha, by simp, fun _ => rfl⟩, by simp⟩
  | closeUnconnected _ hc => simp [h.current] at hc

/-! ## Connecting -/

/-- What `connect` and `writeCommand` leave. -/
def Opened (t : ℕ) (cmd : String) (P : ℕ → World → Prop) (r : Bool × State) (w : World) : Prop :=
  (r.1 = true → r.2.socket = true ∧ ∃ c, P c w) ∧ (r.1 = false → Ready t cmd r.2 w)

theorem opened_false {P : ℕ → World → Prop} (h : Ready t cmd x w) :
    Opened t cmd P (false, x) w := ⟨by simp, fun _ => h⟩

theorem ready_of_off (h : Off t cmd w) (hx : x.socket = false) : Ready t cmd x w :=
  ⟨fun hx' => by simp [hx] at hx', fun _ => h⟩

/-- A failed connection attempt. -/
theorem safe_giveUp {P : World → Prop} {R : ℕ → World → Prop} (hx : x.socket = true)
    (hP : arena.Stable P) (hI : ∀ w, P w → Inv w) (hw : P w)
    (hclose : ∀ w u, P w → ClientStep .close w () u → Off t cmd u) :
    arena.Safe Inv (Opened t cmd R) (disconnect x >>= fun x => pure (false, x)) w := by
  have hdis : arena.Safe Inv (Ready t cmd) (disconnect x) w :=
    safe_disconnect hx hP hI hw fun v u hv hs => ready_of_off (hclose v u hv hs) rfl
  exact safe_bind hdis fun _ _ h => safe_pure (opened_false h)

theorem safe_connect (h : Ready t cmd x w) :
    arena.Safe Inv (Opened t cmd fun c => Sending t cmd c [] []) (Xloader.connect x) w := by
  rw [Xloader.connect]
  cases hx : x.socket with
  | true => exact safe_pure ⟨fun _ => ⟨hx, h.on hx⟩, by simp⟩
  | false =>
    refine safe_call off_stable (fun _ h => h.inv) (h.off hx) fun v ok u hv hact => ?_
    cases hact with
    | connected =>
      refine safe_call sending_stable (fun _ h => h.inv) hv.connected fun v' ok' u' hv' hact' => ?_
      cases hact'
      cases ok' with
      | true => exact safe_pure ⟨fun _ => ⟨rfl, _, hv'⟩, by simp⟩
      | false => exact safe_giveUp rfl sending_stable (fun _ h => h.inv) hv' fun _ _ h => h.close
    | refused => exact safe_giveUp rfl off_stable (fun _ h => h.inv) hv fun _ _ h => h.close

/-! ## Writing the command -/

/-- A `write` of bytes of the frame delivers them, or throws and leaves the
frame unfinished. -/
theorem Sending.write (h : Sending t cmd c text sent w) {bytes rest : List UInt8} {ok : Bool}
    (hframe : sent ++ bytes ++ rest = frame text) (hs : ClientStep (.write bytes) w ok u) :
    ok = true ∧ u = w.deliver c bytes ∨ ok = false ∧ ∃ sent', Sending t cmd c text sent' u := by
  cases hs with
  | wrote _ _ a ha =>
    obtain rfl := Option.some.inj (h.flow.current.symm.trans ha)
    exact Or.inl ⟨rfl, rfl⟩
  | writeFailed _ _ a n ha hn =>
    obtain rfl := Option.some.inj (h.flow.current.symm.trans ha)
    have hrest : bytes.drop n ++ rest ≠ [] := by
      have : bytes.drop n ≠ [] := by simpa using hn
      simp [this]
    have hcut : sent ++ bytes.take n ++ (bytes.drop n ++ rest) = frame text := by
      rw [← hframe]
      simp only [List.append_assoc]
      rw [← List.append_assoc (bytes.take n), List.take_append_drop]
    exact Or.inr ⟨rfl, _, h.wrote hcut hrest⟩

theorem safe_writeCommand (hx : x.socket = true) (h : Sending t cmd c [] [] w) :
    arena.Safe Inv (Opened t cmd fun c => Waiting t cmd c []) (writeCommand x cmd) w := by
  rw [writeCommand]
  split
  · -- refused, and nothing was written
    refine safe_pure (opened_false ⟨fun _ => ⟨c, h⟩, fun hx' => ?_⟩)
    simp [hx] at hx'
  · rename_i hlen
    have hsend : Sending t cmd c (getBytes cmd) [] w :=
      ⟨h.now, h.inv, h.fresh, h.flow, List.nil_prefix, frame_ne_nil _, by omega⟩
    have hbytes : getBytes cmd ≠ [] := by
      intro hnil
      simp [hnil] at hlen
    have hsize : 2 ≤ bufSize := by decide
    simp only [take_store_le16 _ _ hsize]
    refine safe_call sending_stable (fun _ h => h.inv) hsend fun v ok u hv hact => ?_
    have hsize : [] ++ le16 (getBytes cmd).length ++ getBytes cmd = frame (getBytes cmd) := rfl
    rcases hv.write hsize hact with ⟨rfl, rfl⟩ | ⟨rfl, sent, hu⟩
    · have hv := hv.wrote hsize hbytes
      refine safe_call sending_stable (fun _ h => h.inv) hv fun v' ok' u' hv' hact' => ?_
      rcases hv'.write (List.append_nil _) hact' with ⟨rfl, rfl⟩ | ⟨rfl, sent, hu⟩
      · exact safe_pure ⟨fun _ => ⟨hx, c, hv'.wrote_all rfl⟩, by simp⟩
      · exact safe_giveUp hx sending_stable (fun _ h => h.inv) hu fun _ _ h => h.close
    · exact safe_giveUp hx sending_stable (fun _ h => h.inv) hu fun _ _ h => h.close

/-! ## Reading the reply -/

/-- What `readBytes` leaves behind `base`. -/
def Received (t : ℕ) (cmd : String) (c : ℕ) (base : List UInt8) (len : ℕ) (r : Bool × State)
    (w : World) : Prop :=
  (r.1 = true → r.2.socket = true ∧ ∃ bytes, bytes.length = len ∧ HoldsAt r.2.buf 0 bytes ∧
    Waiting t cmd c (base ++ bytes) w) ∧
  (r.1 = false → Finished t (none, r.2) w)

theorem safe_readBytes {x : State} {w : World} {len off : ℕ} {base bytes : List UInt8}
    (hlen : len ≤ bufSize) (hoff : bytes.length = off) (hle : off ≤ len) (hx : x.socket = true)
    (hbuf : HoldsAt x.buf 0 bytes) (h : Waiting t cmd c (base ++ bytes) w) :
    arena.Safe Inv (Received t cmd c base len) (readBytes x len off) w := by
  rw [readBytes]
  split
  · rename_i hlt
    refine safe_call waiting_stable (fun _ h => h.inv) h fun v ans u hv hact => ?_
    cases hact with
    | read _ _ a chunk rest ha hreply =>
      obtain rfl := Option.some.inj (hv.current.symm.trans ha)
      obtain ⟨hpos, hfits⟩ := chunk.property
      have hle' : off + chunk.val.length ≤ len := by omega
      have hoff' : (bytes ++ chunk.val).length = off + chunk.val.length := by
        rw [List.length_append, hoff]
      have hne : chunk.val ≠ [] := List.ne_nil_of_length_pos hpos
      have hu := hv.read hne hreply
      rw [List.append_assoc] at hu
      refine safe_readBytes hlen hoff' hle' hx ?_ hu
      rw [holdsAt_append, Nat.zero_add, hoff]
      exact ⟨hbuf.store _ _ (Or.inr (by omega)), holdsAt_store _ _ _ (by omega)⟩
    | readFailed =>
      have hdis : arena.Safe Inv (fun x => Finished t (none, x)) (disconnect x) v :=
        safe_disconnect hx waiting_stable (fun _ h => h.inv) hv fun _ _ h hs => h.close hs
      exact safe_bind hdis fun _ _ h => safe_pure ⟨by simp, fun _ => h⟩
  · rename_i hge
    have : off = len := by omega
    exact safe_pure ⟨fun _ => ⟨hx, bytes, by rw [hoff, this], hbuf, h⟩, by simp⟩
  termination_by len - off
  decreasing_by
    have := chunk.property
    omega

/-- **The whole reply is read**: it is the reply to the transaction's command,
and the connection is quiet. -/
theorem Waiting.complete {low high : UInt8} {bytes : List UInt8}
    (h : Waiting t cmd c ([low, high] ++ bytes) w) (hlen : ofLe16 low high = bytes.length)
    (hx : x.socket = true) : Finished t (some bytes, x) w := by
  rcases h.phase with ⟨hnil, -⟩ | ha
  · simp at hnil
  · obtain ⟨e, he, howner, text, left, hr, -, hle, hframe, hw⟩ := ha.entry
    obtain ⟨rfl, hall⟩ := eq_of_prefix_frame ⟨_, hframe.symm⟩ (by omega) hlen
    -- nothing is on the way, and nothing is left to write
    have hnil : (w.conns c).reply ++ left = [] := by
      rw [← hall] at hframe
      exact List.append_right_eq_self.mp hframe.symm
    obtain ⟨hreply, rfl⟩ := List.append_eq_nil_iff.mp hnil
    have hquiet : Flow w c 0 [] := by
      refine ⟨ha.current, ha.clientOpen, hreply, fun hp => absurd hp ha.side, fun hatt => ?_,
        fun _ => ha.request⟩
      obtain ⟨hheld, hwrote⟩ := hw hatt
      rw [hheld, ha.request]
      refine ⟨rfl, ?_⟩
      rcases hwrote with ⟨-, hpc⟩ | ⟨hne, -⟩
      · rw [show w.daemon = ⟨w.daemon.buf, .readSize none⟩ by rw [← hpc]]
        exact .start _
      · exact absurd rfl hne
    refine ⟨h.now.last, ⟨h.inv, fun _ => ⟨c, hquiet⟩, fun hx' => ?_⟩, fun text htext => ?_⟩
    · simp [hx] at hx'
    · obtain rfl := Option.some.inj htext
      exact ⟨e, he, howner, hr⟩

/-- What `readReply` leaves. -/
def Replied (t : ℕ) (r : Bool × State) (w : World) : Prop :=
  Finished t (if r.1 then some (r.2.buf.toList.take r.2.buflen) else none, r.2) w

theorem safe_readReply (hx : x.socket = true) (h : Waiting t cmd c [] w) :
    arena.Safe Inv (Replied t) (readReply x) w := by
  have hsize : 2 ≤ bufSize := by decide
  have hhead : arena.Safe Inv (Received t cmd c [] 2) (readBytes { x with buflen := 0 } 2 0) w :=
    safe_readBytes hsize rfl (Nat.zero_le 2) hx (holdsAt_nil _ 0) h
  rw [readReply]
  refine safe_bind hhead fun r v hr => ?_
  obtain ⟨ok, x'⟩ := r
  cases ok with
  | false => exact safe_pure (hr.2 rfl)
  | true =>
    obtain ⟨hx', bytes, hbytes, hbuf, hv⟩ := hr.1 rfl
    obtain ⟨low, high, rfl⟩ := List.length_eq_two.mp hbytes
    have hlen : ofLe16 x'.buf[0] x'.buf[1] = ofLe16 low high := hbuf.ofLe16_eq hsize
    obtain ⟨e, -, -, text, -, hpos, hle, hpre⟩ := hv.reply_eq (by simp)
    have htext := (ofLe16_eq_length hpre (by omega)).1
    have hok : ¬ (ofLe16 low high < 1 ∨ ofLe16 low high > 1024) := by omega
    have hmax : bufSize = 1024 := rfl
    have hbody : arena.Safe Inv (Received t cmd c [low, high] (ofLe16 low high))
        (readBytes x' (ofLe16 low high) 0) v :=
      safe_readBytes (by omega) rfl (Nat.zero_le _) hx' (holdsAt_nil _ 0) hv
    simp only [Bool.not_true, Bool.false_eq_true, ↓reduceIte, hlen, hok]
    refine safe_bind hbody fun r v hr => ?_
    obtain ⟨ok, x''⟩ := r
    cases ok with
    | false => exact safe_pure (hr.2 rfl)
    | true =>
      obtain ⟨hx'', bytes, hbytes, hbuf, hv⟩ := hr.1 rfl
      have hdone := hv.complete (x := { x'' with buflen := ofLe16 low high }) hbytes.symm hx''
      refine safe_pure ?_
      simp only [Replied, ↓reduceIte]
      rw [← hbytes, hbuf.take_eq, hbytes]
      exact hdone

/-! ## A whole transaction -/

theorem safe_receive (hx : x.socket = true) (h : Waiting t cmd c [] w) :
    arena.Safe Inv (Finished t) (exchange.receive x) w := by
  rw [exchange.receive]
  refine safe_bind (safe_readReply hx h) fun r v hr => ?_
  obtain ⟨ok, x'⟩ := r
  cases ok with
  | false => exact safe_pure hr
  | true => exact safe_pure hr

/-- **A transaction is safe.** -/
theorem safe_exchange (h : Ready t cmd x w) :
    arena.Safe Inv (Finished t) (exchange x cmd) w := by
  rw [exchange]
  refine safe_bind (safe_connect h) fun r v hr => ?_
  obtain ⟨ok, x₁⟩ := r
  cases ok with
  | false => exact safe_pure (hr.2 rfl).finished
  | true =>
    obtain ⟨hx₁, c₁, hv⟩ := hr.1 rfl
    refine safe_bind (safe_writeCommand hx₁ hv) fun r v hr => ?_
    obtain ⟨ok, x₂⟩ := r
    cases ok with
    | true =>
      obtain ⟨hx₂, c₂, hv⟩ := hr.1 rfl
      exact safe_receive hx₂ hv
    | false =>
      -- once more, on the connection kept or a new one
      refine safe_bind (safe_connect (hr.2 rfl)) fun r v hr => ?_
      obtain ⟨ok, x₃⟩ := r
      cases ok with
      | false => exact safe_pure (hr.2 rfl).finished
      | true =>
        obtain ⟨hx₃, c₃, hv⟩ := hr.1 rfl
        refine safe_bind (safe_writeCommand hx₃ hv) fun r v hr => ?_
        obtain ⟨ok, x₄⟩ := r
        cases ok with
        | true =>
          obtain ⟨hx₄, c₄, hv⟩ := hr.1 rfl
          exact safe_receive hx₄ hv
        | false => exact safe_pure (hr.2 rfl).finished

/-! ## All runs -/

/-- A transaction begins: its number is new. -/
theorem Inv.begin (h : Inv w) (cmd : String) :
    Inv { w with commands := w.commands ++ [cmd] } ∧
      Fresh { w with commands := w.commands ++ [cmd] } w.commands.length := by
  have hof {e : Execution} {t : ℕ} (he : e.IsOf w t) :
      e.IsOf { w with commands := w.commands ++ [cmd] } t := by
    have hcmd : World.command { w with commands := w.commands ++ [cmd] } t = w.command t := by
      rw [World.command, World.command, List.getElem?_append_left he.begun]
    refine ⟨?_, by rw [hcmd]; exact he.bytes, by rw [hcmd]; exact he.loaded⟩
    rw [List.length_append]
    exact Nat.lt_add_right _ he.begun
  have hnew {e : Execution} {t : ℕ} (he : e.IsOf w t) : e.owner ≠ some w.commands.length := by
    rw [he.owner]
    intro heq
    obtain rfl := Option.some.inj heq
    exact Nat.lt_irrefl _ he.begun
  refine ⟨⟨fun e he => ?_, h.once, h.replies, h.stale, h.attached_lt, h.current_lt, h.side, h.free,
    h.busy, fun hpc => ?_⟩, ⟨fun e he => ?_, fun hpc _ => ?_⟩⟩
  · obtain ⟨t, ht⟩ := h.own e he
    exact ⟨t, hof ht⟩
  · obtain ⟨t, ht, hun⟩ := h.exec hpc
    exact ⟨t, hof ht, hun⟩
  · obtain ⟨t, ht⟩ := h.own e he
    exact hnew ht
  · obtain ⟨t, ht, -⟩ := h.exec hpc
    exact hnew ht

theorem Linked.begin (h : Linked x w) (cmd : String) :
    Ready w.commands.length cmd x { w with commands := w.commands ++ [cmd] } := by
  obtain ⟨hI, hfresh⟩ := h.inv.begin cmd
  have hnow : Now w.commands.length cmd { w with commands := w.commands ++ [cmd] } :=
    ⟨by simp, by simp [World.command]⟩
  refine ⟨fun hx => ?_, fun hx => ⟨hnow, hI, h.none hx, hfresh⟩⟩
  obtain ⟨c, hf⟩ := h.quiet hx
  exact ⟨c, hnow, hI, hfresh, ⟨hf.current, hf.clientOpen, hf.reply, hf.pending, hf.accepted,
    hf.closed⟩, List.nil_prefix, frame_ne_nil [], by simp⟩

/-- A transaction's answer is recorded. -/
theorem Finished.finish {reply : Option (List UInt8)} (h : Finished t (reply, x) w) :
    Linked x { w with
      replies := w.replies ++ reply.toList.map fun r => (w.commands.length - 1, r) } := by
  obtain ⟨hlast, ⟨hI, hquiet, hnone⟩, hreply⟩ := h
  refine ⟨⟨hI.own_congr rfl, hI.once, fun p hp => ?_, hI.stale, hI.attached_lt, hI.current_lt,
    hI.side, hI.free, hI.busy, hI.exec_congr rfl⟩, fun hx => ?_, hnone⟩
  · rcases List.mem_append.mp hp with hp | hp
    · exact hI.replies p hp
    · obtain ⟨r, hr, rfl⟩ := List.mem_map.mp hp
      have ht : w.commands.length - 1 = t := by omega
      rw [ht]
      exact hreply r (Option.mem_toList.mp hr)
  · obtain ⟨c, hf⟩ := hquiet hx
    exact ⟨c, hf.current, hf.clientOpen, hf.reply, hf.pending, hf.accepted, hf.closed⟩

/-- What holds between two steps of the system. -/
def Kept (s : System) : Prop :=
  match s.client with
  | .idle x => Linked x s.world
  | .running p => ∃ t, arena.Safe Inv (Finished t) p s.world

theorem kept_initial (buf : Buffer) (x : State) : Kept (initial buf x) := by
  refine ⟨⟨?_, ?_, ?_, fun c _ => rfl, ?_, ?_, fun c => ?_, fun _ => Or.inl rfl, ?_, ?_⟩, ?_, ?_⟩
  all_goals simp [initial]

/-- **Every step of the system keeps it.** -/
theorem kept_step {s s' : System} (h : Kept s) (hs : Step s s') : Kept s' := by
  cases hs with
  | @daemon p w w' hd =>
    match p with
    | .idle x => exact linked_stable w w' hd h
    | .running (.ret r) =>
      obtain ⟨t, h⟩ := h
      exact ⟨t, finished_stable w w' hd h⟩
    | .running (.call op k) =>
      obtain ⟨t, h⟩ := h
      exact ⟨t, h.env hd⟩
  | begin x cmd w => exact ⟨_, safe_exchange (Linked.begin h cmd)⟩
  | client k hc =>
    obtain ⟨t, h⟩ := h
    exact ⟨t, (h _ .refl).2 _ _ hc⟩
  | finish reply x w =>
    obtain ⟨t, h⟩ := h
    exact Finished.finish h

theorem kept_of_reachable {s : System} (h : Reachable s) : Kept s := by
  obtain ⟨buf, x, hrun⟩ := h
  induction hrun with
  | refl => exact kept_initial buf x
  | tail _ hs ih => exact kept_step ih hs

theorem Kept.inv {s : System} (h : Kept s) : Inv s.world := by
  obtain ⟨p, w⟩ := s
  match p with
  | .idle x => exact Linked.inv h
  | .running (.ret r) =>
    obtain ⟨t, h⟩ := h
    exact h.linked.inv
  | .running (.call op k) =>
    obtain ⟨t, h⟩ := h
    exact (h _ .refl).1

/-- The state of the client when no transaction is under way, or the last
one has returned. -/
def Client.returned : Client → Option State
  | .idle x => some x
  | .running (.ret r) => some r.2
  | .running (.call _ _) => none

/-- Nothing is on the way on connection `c`, and the daemon owes nothing. -/
structure Quiet (w : World) (c : ℕ) : Prop where
  request : (w.conns c).request = []
  reply : (w.conns c).reply = []
  daemon : w.attached = some c → w.held = [] ∧ w.daemon.pc = .readSize none

theorem Linked.exists_quiet (h : Linked x w) (hx : x.socket = true) :
    ∃ c, w.current = some c ∧ Quiet w c := by
  obtain ⟨c, hf⟩ := h.quiet hx
  refine ⟨c, hf.current, ?_, hf.reply, fun hatt => ?_⟩
  · cases hside : (w.conns c).side with
    | pending => exact hf.pending hside
    | accepted => exact (List.append_eq_nil_iff.mp (hf.accepted ((h.inv.side c).mp hside)).1).2
    | closed => exact hf.closed hside
  · obtain ⟨hheld, hcons⟩ := hf.accepted hatt
    obtain ⟨hnil, -⟩ := List.append_eq_nil_iff.mp hheld
    rw [hnil, List.map_nil] at hcons
    refine ⟨hnil, ?_⟩
    generalize hd : w.daemon = d at hcons
    cases hcons
    rfl

theorem Kept.linked {s : System} (h : Kept s) (hx : s.client.returned = some x) :
    Linked x s.world := by
  obtain ⟨p, w⟩ := s
  match p with
  | .idle x' =>
    obtain rfl := Option.some.inj hx
    exact h
  | .running (.ret r) =>
    obtain ⟨t, h⟩ := h
    obtain rfl := Option.some.inj hx
    exact h.linked
  | .running (.call op k) => simp [Client.returned] at hx

/-- **Transactions and executions stay in step**, over all runs. Every
execution is one of a transaction and runs its command, no transaction is
executed twice, a reply returned is that of the transaction's own
execution, and a transaction that returns with the socket open leaves the
connection quiet. A daemon that prints a reply across the end of its buffer is
taken to go on (`Daemon.run`). -/
theorem session_synchronised {s : System} (h : Reachable s) :
    (∀ e ∈ s.world.log, ∃ t, e.IsOf s.world t) ∧
    (∀ t, (s.world.log.map Execution.owner).count (some t) ≤ 1) ∧
    (∀ t text, (t, text) ∈ s.world.replies →
      ∃ e ∈ s.world.log, e.IsOf s.world t ∧ e.reply = some text) ∧
    ∀ x, s.client.returned = some x → x.socket = true →
      ∃ c, s.world.current = some c ∧ Quiet s.world c := by
  have hkept := kept_of_reachable h
  have hI := hkept.inv
  refine ⟨hI.own, fun t => List.nodup_iff_count_le_one.mp hI.once _, fun t text ht => ?_,
    fun x hx hsock => (hkept.linked hx).exists_quiet hsock⟩
  obtain ⟨e, he, howner, hreply⟩ := hI.replies _ ht
  obtain ⟨t', he'⟩ := hI.own e he
  obtain rfl := Option.some.inj (he'.owner.symm.trans howner)
  exact ⟨e, he, he', hreply⟩

/-- A load command is executed, its reply `0` returned, and the connection is
quiet again. -/
theorem session_synchronised_load : ∃ s x, Reachable s ∧ s.client.returned = some x ∧
    s.world.replies = [(0, [48])] ∧
    (∃ e ∈ s.world.log, e.IsOf s.world 0 ∧ e.reply = some [48]) ∧
    ∃ c, s.world.current = some c ∧ Quiet s.world c := by
  have ha : Plain "a" := ⟨by simp, by simp, by simp, by simp [isspace]⟩
  have hdoes := does_xload ha.isWord ha.isWord ha.isWord (by decide) fun _ _ _ => 0
  rw [← loadCommand_eq] at hdoes
  obtain ⟨s, x, hreachable, hclient, hsocket, -, hreplies⟩ :=
    exists_answered hdoes (by decide) (by decide)
  have hreturned : s.client.returned = some x := by rw [hclient]; rfl
  obtain ⟨-, -, hexecuted, hquiet⟩ := session_synchronised hreachable
  exact ⟨s, x, hreachable, hreturned, hreplies,
    hexecuted 0 [48] (by rw [hreplies]; exact List.mem_singleton_self _),
    hquiet x hreturned hsocket⟩

end Session

end Dynamicloader
