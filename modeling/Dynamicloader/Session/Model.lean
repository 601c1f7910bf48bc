import Dynamicloader.Xloader.Model
import Dynamicloader.Xloaderd.Execute
/-!
# The session of client and daemon

The client's program and the daemon's machine run against each other over
connections. Either side can fail at any point, the kernel cuts the streams
into any pieces, the daemon is restarted at any time, and a connection the
client gave up can still be in the daemon's hands while the client uses the
next one.

Two assumptions about the sockets are built in: a `write` that throws has
not delivered all its bytes, and closing a socket discards what the other
side has not read.

Every request byte carries the number of the transaction that wrote it, and
every execution is recorded with the bytes of its frame. The programs do
not see these records.
-/

namespace Dynamicloader

namespace Session

open Memory Xloaderd

/-- What the daemon has done with a connection. -/
inductive Side where
  | pending
  | accepted
  | closed
  deriving DecidableEq

/-- A connection: the bytes on the way to the daemon, each with the
transaction that wrote it, and those on the way to the client. -/
structure Conn where
  request : List (ℕ × UInt8) := []
  reply : List UInt8 := []
  side : Side := .pending
  clientOpen : Bool := true

/-- One run of `execute`: the bytes of the frame it was read from, the buffer
it found, and the text it answered, if it lived to answer. -/
structure Execution where
  bytes : List (ℕ × UInt8)
  buf : Buffer
  reply : Option (List UInt8)

/-- Everything outside the client's program. -/
structure World where
  conns : ℕ → Conn := fun _ => {}
  /-- The number of connections made so far. -/
  next : ℕ := 0
  /-- The connection behind `mSocket`. -/
  current : Option ℕ := none
  daemon : Daemon
  /-- The connection the daemon serves. -/
  attached : Option ℕ := none
  /-- The bytes it has read of the current frame. -/
  held : List (ℕ × UInt8) := []
  log : List Execution := []
  /-- The commands of the transactions begun so far, in order. -/
  commands : List String := []
  /-- The replies transactions returned, with their numbers. -/
  replies : List (ℕ × List UInt8) := []

namespace World

def setConn (w : World) (c : ℕ) (k : Conn) : World :=
  { w with conns := fun i => if i = c then k else w.conns i }

/-- The daemon leaves the connection it serves, if any. What it has not read
is discarded; of what it wrote at most the first `keep` bytes still arrive. -/
def leave (w : World) (d : Daemon) (keep : ℕ) : World :=
  match w.attached with
  | none => { w with daemon := d, held := [] }
  | some c =>
    { w.setConn c { w.conns c with request := [], reply := (w.conns c).reply.take keep,
                                   side := .closed } with
      daemon := d, attached := none, held := [] }

/-- Connections that wait to be accepted are dropped. -/
def dropPending (w : World) (dropped : ℕ → Bool) : World :=
  { w with conns := fun i =>
      if dropped i ∧ (w.conns i).side = .pending then
        { w.conns i with request := [], side := .closed }
      else w.conns i }

/-- Bytes of the current transaction are put on the connection, unless the
daemon has closed it. -/
def deliver (w : World) (c : ℕ) (bytes : List UInt8) : World :=
  if (w.conns c).side = .closed then w
  else w.setConn c { w.conns c with
    request := (w.conns c).request ++ bytes.map fun b => (w.commands.length - 1, b) }

/-- The execution of the command in the daemon's buffer is recorded. -/
def record (w : World) (reply : Option (List UInt8)) : World :=
  { w with log := w.log ++ [⟨w.held, w.daemon.buf, reply⟩] }

end World

/-- **A step of the daemon**, with the kernel and init. -/
inductive DaemonStep : World → World → Prop
  | accept (w : World) (c : ℕ) (d : Daemon) (hc : c < w.next)
      (hside : (w.conns c).side = .pending) (h : w.daemon.answer .accepted = some d) :
      DaemonStep w
        { w.setConn c { w.conns c with side := .accepted } with
          daemon := d, attached := some c, held := [] }
  /-- An interrupted call, or a failed `accept`: the call is made again. -/
  | again (w : World) (d : Daemon)
      (h : w.daemon.answer .interrupted = some d ∨
        w.attached = none ∧ w.daemon.answer .failed = some d) :
      DaemonStep w { w with daemon := d }
  | read (w : World) (c : ℕ) (d : Daemon) (bytes rest : List (ℕ × UInt8))
      (hc : w.attached = some c) (hbytes : (w.conns c).request = bytes ++ rest)
      (h : w.daemon.answer (.read (bytes.map Prod.snd)) = some d) (hpc : d.pc ≠ .accept) :
      DaemonStep w
        { w.setConn c { w.conns c with request := rest } with
          daemon := d, held := w.held ++ bytes }
  /-- The size read is not admissible. -/
  | refuse (w : World) (c : ℕ) (d : Daemon) (bytes rest : List (ℕ × UInt8)) (keep : ℕ)
      (hc : w.attached = some c) (hbytes : (w.conns c).request = bytes ++ rest)
      (h : w.daemon.answer (.read (bytes.map Prod.snd)) = some d) (hpc : d.pc = .accept) :
      DaemonStep w (w.leave d keep)
  | eof (w : World) (c : ℕ) (d : Daemon) (keep : ℕ) (hc : w.attached = some c)
      (hopen : (w.conns c).clientOpen = false) (hnone : (w.conns c).request = [])
      (h : w.daemon.answer .eof = some d) : DaemonStep w (w.leave d keep)
  | fail (w : World) (c : ℕ) (d : Daemon) (keep : ℕ) (hc : w.attached = some c)
      (h : w.daemon.answer .failed = some d) : DaemonStep w (w.leave d keep)
  | execute (w : World) (cmds : List CmdInfo) (size text : List UInt8)
      (hpc : w.daemon.pc = .execute) (h : (w.daemon.run cmds).pc = .write size text) :
      DaemonStep w { w.record (some text) with daemon := w.daemon.run cmds, held := [] }
  /-- The scan leaves the buffer, and the process dies of it. -/
  | crash (w : World) (cmds : List CmdInfo) (keep : ℕ) (hpc : w.daemon.pc = .execute)
      (h : (w.daemon.run cmds).pc = .lost) :
      DaemonStep w ((w.record none).leave (w.daemon.run cmds) keep)
  /-- Bytes written to a client that has closed are lost. -/
  | write (w : World) (c n : ℕ) (d : Daemon) (hc : w.attached = some c)
      (h : w.daemon.answer (.wrote n) = some d) :
      DaemonStep w
        { w.setConn c { w.conns c with
            reply := if (w.conns c).clientOpen then
              (w.conns c).reply ++ w.daemon.pc.offers.take n else (w.conns c).reply } with
          daemon := d }
  /-- A new process; init may drop connections that wait to be accepted. -/
  | restart (w : World) (buf : Buffer) (keep : ℕ) (dropped : ℕ → Bool) :
      DaemonStep w ((w.leave ⟨buf, .accept⟩ keep).dropPending dropped)

/-- **What a call of the client does.** -/
inductive ClientStep : (op : Xloader.Op) → World → Xloader.Ans op → World → Prop
  | connected (w : World) :
      ClientStep .connect w true
        { w.setConn w.next {} with next := w.next + 1, current := some w.next }
  | refused (w : World) : ClientStep .connect w false w
  | getStreams (w : World) (ok : Bool) : ClientStep .getStreams w ok w
  | close (w : World) (c : ℕ) (hc : w.current = some c) :
      ClientStep .close w ()
        { w.setConn c { w.conns c with request := [], reply := [], clientOpen := false } with
          current := none }
  | closeUnconnected (w : World) (hc : w.current = none) : ClientStep .close w () w
  | read (w : World) (len c : ℕ) (bytes : Xloader.Chunk len) (rest : List UInt8)
      (hc : w.current = some c) (h : (w.conns c).reply = bytes.val ++ rest) :
      ClientStep (.read len) w (some bytes) (w.setConn c { w.conns c with reply := rest })
  /-- The stream has ended, or `read` throws. -/
  | readFailed (w : World) (len : ℕ) : ClientStep (.read len) w none w
  | wrote (w : World) (bytes : List UInt8) (c : ℕ) (hc : w.current = some c) :
      ClientStep (.write bytes) w true (w.deliver c bytes)
  /-- A `write` that throws has delivered some bytes, but not all. -/
  | writeFailed (w : World) (bytes : List UInt8) (c n : ℕ) (hc : w.current = some c)
      (hn : n < bytes.length) :
      ClientStep (.write bytes) w false (w.deliver c (bytes.take n))

/-! ## The whole system -/

/-- The client between two transactions, or inside one. -/
inductive Client where
  | idle (x : Xloader.State)
  | running (p : Xloader.Io (Option (List UInt8) × Xloader.State))

structure System where
  client : Client
  world : World

/-- The client's program in the world of the daemon. -/
def arena : Prog.Arena Xloader.Op Xloader.Ans World where
  env := DaemonStep
  act := ClientStep

/-- **A step of the system.** -/
inductive Step : System → System → Prop
  | daemon (p : Client) {w w' : World} (h : DaemonStep w w') : Step ⟨p, w⟩ ⟨p, w'⟩
  | begin (x : Xloader.State) (cmd : String) (w : World) :
      Step ⟨.idle x, w⟩
        ⟨.running (Xloader.exchange x cmd), { w with commands := w.commands ++ [cmd] }⟩
  | client {op : Xloader.Op} (k : Xloader.Ans op → Xloader.Io (Option (List UInt8) × Xloader.State))
      {w w' : World} {a : Xloader.Ans op} (h : ClientStep op w a w') :
      Step ⟨.running (.call op k), w⟩ ⟨.running (k a), w'⟩
  | finish (reply : Option (List UInt8)) (x : Xloader.State) (w : World) :
      Step ⟨.running (.ret (reply, x)), w⟩
        ⟨.idle x, { w with
          replies := w.replies ++ reply.toList.map fun r => (w.commands.length - 1, r) }⟩

/-- A client without a socket, and a daemon that has just started. -/
def initial (buf : Buffer) (x : Xloader.State) : System where
  client := .idle { x with socket := false }
  world := { daemon := ⟨buf, .accept⟩ }

/-- The states of all runs. -/
def Reachable (s : System) : Prop := ∃ buf x, Relation.ReflTransGen Step (initial buf x) s

end Session

end Dynamicloader
