import Dynamicloader.Common.Decimal
import Dynamicloader.Common.Memory
/-!
# xloaderd — the command daemon

`xloaderd` serves one connection at a time: it reads a two-byte length and
that many bytes into one buffer shared by all commands, tokenises them in
place, calls the matching handler and writes the reply, which `execute`
formats into the same buffer from the scan pointer on.

The buffer ends the model's memory. A scan that reads behind it ends in
`overrun` and leaves the daemon `lost`. A reply that is printed across the
end (`Executed.Fits` says when it is not) is sent as it was printed; what
it overwrites behind the buffer is not modelled. Every address a step looks
at is recorded, an address outside the buffer included.

`isspace` is the one of the C locale, whose table has no blanks above 127;
whether `char` is signed makes no difference.
-/

namespace Dynamicloader

namespace Xloaderd

open Memory

/-- `BUFFER_MAX`, the input buffer for commands. -/
abbrev bufferMax : ℕ := 1024

/-- `TOKEN_MAX`, the most arguments a command may have. -/
abbrev tokenMax : ℕ := 8

/-- `REPLY_MAX`, the largest reply a handler may leave. -/
abbrev replyMax : ℕ := 256

abbrev Buffer := Memory bufferMax

/-- The bytes of ASCII characters. -/
def ascii (cs : List Char) : List UInt8 := cs.map fun c => UInt8.ofNat c.toNat

def isspace (b : UInt8) : Bool := b == 32 || (9 ≤ b && b ≤ 13)

/-! ## Tokenising in place -/

/-- How the tokeniser loop is left. -/
inductive Exit where
  | terminator
  | tooManyArguments
  | overrun
  deriving DecidableEq

/-- The locals on leaving the loop. `arg` holds the pointers after `arg[0]`,
which is the start of the buffer. -/
structure Scan where
  exit : Exit
  cmd : ℕ
  arg : List ℕ
  buf : Buffer
  examined : List ℕ

/-- The number of arguments, not counting `arg[0]`. -/
def Scan.n (s : Scan) : ℕ := s.arg.length

/-- **The `while (*cmd)` loop.** A blank is overwritten and stepped over,
and the `cmd++` at the end of the body then steps over the byte after it
as well, whatever it is. -/
def tokenize (buf : Buffer) (cmd : ℕ) (arg examined : List ℕ) : Scan :=
  if h : cmd < bufferMax then
    let examined := examined ++ [cmd]
    if buf[cmd] = 0 then
      { exit := .terminator, cmd := cmd, arg := arg, buf := buf, examined := examined }
    else if isspace buf[cmd] then
      let buf := buf.set cmd 0 h
      let arg := arg ++ [cmd + 1]
      if arg.length = tokenMax then
        { exit := .tooManyArguments, cmd := cmd + 1, arg := arg, buf := buf, examined := examined }
      else tokenize buf (cmd + 2) arg examined
    else tokenize buf (cmd + 1) arg examined
  else { exit := .overrun, cmd := cmd, arg := arg, buf := buf, examined := examined ++ [cmd] }
  termination_by bufferMax - cmd

/-! ## Handlers -/

/-- What a handler leaves in `reply`: a C string in `REPLY_MAX` bytes. -/
structure Reply where
  text : List UInt8 := []
  noNul : 0 ∉ text := by simp
  fits : text.length < replyMax := by decide

/-- What a handler answers. -/
structure Answer where
  ret : Int32
  reply : Reply := {}

/-- `struct cmdinfo`. A handler sees its arguments as C strings. -/
structure CmdInfo where
  name : List UInt8
  numargs : ℕ
  func : Vector (List UInt8) numargs → Answer
  noNul : 0 ∉ name := by decide

/-- The two entries of `cmds`, for any handlers. -/
def table (ping : Vector (List UInt8) 0 → Answer) (xload : Vector (List UInt8) 3 → Answer) :
    List CmdInfo :=
  [{ name := ascii "ping".toList, numargs := 0, func := ping },
   { name := ascii "xload".toList, numargs := 3, func := xload }]

def doPing (_ : Vector (List UInt8) 0) : Answer := { ret := 0 }

/-- `do_xload`; `xload` is the loader of xloader.c. -/
def doXload (xload : List UInt8 → List UInt8 → List UInt8 → Int32)
    (arg : Vector (List UInt8) 3) : Answer :=
  { ret := xload arg[0] arg[1] arg[2] }

def cmds (xload : List UInt8 → List UInt8 → List UInt8 → Int32) : List CmdInfo :=
  table doPing (doXload xload)

/-! ## Executing a command -/

/-- `!strcmp(name, v + a)`, and the addresses it looks at. -/
def strcmp : List UInt8 → Buffer → ℕ → Bool × List ℕ
  | [], v, a => (v[a]? == some 0, [a])
  | b :: name, v, a =>
    if v[a]? = some b then ((strcmp name v (a + 1)).1, a :: (strcmp name v (a + 1)).2)
    else (false, [a])

/-- The addresses a reader of the C string at `a` looks at. -/
def stringAddresses (v : Buffer) (a : ℕ) : List ℕ := List.range' a ((cstr v a).length + 1)

/-- A handler call: the command's name and the argument strings. -/
structure Call where
  name : List UInt8
  args : List (List UInt8)
  deriving DecidableEq

/-- What the search of the table decides. -/
structure Dispatched where
  call : Option Call := none
  answer : Answer := { ret := -1 }
  examined : List ℕ := []

/-- The argument strings of a finished scan. -/
def Scan.args (s : Scan) : List (List UInt8) := s.arg.map (cstr s.buf)

theorem Scan.length_args (s : Scan) : s.args.length = s.n := List.length_map _

/-- The `for` loop over `cmds`: the first entry of that name decides. -/
def dispatch (s : Scan) : List CmdInfo → Dispatched
  | [] => { examined := stringAddresses s.buf 0 }
  | c :: cs =>
    let equal := strcmp c.name s.buf 0
    if equal.1 then
      if h : s.n = c.numargs then
        let args : Vector (List UInt8) c.numargs :=
          ⟨s.args.toArray, s.length_args.trans h⟩
        { call := some ⟨c.name, s.args⟩
          answer := c.func args
          examined := equal.2 ++ s.arg.flatMap (stringAddresses s.buf) }
      else { examined := equal.2 }
    else
      let d := dispatch s cs
      { d with examined := equal.2 ++ d.examined }

/-- `"%d %s"`, or `"%d"` where the reply is empty. -/
def format (a : Answer) : List UInt8 :=
  ascii (Decimal.decimal a.ret.toInt) ++ if a.reply.text = [] then [] else 32 :: a.reply.text

/-- What a call of `execute` decides before it formats the reply. -/
structure Executed where
  scan : Scan
  dispatched : Dispatched

namespace Executed

variable (x : Executed)

/-- `arg[0]` as a string. -/
def name : List UInt8 := cstr x.scan.buf 0

def args : List (List UInt8) := x.scan.args

def n : ℕ := x.scan.n

def call : Option Call := x.dispatched.call

/-- Every address looked at. -/
def examined : List ℕ := x.scan.examined ++ x.dispatched.examined

/-- The reply as `snprintf` would print it. -/
def reply : List UInt8 := format x.dispatched.answer

/-- What `snprintf` stores: its limit is `BUFFER_MAX`, wherever it starts. -/
def printed : List UInt8 := x.reply.take (bufferMax - 1) ++ [0]

/-- The reply is written inside the buffer: the scan has stayed in it, and
the write pointer, the text and its NUL do. -/
def Fits : Prop := x.scan.exit ≠ .overrun ∧ x.scan.cmd + x.printed.length ≤ bufferMax

instance : Decidable x.Fits := inferInstanceAs (Decidable (_ ∧ _))

/-- `count`, an `unsigned short`. -/
def count : ℕ := min x.reply.length bufferMax % 2 ^ 16

end Executed

/-- From the end of the scan to the label `done`: too many arguments go
there at once. -/
def resolve (s : Scan) (cmds : List CmdInfo) : Dispatched :=
  match s.exit with
  | .terminator => dispatch s cmds
  | .tooManyArguments => {}
  | .overrun => {}

/-- `execute`, up to the label `done`. -/
def execute (cmds : List CmdInfo) (buf : Buffer) : Executed :=
  let s := tokenize buf 0 [] []
  { scan := s, dispatched := resolve s cmds }

/-! ## The main loop -/

/-- Where the daemon is waiting. `readx` and `writex` have a state for each
number of bytes already moved. -/
inductive Pc where
  | accept
  /-- `readx(s, &count, 2)`, with the low byte if it has come. -/
  | readSize (low : Option UInt8)
  /-- `readx(s, buf, count)`, with `n` bytes in the buffer. -/
  | readCommand (count n : ℕ) (more : n < count) (bound : count < bufferMax)
  | execute
  /-- The two `writex` calls, with what each has left to write. -/
  | write (size reply : List UInt8)
  /-- The scan has left the buffer: C says nothing about the rest. -/
  | lost
  deriving DecidableEq

/-- The number of bytes the daemon asks for. -/
def Pc.wants : Pc → ℕ
  | .readSize none => 2
  | .readSize (some _) => 1
  | .readCommand count n _ _ => count - n
  | _ => 0

/-- The bytes the daemon asks to be written. -/
def Pc.offers : Pc → List UInt8
  | .write size reply => if size ≠ [] then size else reply
  | _ => []

structure Daemon where
  buf : Buffer
  pc : Pc
  deriving DecidableEq

/-- What the kernel answers to the call the daemon waits in. -/
inductive Answered where
  | accepted
  | failed
  | interrupted
  | read (bytes : List UInt8)
  | eof
  | wrote (n : ℕ)
  deriving DecidableEq

namespace Daemon

/-- The size has been read: go on to the command or close the connection. -/
def sized (d : Daemon) (count : ℕ) : Daemon :=
  if h : 1 ≤ count ∧ count < bufferMax then
    { d with pc := .readCommand count 0 h.1 h.2 }
  else { d with pc := .accept }

/-- Bytes of the command arrive; the last of them ends `readx`, and the
terminator is put behind the command. -/
def received (d : Daemon) (count n : ℕ) (bound : count < bufferMax) (bytes : List UInt8) :
    Daemon :=
  let buf := store d.buf n bytes
  if h : n + bytes.length < count then
    { buf := buf, pc := .readCommand count (n + bytes.length) h bound }
  else { buf := buf.set count 0 bound, pc := .execute }

/-- Both `writex` calls are over when nothing is left to write. -/
def writing (d : Daemon) (size reply : List UInt8) : Daemon :=
  { d with pc := if size = [] ∧ reply = [] then .readSize none else .write size reply }

/-- **One answer of the kernel.** `none` where it does not answer the call
the daemon waits in. A failed `accept` is tried again; every other failure
closes the connection. -/
def answer (d : Daemon) (a : Answered) : Option Daemon :=
  match d.pc, a with
  | .accept, .accepted => some { d with pc := .readSize none }
  | .accept, .failed => some d
  | .readSize _, .interrupted => some d
  | .readSize _, .eof => some { d with pc := .accept }
  | .readSize _, .failed => some { d with pc := .accept }
  | .readSize none, .read [low] => some { d with pc := .readSize (some low) }
  | .readSize none, .read [low, high] => some (d.sized (ofLe16 low high))
  | .readSize (some low), .read [high] => some (d.sized (ofLe16 low high))
  | .readCommand _ _ _ _, .interrupted => some d
  | .readCommand _ _ _ _, .eof => some { d with pc := .accept }
  | .readCommand _ _ _ _, .failed => some { d with pc := .accept }
  | .readCommand count n _ bound, .read bytes =>
    if bytes ≠ [] ∧ n + bytes.length ≤ count then some (d.received count n bound bytes) else none
  | .write _ _, .interrupted => some d
  | .write _ _, .failed => some { d with pc := .accept }
  | .write size reply, .wrote n =>
    -- the second `writex` starts when the first has written everything
    if size ≠ [] then if n ≤ size.length then some (d.writing (size.drop n) reply) else none
    else if n ≤ reply.length then some (d.writing [] (reply.drop n)) else none
  | _, _ => none

/-- **The daemon runs the command in its buffer.** The reply is printed at
the scan pointer; `writex` is given its length and the bytes there. A daemon
whose reply does not fit (`Executed.Fits`) is assumed to go on as one whose reply
does: nothing that it uses lies behind the buffer. -/
def run (d : Daemon) (cmds : List CmdInfo) : Daemon :=
  let x := Xloaderd.execute cmds d.buf
  if x.scan.exit = .overrun then { buf := x.scan.buf, pc := .lost }
  else
    { buf := store x.scan.buf x.scan.cmd x.printed
      pc := .write (le16 x.count) (x.printed.take x.count) }

end Daemon

end Xloaderd

end Dynamicloader
