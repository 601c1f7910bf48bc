import Dynamicloader.Common.Decimal
import Dynamicloader.Common.Memory
import Dynamicloader.Common.Process
/-!
# Xloader — the client of the command daemon

`Xloader` keeps one socket and one buffer for all its commands. A command
is a frame of two length bytes and the command text; the reply is framed
the same way and parsed as a decimal number. Every method is a program
over the calls it makes on the socket.

`mIn` and `mOut` are set and cleared together with `mSocket`, so the model
keeps one flag for the three. What `close` throws is ignored by the source.
-/

namespace Dynamicloader

namespace Xloader

open Memory

/-! ## Strings and numbers of the platform -/

/-- `String.getBytes()` in the platform's charset, UTF-8. -/
def getBytes (s : String) : List UInt8 := s.toList.flatMap String.utf8EncodeChar

/-- Decode UTF-8 from position `i` on; an ill-formed byte becomes U+FFFD. -/
def decodeFrom (b : ByteArray) (i : ℕ) : List Char :=
  if i < b.size then
    match b.utf8DecodeChar? i with
    | some c => c :: decodeFrom b (i + c.utf8Size)
    | none => '�' :: decodeFrom b (i + 1)
  else []
  termination_by b.size - i
  decreasing_by
    · have := c.utf8Size_pos
      omega
    · omega

/-- `new String(bytes)` in the platform's charset. -/
def newString (bytes : List UInt8) : String := String.ofList (decodeFrom bytes.toByteArray 0)

/-- The zeros of the blocks of ten decimal digits that a `char` can hold. -/
def digitZeros : List ℕ :=
  [0x30, 0x660, 0x6F0, 0x7C0, 0x966, 0x9E6, 0xA66, 0xAE6, 0xB66, 0xBE6, 0xC66, 0xCE6, 0xD66,
    0xE50, 0xED0, 0xF20, 0x1040, 0x1090, 0x17E0, 0x1810, 0x1946, 0x19D0, 0x1A80, 0x1A90, 0x1B50,
    0x1BB0, 0x1C40, 0x1C50, 0xA620, 0xA8D0, 0xA900, 0xA9D0, 0xAA50, 0xABF0, 0xFF10]

/-- `Character.digit(c, 10)`. -/
def digit (c : Char) : Option ℕ :=
  (digitZeros.find? fun z => z ≤ c.toNat && c.toNat < z + 10).map (c.toNat - ·)

/-- `Integer.parseInt`; `none` is `NumberFormatException`. -/
def parseInt (s : String) : Option Int32 :=
  (Decimal.readInt digit s.toList).bind fun i =>
    if -2 ^ 31 ≤ i ∧ i < 2 ^ 31 then some (Int32.ofInt i) else none

/-! ## The socket -/

/-- The calls on the socket and its two streams. -/
inductive Op where
  | connect
  | getStreams
  | close
  | read (len : ℕ)
  | write (bytes : List UInt8)

/-- What one `read` of at most `len` bytes delivers. -/
abbrev Chunk (len : ℕ) := { bytes : List UInt8 // 0 < bytes.length ∧ bytes.length ≤ len }

/-- What a call answers: `false` and `none` stand for an `IOException`, and
`none` also for a `read` that answers `-1` or `0`. -/
def Ans : Op → Type
  | .connect => Bool
  | .getStreams => Bool
  | .close => Unit
  | .read len => Option (Chunk len)
  | .write _ => Bool

abbrev Io (α : Type) := Prog Op Ans α

/-- `mSocket.connect(address)` -/
def socketConnect : Io Bool := .call .connect .ret

/-- `mSocket.getInputStream()` and `mSocket.getOutputStream()` -/
def getStreams : Io Bool := .call .getStreams .ret

/-- `mSocket.close()`, `mIn.close()` and `mOut.close()` -/
def close : Io Unit := .call .close .ret

/-- `mOut.write(bytes)` -/
def write (bytes : List UInt8) : Io Bool := .call (.write bytes) .ret

/-- The size of `buf`. -/
abbrev bufSize : ℕ := 1024

/-- The fields of `Xloader`. -/
structure State where
  buf : Memory bufSize := Vector.replicate bufSize 0
  buflen : ℕ := 0
  /-- `mSocket != null` -/
  socket : Bool := false

def disconnect (x : State) : Io State := do
  if x.socket then
    close
    pure { x with socket := false }
  else pure x

def connect (x : State) : Io (Bool × State) := do
  if x.socket then pure (true, x)
  else
    let x := { x with socket := true }
    if ← socketConnect then
      if ← getStreams then pure (true, x)
      else return (false, ← disconnect x)
    else return (false, ← disconnect x)

/-- `readBytes(buf, len)`, from its loop variable `off` on. -/
def readBytes (x : State) (len off : ℕ) : Io (Bool × State) :=
  if off < len then
    .call (.read (len - off)) fun
      | some bytes => readBytes { x with buf := store x.buf off bytes.val } len (off + bytes.val.length)
      | none => do return (false, ← disconnect x)
  else pure (true, x)
  termination_by len - off
  decreasing_by
    have := bytes.property
    omega

def readReply (x : State) : Io (Bool × State) := do
  let (ok, x) ← readBytes { x with buflen := 0 } 2 0
  if !ok then return (false, x)
  let len := ofLe16 x.buf[0] x.buf[1]
  if len < 1 ∨ len > 1024 then return (false, ← disconnect x)
  let (ok, x) ← readBytes x len 0
  if !ok then return (false, x)
  pure (true, { x with buflen := len })

/-- `writeCommand`. A command of an inadmissible length is refused before
anything is written, and the socket kept. -/
def writeCommand (x : State) (cmd : String) : Io (Bool × State) := do
  let bytes := getBytes cmd
  let len := bytes.length
  if len < 1 ∨ len > 1024 then return (false, x)
  let x := { x with buf := store x.buf 0 (le16 len) }
  if ← write (x.buf.toList.take 2) then
    if ← write bytes then pure (true, x)
    else return (false, ← disconnect x)
  else return (false, ← disconnect x)

/-- `transaction`, up to the string it answers: the bytes of the reply, or
`none` where the source answers `"-1"` by itself. -/
def exchange (x : State) (cmd : String) : Io (Option (List UInt8) × State) := do
  let (ok, x) ← connect x
  if !ok then return (none, x)
  let (ok, x) ← writeCommand x cmd
  if ok then receive x
  else
    -- reconnect and write the command one more time before giving up
    let (ok, x) ← connect x
    if !ok then return (none, x)
    let (ok, x) ← writeCommand x cmd
    if ok then receive x else return (none, x)
where
  receive (x : State) : Io (Option (List UInt8) × State) := do
    let (ok, x) ← readReply x
    if ok then pure (some (x.buf.toList.take x.buflen), x) else pure (none, x)

def transaction (x : State) (cmd : String) : Io (String × State) := do
  let (reply, x) ← exchange x cmd
  pure ((reply.map newString).getD "-1", x)

def execute (x : State) (cmd : String) : Io (Int32 × State) := do
  let (res, x) ← transaction x cmd
  pure ((parseInt res).getD (-1), x)

def ping (x : State) : Io (Bool × State) := do
  let (ret, x) ← execute x "ping"
  pure (!(ret < 0), x)

/-- What `StringBuilder.append` adds for a `String`. -/
def appended (s : Option String) : String := s.getD "null"

/-- The command `xload` builds. -/
def xloadCommand (packageName processName modulePath : Option String) : String :=
  "xload" ++ " " ++ appended packageName ++ " " ++ appended processName ++ " " ++
    appended modulePath

def xload (x : State) (packageName processName modulePath : Option String) :
    Io (Int32 × State) :=
  execute x (xloadCommand packageName processName modulePath)

end Xloader

end Dynamicloader
