import Mathlib.Data.Fintype.Option
import Mathlib.Data.Fin.Basic
import Dynamicloader.Common.Monitor
/-!
# The memory-based service of Zygote

Zygote may not read the files of the modules itself. A service process that
may shares a page with it: a client writes its request there, wakes the
service (`looper`) and sleeps until the answer is in the same place. One
mutex and one condition variable serve both directions and all clients.

`accessFile`, `statFile` and `readFile` are the clients' functions. `readFile`
takes the file over in chunks of 32 KiB, one request each, and keeps the
service for itself until the last. What a function does with the page lies
between `waitForIdle` and `makeIdle` (`Local`), but for the last reads of
`shared->error` and `data->result`, which come after the mutex is released.

The three structs of the union lie side by side here: a function reads the
struct it wrote, and what another function leaves in the bytes they share
would be seen only by a reader without the mutex.
-/

namespace Dynamicloader

namespace Zygote

/-! ## The shared page -/

/-- The `int` that a sum of two of them, or an `off_t`, becomes. -/
def toInt (z : ℤ) : ℤ := z.bmod 4294967296

def PATH_MAX : ℕ := 4096

def EBUSY : ℤ := 16

def ENAMETOOLONG : ℤ := 36

/-- An `errno` that says what failed. -/
abbrev Errno := { e : ℤ // e ≠ 0 }

/-- No such file or directory. -/
def ENOENT : Errno := ⟨2, by decide⟩

/-- The text of a C string that fits `char path[PATH_MAX]`. -/
abbrev Path := { p : List UInt8 // p.length ≤ PATH_MAX - 1 }

inductive State where
  | notRunning
  | idle
  | serviceAction
  | serverResponse
  deriving DecidableEq

inductive Action where
  | none
  | accessFile
  | statFile
  | readFile
  deriving DecidableEq

/-- The fields of `struct stat` that the callers read. -/
structure Stat where
  size : ℤ
  mtime : ℤ
  isDir : Bool
  deriving DecidableEq, Inhabited

structure AccessFileData where
  mode : ℤ
  result : ℤ
  deriving DecidableEq

structure StatFileData where
  st : Stat
  result : ℤ
  deriving DecidableEq

/-- `sizeof(ReadFileData::content)` -/
def CHUNK : ℕ := 32 * 1024

/-- `content` are the `bytesRead` bytes that `fread` left there. -/
structure ReadFileData where
  offset : ℤ
  totalSize : ℤ
  eof : Bool
  content : List UInt8
  fits : content.length ≤ CHUNK
  deriving DecidableEq

def ReadFileData.bytesRead (d : ReadFileData) : ℤ := d.content.length

/-- The union, with the `path` that all three structs begin with. -/
structure Data where
  path : Path
  access : AccessFileData
  stat : StatFileData
  read : ReadFileData
  deriving DecidableEq

structure MemBasedState where
  state : State
  action : Action
  error : ℤ
  data : Data
  deriving DecidableEq

/-- A fresh page is zero. -/
def Data.zero : Data where
  path := ⟨[], by decide⟩
  access := ⟨0, 0⟩
  stat := ⟨⟨0, 0, false⟩, 0⟩
  read := ⟨0, 0, false, [], Nat.zero_le _⟩

/-- The page that `init` leaves. -/
def init : MemBasedState where
  state := .notRunning
  action := .none
  error := 0
  data := .zero

/-! ## The server -/

/-- An open stream: what `fseek` to an offset fails with (the stream's error
flag), and what `fread` of `n` bytes gives behind an offset, with `ferror` and
`feof`. -/
structure File where
  fseek : ℤ → Option ℤ
  fread : ℤ → ℕ → List UInt8 × ℤ × Bool
  fread_le : ∀ offset n, (fread offset n).1.length ≤ n

/-- The files, as the server finds them during one action. -/
structure Files where
  access : Path → ℤ → Option Errno
  stat : Path → Except Errno Stat
  fopen : Path → Except Errno File

/-- `case OP_ACCESS_FILE`. -/
def serveAccess (files : Files) (m : MemBasedState) : MemBasedState :=
  match files.access m.data.path m.data.access.mode with
  | none => { m with data.access.result := 0 }
  | some e => { m with data.access.result := -1, error := e }

/-- `case OP_STAT_FILE`. -/
def serveStat (files : Files) (m : MemBasedState) : MemBasedState :=
  match files.stat m.data.path with
  | .ok st => { m with data.stat := ⟨st, 0⟩ }
  | .error e => { m with data.stat.result := -1, error := e }

/-- What `case OP_READ_FILE` does with the open stream. -/
def serveChunk (f : File) (m : MemBasedState) : MemBasedState :=
  -- the file is opened anew for each chunk
  match if m.data.read.offset > 0 then f.fseek m.data.read.offset else none with
  | some ferror => { m with error := ferror }
  | none =>
    let offset := max m.data.read.offset 0
    -- the bytes, `ferror` and `feof`
    let read := f.fread offset CHUNK
    { m with
      error := read.2.1
      data.read := { m.data.read with
        content := read.1, eof := read.2.2, fits := f.fread_le offset CHUNK } }

/-- `case OP_READ_FILE`. -/
def serveRead (files : Files) (m : MemBasedState) : MemBasedState :=
  match files.stat m.data.path with
  | .error e => { m with error := e }
  | .ok st =>
    let m := { m with data.read.totalSize := toInt st.size }
    match files.fopen m.data.path with
    | .error e => { m with error := e }
    | .ok f => serveChunk f m

/-- The `switch` of `looper`. -/
def serve (files : Files) (m : MemBasedState) : MemBasedState :=
  match m.action with
  | .accessFile => serveAccess files m
  | .statFile => serveStat files m
  | .readFile => serveRead files m
  | .none => m

/-- What the server is asked: its action with the fields the action reads. -/
inductive Request where
  | access (path : Path) (mode : ℤ)
  | stat (path : Path)
  | read (path : Path) (offset : ℤ)
  | none
  deriving DecidableEq

def MemBasedState.request (m : MemBasedState) : Request :=
  match m.action with
  | .accessFile => .access m.data.path m.data.access.mode
  | .statFile => .stat m.data.path
  | .readFile => .read m.data.path m.data.read.offset
  | .none => .none

/-- What is in the page when the answer is there. -/
structure Reply where
  error : ℤ
  data : Data
  deriving DecidableEq

def MemBasedState.reply (m : MemBasedState) : Reply := ⟨m.error, m.data⟩

/-! ## The clients -/

/-- A function of the service with its arguments. -/
inductive Function where
  | accessFile (path : Path) (mode : ℤ)
  | statFile (path : Path)
  | readFile (path : Path)
  deriving DecidableEq

/-- What the client writes before `callService`: the first request of a
function, or the `offset` of the next chunk. -/
inductive Call where
  | first (f : Function)
  | next (offset : ℤ)
  deriving DecidableEq

def Call.action : Call → Action
  | first (.accessFile ..) => .accessFile
  | first (.statFile _) => .statFile
  | first (.readFile _) => .readFile
  | next _ => .readFile

/-- `strcpy(data->path, path)` and the other field. -/
def Call.store : Call → Data → Data
  | first (.accessFile path mode), d => { d with path := path, access.mode := mode }
  | first (.statFile path), d => { d with path := path }
  | first (.readFile path), d => { d with path := path, read.offset := 0 }
  | next offset, d => { d with read.offset := offset }

/-- `callService` up to its wait, with the fields written before it. -/
def callService (call : Call) (m : MemBasedState) : MemBasedState where
  state := .serviceAction
  action := call.action
  error := 0
  data := call.store m.data

/-- The memory of `malloc(totalSize + 1)`. -/
structure Buffer where
  cells : List (Option UInt8)
  /-- A `memcpy` went past its end. -/
  overrun : Bool
  deriving DecidableEq

/-- `malloc(totalSize + 1)` and `result[totalSize] = 0`. A size that is
negative, or whose successor is, is one no memory is there for. -/
def Buffer.malloc (totalSize : ℤ) : Buffer where
  cells := (List.replicate (toInt (totalSize + 1)).toNat none).set totalSize.toNat (some 0)
  overrun := decide (totalSize < 0) || decide (toInt (totalSize + 1) < 0)

/-- `memcpy(result + offset, src, src.length)`. What is past the end of the
memory is not looked at further. -/
def Buffer.memcpy (b : Buffer) (offset : ℤ) (src : List UInt8) : Buffer where
  cells := (b.cells.take offset.toNat ++ src.map some ++
    b.cells.drop (offset.toNat + src.length)).take b.cells.length
  overrun := b.overrun || decide (offset < 0 ∨ offset + src.length > b.cells.length)

/-- What a function has when it reaches `makeIdle`: for `readFile` the
`result`, the value of `*bytesRead` and whether it has set `EBUSY`. -/
inductive Final where
  | access
  | stat (st : Stat)
  | read (result : Option Buffer) (bytesRead : ℤ) (busy : Bool)
  deriving DecidableEq

/-- Where a function is between `waitForIdle` and `makeIdle`: before its first
request, in the loop of `readFile` with the offset of the next chunk written,
or through. -/
inductive Local where
  | start (f : Function)
  | reading (result : Buffer) (offset totalSize : ℤ)
  | done (r : Final)
  deriving DecidableEq

/-- The next request, `none` at `makeIdle`. -/
def Local.ask : Local → Option Call
  | start f => some (.first f)
  | reading _ offset _ => some (.next offset)
  | done _ => none

/-- `while (!data->eof)` behind the chunk at `offset`. -/
def chunkRead (result : Buffer) (offset totalSize : ℤ) (d : ReadFileData) : Local :=
  if d.eof then .done (.read (some result) (toInt (offset + d.bytesRead)) false)
  else .reading result (toInt (offset + d.bytesRead)) totalSize

/-- What the function does with an answer, up to the next request. -/
def Local.resume : Local → Reply → Local
  | start (.accessFile ..), _ => .done .access
  | start (.statFile _), r => .done (.stat r.data.stat.st)
  | start (.readFile _), r =>
    if r.error ≠ 0 then .done (.read none 0 false)
    else
      let totalSize := r.data.read.totalSize
      chunkRead ((Buffer.malloc totalSize).memcpy 0 r.data.read.content) 0 totalSize r.data.read
  | reading result offset totalSize, r =>
    if r.error ≠ 0 then .done (.read (some result) 0 false)
    else if toInt (offset + r.data.read.bytesRead) > totalSize then
      .done (.read (some result) 0 true)
    else chunkRead (result.memcpy offset r.data.read.content) offset totalSize r.data.read
  | done r, _ => .done r

/-- `makeIdle` up to its signal, with the error `readFile` sets before it. -/
def makeIdle (r : Final) (m : MemBasedState) : MemBasedState where
  state := .idle
  action := .none
  error := match r with
    | .read _ _ true => EBUSY
    | _ => m.error
  data := m.data

/-- What a function returns: `errno`, the value and what it filled in. -/
inductive Returned where
  | access (errno value : ℤ)
  | stat (errno value : ℤ) (st : Stat)
  | read (errno : ℤ) (result : Option Buffer) (bytesRead : ℤ)
  deriving DecidableEq

/-! ## The code of server and clients -/

/-- A client is about to call a function, with any string for a path. -/
inductive Invocation where
  | accessFile (path : List UInt8) (mode : ℤ)
  | statFile (path : List UInt8)
  | readFile (path : List UInt8)

/-- `strlen(path) > PATH_MAX - 1` is refused before anything else. -/
def Invocation.check : Invocation → Option Function
  | accessFile path mode =>
    if h : path.length ≤ PATH_MAX - 1 then some (.accessFile ⟨path, h⟩ mode) else none
  | statFile path => if h : path.length ≤ PATH_MAX - 1 then some (.statFile ⟨path, h⟩) else none
  | readFile path => if h : path.length ≤ PATH_MAX - 1 then some (.readFile ⟨path, h⟩) else none

/-- The points of the code. -/
inductive Point where
  /-- `looper` before its lock. -/
  | looper
  | starting
  | started
  /-- The head of its loop. -/
  | loop
  | answered
  /-- A client outside of all functions. -/
  | out
  /-- `waitForIdle` before its lock, and at its loop. -/
  | waitForIdle (f : Function)
  | idleTest (f : Function)
  /-- A function with the service for itself. -/
  | body (l : Local)
  /-- `callService` at its signal, and at its loop. -/
  | calling (l : Local)
  | responseTest (l : Local)
  /-- `makeIdle` at its signal, and at its unlock. -/
  | leaving (r : Final)
  | unlocking (r : Final)
  /-- Behind `makeIdle`: before the first read of `shared->error`, before the
  second, and before the read of `data->result`. -/
  | after (r : Final)
  | errnoSet (r : Final) (errno : ℤ)
  | valueRead (r : Final) (errno : ℤ)
  deriving DecidableEq

/-- What is answered from outside at a step: the files, for the server, and
the function a client calls. -/
structure Choice where
  files : Files
  call : Invocation

/-- What is seen of a run: a client gets the service, the server acts on a
request, a client leaves the service to others, with what is in the page
then, and a function returns. -/
inductive Log (n : ℕ) where
  | began (i : Fin n) (f : Function)
  | served (files : Files) (req : Request) (r : Reply)
  | ended (i : Fin n) (r : Final) (page : Reply)
  | returned (i : Fin n) (v : Returned)
  | refused (i : Fin n) (errno : ℤ)

open Monitor

variable {n : ℕ}

/-- `looper`. -/
def looper (c : Choice) (m : MemBasedState) : Point → Instr MemBasedState Point (Log n)
  | .looper => .lock .starting
  | .starting => .act { m with state := .idle } .started []
  | .started => .signal .loop
  | .loop =>
    if m.state ≠ .serviceAction then .wait .loop
    else
      let m' := { serve c.files m with state := .serverResponse }
      .act m' .answered [.served c.files m.request m'.reply]
  | .answered => .signal .loop
  | _ => .stop

/-- What a function does behind `makeIdle`, one read of the page a step. -/
def conclude (i : Fin n) (m : MemBasedState) : Point → Instr MemBasedState Point (Log n)
  | .after (.read result bytesRead busy) =>
    -- if (shared->error && result) free(result)
    .act m (.errnoSet (.read (if m.error ≠ 0 then none else result) bytesRead busy) 0) []
  | .after r => .act m (.errnoSet r m.error) []
  | .errnoSet (.read result bytesRead _) _ =>
    .act m .out [.returned i (.read m.error result bytesRead)]
  | .errnoSet .access errno =>
    if m.error ≠ 0 then .act m .out [.returned i (.access errno (-1))]
    else .act m (.valueRead .access errno) []
  | .errnoSet (.stat st) errno =>
    if m.error ≠ 0 then .act m .out [.returned i (.stat errno (-1) st)]
    else .act m (.valueRead (.stat st) errno) []
  | .valueRead .access errno => .act m .out [.returned i (.access errno m.data.access.result)]
  | .valueRead (.stat st) errno => .act m .out [.returned i (.stat errno m.data.stat.result st)]
  | _ => .stop

/-- A client. -/
def client (i : Fin n) (c : Choice) (m : MemBasedState) :
    Point → Instr MemBasedState Point (Log n)
  | .out =>
    match c.call.check with
    | some f => .act m (.waitForIdle f) []
    | none => .act m .out [.refused i ENAMETOOLONG]
  | .waitForIdle f => .lock (.idleTest f)
  | .idleTest f =>
    if m.state ≠ .idle then .wait (.idleTest f)
    else .act m (.body (.start f)) [.began i f]
  | .body (.done r) => .act (makeIdle r m) (.leaving r) [.ended i r (makeIdle r m).reply]
  | .body l =>
    match l.ask with
    | some call => .act (callService call m) (.calling l) []
    | none => .stop
  | .calling l => .signal (.responseTest l)
  | .responseTest l =>
    if m.state ≠ .serverResponse then .wait (.responseTest l)
    else .act m (.body (l.resume m.reply)) []
  | .leaving r => .signal (.unlocking r)
  | .unlocking r => .unlock (.after r)
  | l => conclude i m l

/-- The server is the thread `none`, the clients are the others. -/
def code (n : ℕ) : Code (Option (Fin n)) Choice MemBasedState Point (Log n)
  | none, c, m, l => looper c m l
  | some i, c, m, l => client i c m l

/-- Server and clients are about to start. -/
def boot (n : ℕ) : Config (Option (Fin n)) MemBasedState Point where
  owner := none
  ctl
    | none => .ready .looper
    | some _ => .ready .out
  mem := init

/-- The service with `n` clients. -/
def service (n : ℕ) : Machine (Config (Option (Fin n)) MemBasedState Point)
    (Event (Option (Fin n)) Choice) (Log n) :=
  machine (code n)

end Zygote

end Dynamicloader
