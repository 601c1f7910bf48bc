import Dynamicloader.Common.Decimal
import Dynamicloader.Common.Parcel
/-!
# The file services

Code of the framework and of modules reads files through a `BaseService`: with
its own rights (`DirectAccessService`), through the page that Zygote shares
with its helper (`ZygoteService`), or through the binder (`BinderService`). At
the other end of the binder is `XposedService`, a process that may read the
files of apps.

What the system says of a file during one call is a parameter, and so are the
layout of parcels and what the binder makes of a transaction. A string is UTF-16
on both sides, and the conversion to the bytes of a path is left out. Where
`offset + length` does not fit an `int`, the sum wraps around; in C++ the
behaviour is not defined then.

The name that `XposedService` hands to the system points into a `String8` that
is gone by then (`const char* filename = String8(filename16).string();`). What
is found there is up to whoever uses the memory in between: `Kernel.freed`.
-/

namespace Dynamicloader

namespace Services

open Parcel

abbrev JInt := BitVec 32

abbrev JLong := BitVec 64

/-- The text of a literal. -/
def text (s : String) : String16 := s.toList.map fun c => BitVec.ofNat 16 c.toNat

/-- `%d` of an `int`, and `%PRId64` of an `int64_t`. -/
def decimal (i : ℤ) : String16 := (Decimal.decimal i).map fun c => BitVec.ofNat 16 c.toNat

/-! ## Errors -/

def EPERM : JInt := 1
def ENOENT : JInt := 2
def ENOMEM : JInt := 12
def EACCES : JInt := 13
def EISDIR : JInt := 21
def EINVAL : JInt := 22

/-- An `errno` that says what failed. -/
abbrev Errno := { e : JInt // e ≠ 0 }

/-- What a call of a service throws. -/
inductive Throwable where
  | illegalArgument (message : String16)
  | io (message : String16)
  | ioCause (cause : Throwable)
  | fileNotFound (message : String16)
  | outOfMemory (message : String16)
  | negativeArraySize
  | indexOutOfBounds
  /-- `RemoteException`: the transaction has failed. -/
  | remote
  /-- Any other. -/
  | other
  deriving DecidableEq

/-- `FileResult`, but for its `stream`. -/
structure FileResult where
  content : Option Bytes
  size : JLong
  mtime : JLong
  deriving DecidableEq

/-! ## The range of a request

The three services check it alike. -/

inductive Range where
  | badOffset
  /-- with the offset that has been checked -/
  | badLength (offset : JInt)
  | range (offset length : JInt)
  deriving DecidableEq

def checkRange (size : JLong) (offset length : JInt) : Range :=
  if 0 < offset.toInt ∧ size.toInt ≤ offset.toInt then .badOffset
  else
    let offset := if offset.toInt < 0 then 0 else offset
    if 0 < length.toInt ∧ size.toInt < (offset + length).toInt then .badLength offset
    else
      .range offset
        (if length.toInt ≤ 0 then BitVec.ofInt 32 (size.toInt - offset.toInt) else length)

/-! ## XposedService -/

/-- The fields of `struct stat` that are read. -/
structure Stat where
  size : JLong
  mtime : JLong
  isDir : Bool

/-- An open stream: what `ferror` says when `fseek` fails, and what `fread` of
so many bytes behind an offset reads, with `ferror`. -/
structure Stream where
  fseek : JInt → Option JInt
  fread : JInt → JInt → Bytes × JInt
  fread_length : ∀ offset length, (fread offset length).1.length ≤ length.toNat

/-- Where the name of a file is used: in calls of the system, and in messages. -/
inductive Use where
  | access
  | stat
  | stating
  | directory
  | offset
  | length
  | fopen
  | opening
  | seeking
  | reading

/-- What the process of the service asks of the system. -/
structure Kernel where
  /-- What stands, at that use of it, where the name has been freed. -/
  freed : Use → String16 → String16
  access : String16 → JInt → Option Errno
  stat : String16 → Except Errno Stat
  fopen : String16 → Except Errno Stream
  /-- `malloc` succeeds. -/
  malloc : JInt → Bool
  strerror : JInt → String16
  strerror_length : ∀ err, (strerror err).length < 2 ^ 16

def UID_SYSTEM : ℕ := 1000

/-- The outcome of a function, and `errno` where it fails. -/
abbrev Result (α : Type) := Except JInt α

variable (K : Kernel) (caller : ℕ)

/-- `XposedService::accessFile` -/
def accessFile (filename : String16) (mode : JInt) : Result Unit :=
  if caller ≠ UID_SYSTEM then .error EPERM
  else match K.access (K.freed .access filename) mode with
    | none => .ok ()
    | some e => .error e

/-- `XposedService::statFile` -/
def statFile (filename : String16) : Result (JLong × JLong) :=
  if caller ≠ UID_SYSTEM then .error EPERM
  else match K.stat (K.freed .stat filename) with
    | .ok st => .ok (st.size, st.mtime)
    | .error e => .error e

/-- What `readFile` returns, and what it leaves in its out parameters. -/
structure Read where
  err : JInt
  size : JLong
  mtime : JLong
  buffer : Bytes
  bytesRead : JInt
  errormsg : String16

/-- It has failed, or nothing has been read. -/
def Read.left (err : JInt) (size mtime : JLong) (errormsg : String16) : Read :=
  { err, size, mtime, buffer := [], bytesRead := -1, errormsg }

/-- From the allocation of the buffer on. -/
def readRange (filename : String16) (offset length : JInt) (size mtime : JLong) : Read :=
  if K.malloc (length + 1) = false then
    .left ENOMEM size mtime
      (text "allocating buffer with " ++ decimal (length + 1).toInt ++ text " bytes failed")
  else match K.fopen (K.freed .fopen filename) with
    | .error err =>
      .left err size mtime
        (K.strerror err ++ text " during fopen() on " ++ K.freed .opening filename)
    | .ok f =>
      -- what is returned is the error flag of the stream, which need not be set
      match if 0 < offset.toInt then f.fseek offset else none with
      | some err =>
        .left err size mtime (K.strerror err ++ text " during fseek() to offset " ++
          decimal offset.toInt ++ text " for " ++ K.freed .seeking filename)
      | none =>
        let buffer := (f.fread offset length).1
        let err := (f.fread offset length).2
        if err ≠ 0 then
          -- `bytesRead` is reset before it is printed
          .left err size mtime (K.strerror err ++ text " during fread(), read " ++
            decimal (-1) ++ text " bytes for " ++ K.freed .reading filename)
        else
          { err, size, mtime, buffer, bytesRead := BitVec.ofNat 32 buffer.length, errormsg := [] }

/-- From the check of the range on. -/
def readChanged (filename : String16) (offset length : JInt) (size mtime : JLong) : Read :=
  match checkRange size offset length with
  | .badOffset =>
    .left EINVAL size mtime (text "offset " ++ decimal offset.toInt ++ text " >= size " ++
      decimal size.toInt ++ text " for " ++ K.freed .offset filename)
  | .badLength offset =>
    .left EINVAL size mtime (text "offset " ++ decimal offset.toInt ++ text " + length " ++
      decimal length.toInt ++ text " > size " ++ decimal size.toInt ++ text " for " ++
      K.freed .length filename)
  | .range offset length =>
    if size = 0 then { err := 0, size, mtime, buffer := [], bytesRead := 0, errormsg := [] }
    else readRange K filename offset length size mtime

/-- **`XposedService::readFile`**, with the size and the time of the last read. -/
def readFile (filename : String16) (offset length : JInt) (size mtime : JLong) : Read :=
  if caller ≠ UID_SYSTEM then .left EPERM size mtime []
  else match K.stat (K.freed .stat filename) with
    | .error err =>
      .left err size mtime
        (K.strerror err ++ text " during stat() on " ++ K.freed .stating filename)
    | .ok st =>
      if st.isDir then
        .left EISDIR size mtime (K.freed .directory filename ++ text " is a directory")
      else if size = st.size ∧ mtime = (st.mtime.setWidth 32).signExtend 64 then
        .left 0 size mtime []
      else readChanged K filename offset length st.size st.mtime

/-! ## The server's side of the binder -/

def interfaceToken : String16 := text "de.robv.android.xposed.IXposedService"

/-- `FIRST_CALL_TRANSACTION + 2` -/
def ACCESS_FILE_TRANSACTION : ℕ := 3

/-- `FIRST_CALL_TRANSACTION + 3` -/
def STAT_FILE_TRANSACTION : ℕ := 4

/-- `FIRST_CALL_TRANSACTION + 4` -/
def READ_FILE_TRANSACTION : ℕ := 5

section Parcels

variable {C : Type} (F : Format C Throwable)

/-- `readString16` of the server: `null` is the empty string. -/
def readFilename (data : List C) : String16 × List C :=
  let (filename, data) := F.readString16 data
  (filename.getD [], data)

def Result.errno {α : Type} : Result α → JInt
  | .ok _ => 0
  | .error err => err

/-- `case ACCESS_FILE_TRANSACTION` -/
def onAccessFile (data : List C) : List C :=
  let (filename, data) := readFilename F data
  let (mode, _) := F.readInt32 data
  F.writeNoException ++ F.writeInt32 (Result.errno (accessFile K caller filename mode))

/-- `case STAT_FILE_TRANSACTION` -/
def onStatFile (data : List C) : List C :=
  let (filename, _) := readFilename F data
  F.writeNoException ++ match statFile K caller filename with
    | .ok (size, time) => F.writeInt32 0 ++ (F.writeInt64 size ++ F.writeInt64 time)
    | .error err => F.writeInt32 err

def Read.write (r : Read) : List C :=
  F.writeInt32 r.err ++ (F.writeString16 r.errormsg ++ (F.writeInt64 r.size ++
    (F.writeInt64 r.mtime ++
      (F.writeInt32 r.bytesRead ++ if 0 < r.bytesRead.toInt then F.write r.buffer else []))))

/-- `case READ_FILE_TRANSACTION` -/
def onReadFile (data : List C) : List C :=
  let (filename, data) := readFilename F data
  let (offset, data) := F.readInt32 data
  let (length, data) := F.readInt32 data
  let (size, data) := F.readInt64 data
  let (mtime, _) := F.readInt64 data
  F.writeNoException ++ (readFile K caller filename offset length size mtime).write F

/-- **`BnXposedService::onTransact`**, for the calls about files: the reply, where
`CHECK_INTERFACE` lets the call pass. -/
def onTransact (code : ℕ) (data : List C) : Option (List C) :=
  if code = ACCESS_FILE_TRANSACTION then
    (F.enforceInterface interfaceToken data).map (onAccessFile K caller F)
  else if code = STAT_FILE_TRANSACTION then
    (F.enforceInterface interfaceToken data).map (onStatFile K caller F)
  else if code = READ_FILE_TRANSACTION then
    (F.enforceInterface interfaceToken data).map (onReadFile K caller F)
  else none

/-! ## BinderService -/

/-- `ensureAbsolutePath` -/
def ensureAbsolutePath (filename : String16) : Except Throwable Unit :=
  if filename.head? = some 47 then .ok ()
  else .error (.illegalArgument (text "Only absolute filenames are allowed: " ++ filename))

/-- `errorMsg != null ? errorMsg : ...` -/
def orElse (errorMsg : Option String16) (message : String16) : String16 := errorMsg.getD message

/-- `throwCommonIOException` -/
def commonIOException (errno : JInt) (errorMsg : Option String16) (filename : String16)
    (defaultText : String) : Throwable :=
  if errno = EPERM ∨ errno = EACCES then
    .fileNotFound (orElse errorMsg (text "Permission denied: " ++ filename))
  else if errno = ENOENT then
    .fileNotFound (orElse errorMsg (text "No such file or directory: " ++ filename))
  else if errno = ENOMEM then .outOfMemory (errorMsg.getD [])
  else if errno = EISDIR then
    .fileNotFound (orElse errorMsg (text "Is a directory: " ++ filename))
  else .io (orElse errorMsg
    (text "Error " ++ decimal errno.toInt ++ text defaultText ++ filename))

/-- `mRemote.transact`: the reply, or what is thrown. -/
abbrev Remote (C : Type) := ℕ → List C → Except Throwable (List C)

def accessFileData (filename : String16) (mode : JInt) : List C :=
  F.writeInterfaceToken interfaceToken ++ (F.writeString16 filename ++ F.writeInt32 mode)

def statFileData (filename : String16) : List C :=
  F.writeInterfaceToken interfaceToken ++ F.writeString16 filename

def readFileData (filename : String16) (offset length : JInt)
    (previousSize previousTime : JLong) : List C :=
  F.writeInterfaceToken interfaceToken ++ (F.writeString16 filename ++
    (F.writeInt32 offset ++ (F.writeInt32 length ++
      (F.writeInt64 previousSize ++ F.writeInt64 previousTime))))

/-- `BinderService.checkFileAccess` -/
def Remote.checkFileAccess (remote : Remote C) (filename : String16) (mode : JInt) :
    Except Throwable Bool := do
  ensureAbsolutePath filename
  match remote ACCESS_FILE_TRANSACTION (accessFileData F filename mode) with
  | .error .remote => return false
  | .error e => throw e
  | .ok reply =>
    let reply ← F.readException reply
    return (F.readInt32 reply).1 == 0

/-- `new IOException(e)` for a `RemoteException`. -/
def orIOException (reply : Except Throwable (List C)) : Except Throwable (List C) :=
  match reply with
  | .error .remote => .error (.ioCause .remote)
  | _ => reply

/-- `BinderService.statFile` -/
def Remote.statFile (remote : Remote C) (filename : String16) :
    Except Throwable FileResult := do
  ensureAbsolutePath filename
  let reply ← orIOException (remote STAT_FILE_TRANSACTION (statFileData F filename))
  let reply ← F.readException reply
  let (errno, reply) := F.readInt32 reply
  if errno ≠ 0 then
    throw (commonIOException errno none filename " while retrieving attributes for ")
  let (size, reply) := F.readInt64 reply
  let (time, _) := F.readInt64 reply
  return ⟨none, size, time⟩

/-- The `switch` at the end of `BinderService.readFile`. -/
def readFileResult (filename : String16) (offset length : JInt) (errno : JInt)
    (errorMsg : Option String16) (size time : JLong) (content : Option Bytes) :
    Except Throwable FileResult :=
  if errno = 0 then .ok ⟨content, size, time⟩
  else if errno = EINVAL then
    match errorMsg with
    | some errorMsg =>
      if offset = 0 ∧ length = 0 then .error (.ioCause (.illegalArgument errorMsg))
      else .error (.illegalArgument errorMsg)
    | none => .error (.illegalArgument (text "Offset " ++ decimal offset.toInt ++
        text " / Length " ++ decimal length.toInt ++ text " is out of range for " ++ filename ++
        text " with size " ++ decimal size.toInt))
  else .error (commonIOException errno errorMsg filename " while reading ")

/-- **`BinderService.readFile`** -/
def Remote.readFile (remote : Remote C) (filename : String16) (offset length : JInt)
    (previousSize previousTime : JLong) : Except Throwable FileResult := do
  ensureAbsolutePath filename
  let reply ← orIOException (remote READ_FILE_TRANSACTION
    (readFileData F filename offset length previousSize previousTime))
  let reply ← F.readException reply
  let (errno, reply) := F.readInt32 reply
  let (errorMsg, reply) := F.readString16 reply
  let (size, reply) := F.readInt64 reply
  let (time, reply) := F.readInt64 reply
  let (content, _) := F.createByteArray reply
  readFileResult filename offset length errno errorMsg size time content

end Parcels

/-! ## DirectAccessService -/

/-- What `java.io.File` and `FileInputStream` say of a file: a stream, once it
is open, gives so many bytes behind those skipped, as far as there are any. -/
structure JavaFile where
  length : JLong
  lastModified : JLong
  open_ : Except Throwable (ℕ → ℕ → Bytes)

namespace Direct

variable (file : JavaFile)

/-- `DirectAccessService.statFile` -/
def statFile : FileResult := ⟨none, file.length, file.lastModified⟩

/-- `new byte[length]`, filled by one `read` behind `skip`. -/
def fill (skip : ℕ) (length : JInt) : Except Throwable Bytes :=
  if length.toInt < 0 then .error .negativeArraySize
  else do
    let read ← file.open_
    let content := read skip length.toNat
    return content ++ List.replicate (length.toNat - content.length) 0

/-- `DirectAccessService.readFile(filename)` -/
def readAll : Except Throwable Bytes := fill file 0 (file.length.setWidth 32)

/-- **`DirectAccessService.readFile`** -/
def readFile (filename : String16) (offset length : JInt) (previousSize previousTime : JLong) :
    Except Throwable FileResult :=
  let size := file.length
  let time := file.lastModified
  if previousSize = size ∧ previousTime = time then .ok ⟨none, size, time⟩
  else if offset.toInt ≤ 0 ∧ length.toInt ≤ 0 then
    (readAll file).map fun content => ⟨some content, size, time⟩
  else match checkRange size offset length with
    | .badOffset => .error (.illegalArgument (text "Offset " ++ decimal offset.toInt ++
        text " is out of range for " ++ filename))
    | .badLength _ => .error (.illegalArgument (text "Length " ++ decimal length.toInt ++
        text " is out of range for " ++ filename))
    | .range offset length =>
      (fill file offset.toNat length).map fun content => ⟨some content, size, time⟩

end Direct

/-! ## ZygoteService -/

/-- What the helper of Zygote answers. -/
structure Helper where
  statFile : String16 → Except Errno Stat
  readFile : String16 → Except Errno Bytes
  strerror : JInt → String16

namespace Zygote

variable (H : Helper)

/-- What the natives throw. -/
def exception (filename : String16) (err : JInt) : Throwable :=
  if err = ENOENT then .fileNotFound (text "No such file or directory: " ++ filename)
  else .io (H.strerror err ++ text " while reading " ++ filename)

/-- `ZygoteService_statFile` -/
def statFile (filename : String16) : Except Throwable FileResult :=
  match H.statFile filename with
  | .ok st => .ok ⟨none, st.size, st.mtime⟩
  | .error err => .error (exception H filename err)

/-- `ZygoteService_readFile` -/
def readAll (filename : String16) : Except Throwable Bytes :=
  match H.readFile filename with
  | .ok content => .ok content
  | .error err => .error (exception H filename err)

/-- `Arrays.copyOfRange` -/
def copyOfRange (content : Bytes) (start end_ : JInt) : Except Throwable Bytes :=
  if end_.toInt < start.toInt then .error (.illegalArgument [])
  else if start.toInt < 0 ∨ (content.length : ℤ) < start.toInt then .error .indexOutOfBounds
  else
    let length := (end_.toInt - start.toInt).toNat
    let copied := (content.drop start.toNat).take length
    .ok (copied ++ List.replicate (length - copied.length) 0)

/-- **`ZygoteService.readFile`** -/
def readFile (filename : String16) (offset length : JInt) (previousSize previousTime : JLong) :
    Except Throwable FileResult := do
  let stat ← statFile H filename
  if previousSize = stat.size ∧ previousTime = stat.mtime then return stat
  if offset.toInt ≤ 0 ∧ length.toInt ≤ 0 then
    let content ← readAll H filename
    return ⟨some content, stat.size, stat.mtime⟩
  match checkRange stat.size offset length with
  | .badOffset =>
    throw (.illegalArgument (text "offset " ++ decimal offset.toInt ++ text " >= size " ++
      decimal stat.size.toInt ++ text " for " ++ filename))
  | .badLength offset =>
    throw (.illegalArgument (text "offset " ++ decimal offset.toInt ++ text " + length " ++
      decimal length.toInt ++ text " > size " ++ decimal stat.size.toInt ++ text " for " ++
      filename))
  | .range offset length =>
    let content ← readAll H filename
    let content ← copyOfRange content offset (offset + length)
    return ⟨some content, stat.size, stat.mtime⟩

end Zygote

/-! ## A file

The system while one file is there, or none: the calls of Java, of the service
and of the helper look at the same one, and each may read it. -/

/-- The bounds are those of an array in Java, and of `mtime` until 2106. -/
structure File where
  content : Bytes
  mtime : ℕ
  length_lt : content.length < 2 ^ 31 - 1
  mtime_lt : mtime < 2 ^ 32

def File.size (f : File) : JLong := BitVec.ofNat 64 f.content.length

theorem enoent_ne : ENOENT ≠ 0 := by decide

/-- `lastModified()` counts milliseconds. -/
def JavaFile.of : Option File → JavaFile
  | none => ⟨0, 0, .error (.fileNotFound [])⟩
  | some f =>
    ⟨f.size, BitVec.ofNat 64 (1000 * f.mtime),
      .ok fun skip length => (f.content.drop skip).take length⟩

def File.stat (f : File) : Stat := ⟨f.size, BitVec.ofNat 64 f.mtime, false⟩

def File.stream (f : File) : Stream where
  fseek _ := none
  fread offset length := ((f.content.drop offset.toNat).take length.toNat, 0)
  fread_length _ length := List.length_take_le length.toNat _

/-- The texts of `strerror`. -/
abbrev Texts := { strerror : JInt → String16 // ∀ err, (strerror err).length < 2 ^ 16 }

/-- The only file there may be is the one of that name. -/
def fileAt (filename : String16) (file : Option File) (path : String16) : Option File :=
  if path = filename then file else none

/-- There is memory for everything but a negative size. -/
def Kernel.of (texts : Texts) (freed : Use → String16 → String16) (filename : String16)
    (file : Option File) : Kernel where
  freed := freed
  access path _ := (fileAt filename file path).elim (some ⟨ENOENT, enoent_ne⟩) fun _ => none
  stat path := (fileAt filename file path).elim (.error ⟨ENOENT, enoent_ne⟩) fun f => .ok f.stat
  fopen path := (fileAt filename file path).elim (.error ⟨ENOENT, enoent_ne⟩) fun f => .ok f.stream
  malloc size := decide (0 ≤ size.toInt)
  strerror := texts.1
  strerror_length := texts.2

def Helper.of (texts : Texts) (file : Option File) : Helper where
  statFile _ := file.elim (.error ⟨ENOENT, enoent_ne⟩) fun f => .ok f.stat
  readFile _ := file.elim (.error ⟨ENOENT, enoent_ne⟩) fun f => .ok f.content
  strerror := texts.1

end Services

end Dynamicloader
