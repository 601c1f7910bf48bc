import Dynamicloader.Services.Model
import Mathlib.Algebra.Ring.Int.Defs
import Mathlib.Data.Nat.Digits.Defs
/-!
# The file services — through the binder

A call of `BinderService` puts its arguments into a parcel and takes the
result out of another one; `onTransact` does the converse in the other
process. That the order and the kinds of the items are the same on both
sides, and that a buffer is `null`, empty or complete there as here, is
`binder_transparent`: where the transaction goes through, a call gives what the
method of `XposedService` gives, with the error turned into an exception. It need
not go through: the process may be gone, or the reply too large for the binder.
-/

namespace Dynamicloader

namespace Services

open Parcel

/-! ## What a read leaves behind -/

/-- Nothing has been read, or the number of bytes in the buffer is given. -/
def Read.Counted (r : Read) : Prop :=
  (r.bytesRead = -1 ∧ r.buffer = []) ∨
    (r.bytesRead = BitVec.ofNat 32 r.buffer.length ∧ r.buffer.length < 2 ^ 32)

/-- The array that a caller gets: `null` where the number is negative. -/
def Read.content (r : Read) : Option Bytes :=
  if 0 ≤ r.bytesRead.toInt then some r.buffer else none

theorem Read.counted_left (err : JInt) (size mtime : JLong) (errormsg : String16) :
    (Read.left err size mtime errormsg).Counted := Or.inl ⟨rfl, rfl⟩

section

variable (K : Kernel) (caller : ℕ) (filename : String16) (offset length : JInt)
  (size mtime : JLong)

theorem readRange_counted : (readRange K filename offset length size mtime).Counted := by
  unfold readRange
  split
  · exact Read.counted_left ..
  split
  · exact Read.counted_left ..
  rename_i f _
  split
  · exact Read.counted_left ..
  dsimp only
  split
  · exact Read.counted_left ..
  · have hle : (f.fread offset length).1.length ≤ length.toNat := f.fread_length offset length
    exact Or.inr ⟨rfl, Nat.lt_of_le_of_lt hle length.isLt⟩

theorem readChanged_counted : (readChanged K filename offset length size mtime).Counted := by
  unfold readChanged
  split
  · exact Read.counted_left ..
  · exact Read.counted_left ..
  split
  · exact Or.inr ⟨rfl, Nat.two_pow_pos 32⟩
  · exact readRange_counted ..

theorem readFile_counted : (readFile K caller filename offset length size mtime).Counted := by
  unfold readFile
  split
  · exact Read.counted_left ..
  split
  · exact Read.counted_left ..
  split
  · exact Read.counted_left ..
  split
  · exact Read.counted_left ..
  · exact readChanged_counted ..

end

/-! ## The messages are short enough to be written -/

/-- A `long` has at most 20 digits. -/
theorem length_decimal {i : ℤ} (h : i.natAbs < 10 ^ 20) : (decimal i).length ≤ 21 := by
  have hdigits := Nat.toDigits_length 10 i.natAbs 20 (by decide) h
  rw [decimal, List.length_map, Decimal.decimal, List.length_append]
  split
  · simp only [List.length_cons, List.length_nil]
    omega
  · simp only [List.length_nil]
    omega

theorem length_decimal_int (x : JInt) : (decimal x.toInt).length ≤ 21 := by
  have h1 : x.toInt < 2 ^ 31 := BitVec.toInt_lt
  have h2 : -2 ^ 31 ≤ x.toInt := BitVec.le_toInt x
  exact length_decimal (by omega)

theorem length_decimal_long (x : JLong) : (decimal x.toInt).length ≤ 21 := by
  have h1 : x.toInt < 2 ^ 63 := BitVec.toInt_lt
  have h2 : -2 ^ 63 ≤ x.toInt := BitVec.le_toInt x
  exact length_decimal (by omega)

section

variable (K : Kernel) (caller : ℕ) {filename : String16} (offset length : JInt)
  (size mtime : JLong)

theorem readRange_errormsg (h : ∀ use, (K.freed use filename).length < 2 ^ 30) :
    (readRange K filename offset length size mtime).errormsg.length < 2 ^ 31 - 1 := by
  have hoffset := length_decimal_int offset
  have hsum := length_decimal_int (length + 1)
  have hread := length_decimal (i := -1) (by decide)
  have hopening := h .opening
  have hseeking := h .seeking
  have hreading := h .reading
  unfold readRange
  split
  · simp only [Read.left, text, List.length_append, List.length_map, String.reduceToList,
      List.length_cons, List.length_nil]
    omega
  split
  · rename_i err _
    have hstrerror := K.strerror_length err
    simp only [Read.left, text, List.length_append, List.length_map, String.reduceToList,
      List.length_cons, List.length_nil]
    omega
  rename_i f _
  split
  · rename_i err _
    have hstrerror := K.strerror_length err
    simp only [Read.left, text, List.length_append, List.length_map, String.reduceToList,
      List.length_cons, List.length_nil]
    omega
  dsimp only
  split
  · have hstrerror := K.strerror_length (f.fread offset length).2
    simp only [Read.left, text, List.length_append, List.length_map, String.reduceToList,
      List.length_cons, List.length_nil]
    omega
  · exact Nat.lt_of_lt_of_eq (by decide : 0 < 2 ^ 31 - 1) rfl

theorem readChanged_errormsg (h : ∀ use, (K.freed use filename).length < 2 ^ 30) :
    (readChanged K filename offset length size mtime).errormsg.length < 2 ^ 31 - 1 := by
  have hoffset := length_decimal_int offset
  have hlength := length_decimal_int length
  have hsize := length_decimal_long size
  have hbadOffset := h .offset
  have hbadLength := h .length
  unfold readChanged
  split
  · simp only [Read.left, text, List.length_append, List.length_map, String.reduceToList,
      List.length_cons, List.length_nil]
    omega
  · rename_i checked _
    have hchecked := length_decimal_int checked
    simp only [Read.left, text, List.length_append, List.length_map, String.reduceToList,
      List.length_cons, List.length_nil]
    omega
  split
  · exact Nat.lt_of_lt_of_eq (by decide : 0 < 2 ^ 31 - 1) rfl
  · exact readRange_errormsg K _ _ _ _ h

theorem readFile_errormsg (h : ∀ use, (K.freed use filename).length < 2 ^ 30) :
    (readFile K caller filename offset length size mtime).errormsg.length < 2 ^ 31 - 1 := by
  have hstating := h .stating
  have hdirectory := h .directory
  unfold readFile
  split
  · exact Nat.lt_of_lt_of_eq (by decide : 0 < 2 ^ 31 - 1) rfl
  split
  · rename_i err _
    have hstrerror := K.strerror_length err
    simp only [Read.left, text, List.length_append, List.length_map, String.reduceToList,
      List.length_cons, List.length_nil]
    omega
  split
  · simp only [Read.left, text, List.length_append, List.length_map, String.reduceToList,
      List.length_cons, List.length_nil]
    omega
  split
  · exact Nat.lt_of_lt_of_eq (by decide : 0 < 2 ^ 31 - 1) rfl
  · exact readChanged_errormsg K _ _ _ _ h

end

/-! ## A call through the binder -/

theorem toInt_ofNat_of_lt {n : ℕ} (h : n < 2 ^ 31) : (BitVec.ofNat 32 n).toInt = n := by
  rw [BitVec.toInt_eq_toNat_cond, BitVec.toNat_ofNat]
  omega

theorem toInt_ofNat_of_ge {n : ℕ} (hge : 2 ^ 31 ≤ n) (hlt : n < 2 ^ 32) :
    (BitVec.ofNat 32 n).toInt < 0 := by
  rw [BitVec.toInt_eq_toNat_cond, BitVec.toNat_ofNat]
  omega

section

variable {C : Type} (F : Format C Throwable)

/-- What `createByteArray` makes of the count and the buffer. -/
theorem createByteArray_read {r : Read} (h : r.Counted) :
    (F.createByteArray (F.writeInt32 r.bytesRead ++
      if 0 < r.bytesRead.toInt then F.write r.buffer else [])).1 = r.content := by
  rcases Int.lt_or_le r.bytesRead.toInt 0 with hneg | hnonneg
  · have hnull : ¬ 0 ≤ r.bytesRead.toInt := by omega
    rw [F.createByteArray_null _ _ hneg, Read.content, if_neg hnull]
  -- a count that is not negative is the length of the buffer, and fits
  rcases h with ⟨hcount, -⟩ | ⟨hcount, hlt⟩
  · exact absurd hnonneg (by rw [hcount]; decide)
  have hsmall : r.buffer.length < 2 ^ 31 := by
    refine Nat.lt_of_not_ge fun hbig => ?_
    have := toInt_ofNat_of_ge hbig hlt
    rw [hcount] at hnonneg
    omega
  have hint : r.bytesRead.toInt = r.buffer.length := by rw [hcount, toInt_ofNat_of_lt hsmall]
  rw [Read.content, if_pos hnonneg]
  by_cases hempty : r.buffer = []
  · -- an empty buffer is not written
    have hzero : r.bytesRead = 0 := by rw [hcount, hempty]; rfl
    rw [if_neg (by rw [hint, hempty]; decide), hzero, F.createByteArray_empty, hempty]
  · have hpos := List.length_pos_iff.mpr hempty
    rw [if_pos (by omega), hcount, ← List.append_nil (F.write r.buffer),
      F.createByteArray_write _ _ hempty hsmall]

end

/-- What a caller in the process of the service would get. -/
def Read.result (r : Read) (filename : String16) (offset length : JInt) :
    Except Throwable FileResult :=
  readFileResult filename offset length r.err (some r.errormsg) r.size r.mtime r.content

/-- The same for `statFile`. -/
def statResult (filename : String16) : Result (JLong × JLong) → Except Throwable FileResult
  | .ok (size, time) => .ok ⟨none, size, time⟩
  | .error err =>
    .error (commonIOException err none filename " while retrieving attributes for ")

/-- The transaction goes through: `onTransact` has written the reply. -/
def Delivers {C : Type} (K : Kernel) (caller : ℕ) (F : Format C Throwable) (remote : Remote C)
    (code : ℕ) (data : List C) : Prop :=
  ∃ reply, onTransact K caller F code data = some reply ∧ remote code data = .ok reply

/-- It fails. -/
def Fails {C : Type} (remote : Remote C) (code : ℕ) (data : List C) : Prop :=
  remote code data = .error .remote

/-- An `errno` that is returned is not 0. -/
theorem errno_accessFile (K : Kernel) (caller : ℕ) (filename : String16) (mode : JInt) :
    (Result.errno (accessFile K caller filename mode) == 0) =
      (accessFile K caller filename mode).isOk := by
  unfold accessFile
  split
  · rfl
  split
  · rfl
  · rename_i e _
    exact beq_eq_false_iff_ne.mpr e.2

theorem statFile_error_ne {K : Kernel} {caller : ℕ} {filename : String16} {err : JInt}
    (h : statFile K caller filename = .error err) : err ≠ 0 := by
  unfold statFile at h
  split at h
  · rw [← Except.error.inj h]
    decide
  split at h
  · exact nomatch h
  · rename_i e _
    rw [← Except.error.inj h]
    exact e.2

section

variable {C : Type} {K : Kernel} {caller : ℕ} {F : Format C Throwable} {remote : Remote C}
  {filename : String16}

/-- The name is read as it has been written. -/
theorem readFilename_write (h : filename.length < 2 ^ 30) (rest : List C) :
    readFilename F (F.writeString16 filename ++ rest) = (filename, rest) := by
  rw [readFilename, F.readString16_write _ _ (by omega)]
  rfl

/-- What is delivered is what the case of `onTransact` has written. -/
theorem Delivers.eq {code : ℕ} {rest : List C} {call : List C → List C}
    (h : Delivers K caller F remote code (F.writeInterfaceToken interfaceToken ++ rest))
    (hcode : ∀ data, onTransact K caller F code data =
      (F.enforceInterface interfaceToken data).map call) :
    remote code (F.writeInterfaceToken interfaceToken ++ rest) = .ok (call rest) := by
  obtain ⟨reply, hreply, hremote⟩ := h
  rw [hcode, F.enforceInterface_write] at hreply
  rw [hremote, ← Option.some.inj hreply]

theorem onTransact_accessFile (data : List C) :
    onTransact K caller F ACCESS_FILE_TRANSACTION data =
      (F.enforceInterface interfaceToken data).map (onAccessFile K caller F) := if_pos rfl

theorem onTransact_statFile (data : List C) :
    onTransact K caller F STAT_FILE_TRANSACTION data =
      (F.enforceInterface interfaceToken data).map (onStatFile K caller F) := by
  rw [onTransact, if_neg (by decide), if_pos rfl]

theorem onTransact_readFile (data : List C) :
    onTransact K caller F READ_FILE_TRANSACTION data =
      (F.enforceInterface interfaceToken data).map (onReadFile K caller F) := by
  rw [onTransact, if_neg (by decide), if_neg (by decide), if_pos rfl]

theorem remoteCheckFileAccess_eq (hname : filename.length < 2 ^ 30) {mode : JInt}
    (h : Delivers K caller F remote ACCESS_FILE_TRANSACTION (accessFileData F filename mode)) :
    Remote.checkFileAccess F remote filename mode =
      (do
        ensureAbsolutePath filename
        return (accessFile K caller filename mode).isOk) := by
  have hreply := h.eq onTransact_accessFile
  rw [Remote.checkFileAccess, accessFileData, hreply]
  simp only [onAccessFile, readFilename_write hname, F.readInt32_write_last,
    F.readException_write, Except.bind, bind, errno_accessFile]

theorem remoteStatFile_eq (hname : filename.length < 2 ^ 30)
    (h : Delivers K caller F remote STAT_FILE_TRANSACTION (statFileData F filename)) :
    Remote.statFile F remote filename =
      (do
        ensureAbsolutePath filename
        statResult filename (statFile K caller filename)) := by
  have hread : readFilename F (F.writeString16 filename) = (filename, []) := by
    rw [← List.append_nil (F.writeString16 filename), readFilename_write hname]
  have hreply := h.eq onTransact_statFile
  rw [Remote.statFile, statFileData, hreply]
  cases hstat : statFile K caller filename with
  | ok result =>
    simp only [onStatFile, hread, hstat, orIOException, Except.bind, bind, F.readException_write,
      F.readInt32_write, F.readInt64_write, F.readInt64_write_last, statResult]
    rfl
  | error err =>
    have hne := statFile_error_ne hstat
    simp only [onStatFile, hread, hstat, orIOException, Except.bind, bind, F.readException_write,
      F.readInt32_write_last, statResult, if_pos hne]
    rfl

theorem remoteReadFile_eq (hname : filename.length < 2 ^ 30)
    (hfreed : ∀ use, (K.freed use filename).length < 2 ^ 30) {offset length : JInt}
    {previousSize previousTime : JLong}
    (h : Delivers K caller F remote READ_FILE_TRANSACTION
      (readFileData F filename offset length previousSize previousTime)) :
    Remote.readFile F remote filename offset length previousSize previousTime =
      (do
        ensureAbsolutePath filename
        (readFile K caller filename offset length previousSize previousTime).result filename
          offset length) := by
  have hread := readFile_counted K caller filename offset length previousSize previousTime
  have hmsg := readFile_errormsg K caller offset length previousSize previousTime hfreed
  have hreply := h.eq onTransact_readFile
  rw [Remote.readFile, readFileData, hreply]
  simp only [onReadFile, readFilename_write hname, F.readInt32_write, F.readInt64_write,
    F.readInt64_write_last, orIOException, Read.write, Except.bind, bind, F.readException_write,
    F.readString16_write _ _ hmsg, createByteArray_read F hread, Read.result]

theorem remoteReadFile_of_fails {offset length : JInt} {previousSize previousTime : JLong}
    (h : Fails remote READ_FILE_TRANSACTION
      (readFileData F filename offset length previousSize previousTime)) :
    Remote.readFile F remote filename offset length previousSize previousTime =
      (do
        ensureAbsolutePath filename
        throw (.ioCause .remote)) := by
  rw [Remote.readFile, h]
  rfl

/-- **A call through the binder** gives what the method of the service gives, for
every layout of parcels, every system and every caller, if the transaction goes
through. If it fails, access is denied, and the other calls throw an
`IOException`. -/
theorem binder_transparent (K : Kernel) (caller : ℕ) (F : Format C Throwable) (remote : Remote C)
    {filename : String16} (hname : filename.length < 2 ^ 30)
    (hfreed : ∀ use, (K.freed use filename).length < 2 ^ 30) (mode offset length : JInt)
    (previousSize previousTime : JLong) :
    let accessData := accessFileData F filename mode
    let statData := statFileData F filename
    let readData := readFileData F filename offset length previousSize previousTime
    ((Delivers K caller F remote ACCESS_FILE_TRANSACTION accessData →
        Remote.checkFileAccess F remote filename mode =
          (do
            ensureAbsolutePath filename
            return (accessFile K caller filename mode).isOk)) ∧
      (Fails remote ACCESS_FILE_TRANSACTION accessData →
        Remote.checkFileAccess F remote filename mode =
          (do
            ensureAbsolutePath filename
            return false))) ∧
    ((Delivers K caller F remote STAT_FILE_TRANSACTION statData →
        Remote.statFile F remote filename =
          (do
            ensureAbsolutePath filename
            statResult filename (statFile K caller filename))) ∧
      (Fails remote STAT_FILE_TRANSACTION statData →
        Remote.statFile F remote filename =
          (do
            ensureAbsolutePath filename
            throw (.ioCause .remote)))) ∧
    ((Delivers K caller F remote READ_FILE_TRANSACTION readData →
        Remote.readFile F remote filename offset length previousSize previousTime =
          (do
            ensureAbsolutePath filename
            (readFile K caller filename offset length previousSize previousTime).result filename
              offset length)) ∧
      (Fails remote READ_FILE_TRANSACTION readData →
        Remote.readFile F remote filename offset length previousSize previousTime =
          (do
            ensureAbsolutePath filename
            throw (.ioCause .remote)))) := by
  intro accessData statData readData
  refine ⟨⟨remoteCheckFileAccess_eq hname, fun h => ?_⟩, ⟨remoteStatFile_eq hname, fun h => ?_⟩,
    remoteReadFile_eq hname hfreed, remoteReadFile_of_fails⟩
  · rw [Remote.checkFileAccess, h]
  · rw [Remote.statFile, h]
    rfl

end

def sample : File := ⟨[104, 111, 111, 107], 1420070400, by decide, by decide⟩

def silent : Texts := ⟨fun _ => [], fun _ => Nat.two_pow_pos 16⟩

/-- Nothing has been written over the name. -/
def intact (_ : Use) (filename : String16) : String16 := filename

/-- A remote that hands every transaction over. -/
def handOver (K : Kernel) (caller : ℕ) : Remote Cell := fun code data =>
  (onTransact K caller (Cell.format .other) code data).elim (.error .remote) .ok

/-- Two bytes of a file, from the second on; and none, where the remote is gone. -/
theorem binder_transparent_sample :
    let K := Kernel.of silent intact (text "/data/conf") sample
    (text "/data/conf").length < 2 ^ 30 ∧
      Remote.readFile (Cell.format .other) (handOver K UID_SYSTEM) (text "/data/conf") 1 2 0 0 =
        .ok ⟨some [111, 111], 4, 1420070400⟩ ∧
      Remote.readFile (Cell.format .other) (fun _ _ => .error .remote) (text "/data/conf")
        1 2 0 0 = .error (.ioCause .remote) := by
  intro K
  have hname : (text "/data/conf").length < 2 ^ 30 := by decide
  refine ⟨hname, ?_, ?_⟩
  · obtain ⟨-, -, hread, -⟩ := binder_transparent K UID_SYSTEM (Cell.format .other)
      (handOver K UID_SYSTEM) hname (fun _ => hname) 0 1 2 0 0
    exact (hread ⟨_, rfl, rfl⟩).trans rfl
  · obtain ⟨-, -, -, hfails⟩ := binder_transparent K UID_SYSTEM (Cell.format .other)
      (fun _ _ => .error .remote) hname (fun _ => hname) 0 1 2 0 0
    exact (hfails rfl).trans rfl

end Services

end Dynamicloader
