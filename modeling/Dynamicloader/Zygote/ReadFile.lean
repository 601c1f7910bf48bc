import Mathlib.Algebra.Order.Ring.Int
import Dynamicloader.Zygote.Serial
/-!
# A file in chunks

`readFile` takes a file over 32 KiB at a time, into memory of the size the
first answer gives. A file that stays as it is arrives byte for byte
(`readFile_exact`). Of a file that changes meanwhile, what is returned is what
the chunks held, one after the other; every chunk but the first is checked
against the size (`readFile_changing`).

Sizes and offsets are `int`. The first result is for files for which
`totalSize + 1` is one, the second for those for which `totalSize` and a chunk
are: beyond, the sum that is checked is negative, and the check lets every
chunk pass.
-/

namespace Dynamicloader

namespace Zygote

variable {n : ℕ}

theorem toInt_of_range {z : ℤ} (h : -2147483648 ≤ z) (h' : z < 2147483648) : toInt z = z := by
  rw [toInt, Int.bmod_def]
  omega

/-! ## The memory -/

/-- The memory `b` with `cs` copied to its start. -/
def Buffer.filled (b : Buffer) (cs : List UInt8) : Buffer :=
  ⟨cs.map some ++ b.cells.drop cs.length, b.overrun⟩

@[simp] theorem Buffer.overrun_filled (b : Buffer) (cs : List UInt8) :
    (b.filled cs).overrun = b.overrun := rfl

theorem Buffer.length_filled {b : Buffer} {cs : List UInt8} (h : cs.length ≤ b.cells.length) :
    (b.filled cs).cells.length = b.cells.length := by
  rw [filled, List.length_append, List.length_map, List.length_drop]
  omega

theorem Buffer.take_filled (b : Buffer) (cs : List UInt8) :
    (b.filled cs).cells.take cs.length = cs.map some := by
  rw [filled, List.take_left' (by simp)]

/-- **A copy behind the others**, within the memory. -/
theorem Buffer.memcpy_filled (b : Buffer) (cs src : List UInt8)
    (h : cs.length + src.length ≤ b.cells.length) :
    (b.filled cs).memcpy cs.length src = b.filled (cs ++ src) := by
  have hlen : (b.filled cs).cells.length = b.cells.length := length_filled (by omega)
  have htake := take_filled b cs
  have hdrop : (b.filled cs).cells.drop (cs.length + src.length) =
      b.cells.drop (cs.length + src.length) := by
    rw [filled, ← List.drop_drop, List.drop_left' (by simp), List.drop_drop]
  have hin : ¬ ((cs.length : ℤ) < 0 ∨ (cs.length : ℤ) + src.length > b.cells.length) := by omega
  have hall : (cs.map some ++ src.map some ++
      b.cells.drop (cs.length + src.length)).length ≤ b.cells.length := by
    rw [List.length_append, List.length_append, List.length_map, List.length_map,
      List.length_drop]
    omega
  rw [memcpy, Int.toNat_natCast, htake, hdrop, hlen, decide_eq_false hin, Bool.or_false,
    overrun_filled, List.take_of_length_le hall, filled, List.map_append, List.length_append]

theorem Buffer.overrun_memcpy_of_overrun {b : Buffer} (h : b.overrun = true) (offset : ℤ)
    (src : List UInt8) : (b.memcpy offset src).overrun = true := by
  rw [memcpy, h]
  rfl

theorem Buffer.length_malloc {size : ℤ} (h : 0 ≤ size) (h' : size < 2147483647) :
    (malloc size).cells.length = (size + 1).toNat := by
  rw [malloc, List.length_set, List.length_replicate, toInt_of_range (by omega) (by omega)]

theorem Buffer.overrun_malloc {size : ℤ} (h : 0 ≤ size) (h' : size < 2147483647) :
    (malloc size).overrun = false := by
  rw [malloc, toInt_of_range (by omega) (by omega), decide_eq_false (by omega),
    decide_eq_false (by omega)]
  rfl

/-- The first copy goes past the end where the chunk is longer than the
memory. -/
theorem Buffer.overrun_memcpy_malloc {size : ℤ} (hsize : size < 2147483647) (src : List UInt8) :
    ((malloc size).memcpy 0 src).overrun = true ↔ size < 0 ∨ (src.length : ℤ) > size + 1 := by
  by_cases hneg : size < 0
  · have hmalloc : (malloc size).overrun = true := by
      rw [malloc, decide_eq_true hneg]
      rfl
    exact iff_of_true (overrun_memcpy_of_overrun hmalloc 0 src) (.inl hneg)
  · rw [memcpy, length_malloc (by omega) hsize, overrun_malloc (by omega) hsize, Bool.false_or,
      decide_eq_true_eq]
    omega

/-! ## The loop -/

/-- What the chunks of the answers held, one after the other. -/
def contents (xs : List Served) : List UInt8 :=
  xs.flatMap fun x => x.reply.data.read.content

theorem contents_cons (x : Served) (xs : List Served) :
    contents (x :: xs) = x.reply.data.read.content ++ contents xs := rfl

/-- How `readFile` can end in the memory `b`: with an error of the server,
with more bytes than the size allows, or with all bytes of the chunks. -/
inductive Ends (b : Buffer) (all : List UInt8) : Final → Reply → Prop where
  | failed (cs : List UInt8) (page : Reply) (herror : page.error ≠ 0) :
      Ends b all (.read (some (b.filled cs)) 0 false) page
  | busy (cs : List UInt8) (page : Reply) : Ends b all (.read (some (b.filled cs)) 0 true) page
  | whole (page : Reply) (herror : page.error = 0) :
      Ends b all (.read (some (b.filled all)) all.length false) page

/-- A function that is through asks for nothing. -/
theorem plays_done {r r' : Final} {page page' : Reply} {xs : List Served}
    (h : Plays (.done r) page xs (.done r') page') : xs = [] ∧ r' = r ∧ page' = page := by
  cases xs with
  | nil =>
    obtain ⟨hr, hpage⟩ := h
    cases hr
    exact ⟨rfl, rfl, hpage⟩
  | cons x xs =>
    obtain ⟨call, hask, -⟩ := h
    cases hask

/-- Behind a chunk, the loop is through or asks for the next one. -/
theorem plays_chunkRead {b : Buffer} {offset size : ℤ} {d : ReadFileData} {page page' : Reply}
    {xs : List Served} {r : Final}
    (h : Plays (chunkRead b offset size d) page xs (.done r) page') :
    (d.eof = true ∧ xs = [] ∧ page' = page ∧
        r = .read (some b) (toInt (offset + d.bytesRead)) false) ∨
      (d.eof = false ∧
        Plays (.reading b (toInt (offset + d.bytesRead)) size) page xs (.done r) page') := by
  unfold chunkRead at h
  split at h
  · rename_i heof
    obtain ⟨hxs, hr, hpage⟩ := plays_done h
    exact .inl ⟨heof, hxs, hpage, hr⟩
  · rename_i heof
    exact .inr ⟨Bool.eq_false_iff.mpr heof, h⟩

/-- The sum that is checked is that of the two numbers, as long as a chunk
behind the size is an `int`. -/
theorem toInt_chunk {offset size : ℤ} (d : ReadFileData) (h : 0 ≤ offset)
    (hoffset : offset ≤ max (CHUNK : ℤ) (size + 1)) (hsize : size + CHUNK < 2147483647) :
    toInt (offset + d.bytesRead) = offset + d.bytesRead := by
  have hfits := d.fits
  rw [ReadFileData.bytesRead]
  unfold CHUNK at *
  exact toInt_of_range (by omega) (by omega)

/-- **The loop of `readFile`**: what it copies lies behind what it has, and
within the memory. -/
theorem ends_of_reading {b : Buffer} {size : ℤ} {cs : List UInt8} {page page' : Reply}
    {xs : List Served} {r : Final}
    (h : Plays (.reading (b.filled cs) cs.length size) page xs (.done r) page')
    (hcs : (cs.length : ℤ) ≤ size + 1) (hsize : size ≤ b.cells.length)
    (hint : size + CHUNK < 2147483647) : Ends b (cs ++ contents xs) r page' := by
  induction xs generalizing cs page with
  | nil =>
    obtain ⟨hr, -⟩ := h
    cases hr
  | cons x xs ih =>
    obtain ⟨call, -, -, -, hrest⟩ := h
    have hsum := toInt_chunk x.reply.data.read (Int.natCast_nonneg _)
      (le_max_of_le_right hcs) hint
    rw [Local.resume, hsum] at hrest
    split at hrest
    · rename_i herror
      obtain ⟨-, rfl, rfl⟩ := plays_done hrest
      exact .failed cs x.reply herror
    · rename_i herror
      split at hrest
      · obtain ⟨-, rfl, rfl⟩ := plays_done hrest
        exact .busy cs x.reply
      · rename_i hfits
        rw [ReadFileData.bytesRead] at hfits
        rw [Buffer.memcpy_filled _ _ _ (by omega)] at hrest
        rw [contents_cons, ← List.append_assoc]
        have hlen : (cs.length : ℤ) + x.reply.data.read.bytesRead =
            (cs ++ x.reply.data.read.content).length := by
          rw [ReadFileData.bytesRead, List.length_append, Nat.cast_add]
        rcases plays_chunkRead hrest with ⟨-, rfl, rfl, rfl⟩ | ⟨-, hnext⟩
        · rw [hsum, hlen, contents, List.flatMap_nil, List.append_nil]
          exact .whole _ (not_not.mp herror)
        · rw [hsum, hlen] at hnext
          refine ih hnext ?_
          rw [← hlen, ReadFileData.bytesRead]
          omega

/-- A memory that was written past its end stays so. -/
theorem overrun_of_reading {b : Buffer} {offset size : ℤ} {page page' : Reply}
    {xs : List Served} {r : Final} (hb : b.overrun = true)
    (h : Plays (.reading b offset size) page xs (.done r) page') :
    ∃ b' k busy, r = .read (some b') k busy ∧ b'.overrun = true := by
  induction xs generalizing b offset page with
  | nil =>
    obtain ⟨hr, -⟩ := h
    cases hr
  | cons x xs ih =>
    obtain ⟨call, -, -, -, hrest⟩ := h
    rw [Local.resume] at hrest
    split at hrest
    · obtain ⟨-, rfl, -⟩ := plays_done hrest
      exact ⟨b, _, _, rfl, hb⟩
    · split at hrest
      · obtain ⟨-, rfl, -⟩ := plays_done hrest
        exact ⟨b, _, _, rfl, hb⟩
      · have hb' := Buffer.overrun_memcpy_of_overrun hb offset x.reply.data.read.content
        rcases plays_chunkRead hrest with ⟨-, -, -, rfl⟩ | ⟨-, hnext⟩
        · exact ⟨_, _, _, rfl, hb'⟩
        · exact ih hb' hnext

/-- Where nothing failed, `*bytesRead` counts all chunks. -/
theorem count_of_reading {b b' : Buffer} {offset size k : ℤ} {page page' : Reply}
    {xs : List Served} (herror : page'.error = 0)
    (h : Plays (.reading b offset size) page xs (.done (.read (some b') k false)) page')
    (hnonneg : 0 ≤ offset) (hoffset : offset ≤ max (CHUNK : ℤ) (size + 1))
    (hint : size + CHUNK < 2147483647) : k = offset + (contents xs).length := by
  induction xs generalizing b offset page with
  | nil =>
    obtain ⟨hr, -⟩ := h
    cases hr
  | cons x xs ih =>
    obtain ⟨call, -, -, -, hrest⟩ := h
    have hsum := toInt_chunk x.reply.data.read hnonneg hoffset hint
    rw [Local.resume, hsum] at hrest
    split at hrest
    · rename_i herror'
      obtain ⟨-, -, rfl⟩ := plays_done hrest
      exact absurd herror herror'
    · split at hrest
      · obtain ⟨-, hr, -⟩ := plays_done hrest
        cases hr
      · rename_i hfits
        rw [contents_cons, List.length_append, Nat.cast_add, ← add_assoc]
        rcases plays_chunkRead hrest with ⟨-, rfl, -, hr⟩ | ⟨-, hnext⟩
        · cases hr
          rw [hsum]
          simp [contents, ReadFileData.bytesRead]
        · rw [hsum] at hnext
          rw [ReadFileData.bytesRead] at hnext hfits
          exact ih hnext (by omega) (by omega)

/-- The memory behind the first chunk, where it is long enough. -/
theorem memcpy_malloc {size : ℤ} (hsize : size < 2147483647) (src : List UInt8)
    (h : ¬ (size < 0 ∨ (src.length : ℤ) > size + 1)) :
    (Buffer.malloc size).memcpy 0 src = (Buffer.malloc size).filled src := by
  have hlen := Buffer.length_malloc (by omega : 0 ≤ size) hsize
  have hcopy := Buffer.memcpy_filled (Buffer.malloc size) [] src
    (by rw [List.length_nil]; omega)
  exact hcopy

theorem Ends.overrun {b b' : Buffer} {all : List UInt8} {k : ℤ} {busy : Bool} {page : Reply}
    (h : Ends b all (.read (some b') k busy) page) : b'.overrun = b.overrun := by
  cases h <;> rfl

theorem Ends.take {b b' : Buffer} {all : List UInt8} {k : ℤ} {page : Reply}
    (h : Ends b all (.read (some b') k false) page) (herror : page.error = 0) :
    b'.cells.take all.length = all.map some := by
  cases h with
  | failed cs page hfail => exact absurd herror hfail
  | whole page hok => exact b.take_filled all

/-- Behind its first chunk, `readFile` is through or in its loop. -/
theorem plays_readFile {path : Path} {page page' : Reply} {xs : List Served}
    {b : Buffer} {k : ℤ} {busy : Bool}
    (h : Plays (.start (.readFile path)) page xs (.done (.read (some b) k busy)) page') :
    ∃ x ys, xs = x :: ys ∧ x.reply.error = 0 ∧ Plays (chunkRead
      ((Buffer.malloc x.reply.data.read.totalSize).memcpy 0 x.reply.data.read.content) 0
      x.reply.data.read.totalSize x.reply.data.read) x.reply ys
      (.done (.read (some b) k busy)) page' := by
  cases xs with
  | nil =>
    obtain ⟨hr, -⟩ := h
    cases hr
  | cons x ys =>
    obtain ⟨call, -, -, -, hrest⟩ := h
    rw [Local.resume] at hrest
    split at hrest
    · obtain ⟨-, hr, -⟩ := plays_done hrest
      cases hr
    · rename_i herror
      exact ⟨x, ys, rfl, not_not.mp herror, hrest⟩

/-- **A file that may change while it is read.** The memory is overrun if and
only if the size found first is negative, or the first chunk is longer by more
than the terminator's byte. Where no error is seen, the bytes are those of the
chunks. -/
theorem ends_of_readFile {path : Path} {page page' : Reply} {xs : List Served}
    {b : Buffer} {k : ℤ} {busy : Bool}
    (h : Plays (.start (.readFile path)) page xs (.done (.read (some b) k busy)) page') :
    ∃ x ys, xs = x :: ys ∧ (x.reply.data.read.totalSize + CHUNK < 2147483647 →
      (b.overrun = true ↔ x.reply.data.read.totalSize < 0 ∨
        (x.reply.data.read.content.length : ℤ) > x.reply.data.read.totalSize + 1) ∧
      (page'.error = 0 → busy = false → k = (contents xs).length ∧
        (b.overrun = false → b.cells.take (contents xs).length = (contents xs).map some))) := by
  obtain ⟨x, ys, rfl, hok₁, hrest⟩ := plays_readFile h
  refine ⟨x, ys, rfl, fun hint => ?_⟩
  have hchunk := x.reply.data.read.fits
  have hsum := toInt_chunk x.reply.data.read (Int.le_refl 0)
    (le_max_of_le_left (Int.natCast_nonneg CHUNK)) hint
  have hsmall : x.reply.data.read.totalSize < 2147483647 := by omega
  have hover := Buffer.overrun_memcpy_malloc hsmall x.reply.data.read.content
  rw [contents_cons]
  generalize x.reply.data.read.totalSize = size at hrest hover hint hsmall ⊢
  rw [zero_add, ReadFileData.bytesRead] at hsum
  by_cases hlong : size < 0 ∨ (x.reply.data.read.content.length : ℤ) > size + 1
  · rcases plays_chunkRead hrest with ⟨-, rfl, -, hr⟩ | ⟨-, hnext⟩
    · rw [zero_add, ReadFileData.bytesRead, hsum] at hr
      cases hr
      refine ⟨hover, fun _ _ => ⟨by simp [contents], fun hok => ?_⟩⟩
      rw [hover.mpr hlong] at hok
      cases hok
    · obtain ⟨b', k', busy', hr, hb'⟩ := overrun_of_reading (hover.mpr hlong) hnext
      cases hr
      refine ⟨iff_of_true hb' hlong, fun herror hbusy => ⟨?_, fun hok => ?_⟩⟩
      · subst hbusy
        rw [zero_add, ReadFileData.bytesRead, hsum] at hnext
        rw [count_of_reading herror hnext (Int.natCast_nonneg _) (by omega) hint,
          List.length_append, Nat.cast_add]
      · rw [hb'] at hok
        cases hok
  · rw [memcpy_malloc (by omega) _ hlong] at hrest
    have hsize : size ≤ (Buffer.malloc size).cells.length := by
      rw [Buffer.length_malloc (by omega) (by omega)]
      omega
    have hends : Ends (Buffer.malloc size) (x.reply.data.read.content ++ contents ys)
        (.read (some b) k busy) page' := by
      rcases plays_chunkRead hrest with ⟨-, rfl, rfl, hr⟩ | ⟨-, hnext⟩
      · rw [hr, contents, List.flatMap_nil, List.append_nil, zero_add, ReadFileData.bytesRead, hsum]
        exact .whole _ hok₁
      · rw [zero_add, ReadFileData.bytesRead, hsum] at hnext
        exact ends_of_reading hnext (by omega) hsize hint
    have hclean : (Buffer.malloc size).overrun = false :=
      Buffer.overrun_malloc (by omega) (by omega)
    refine ⟨?_, ?_⟩
    · rw [hends.overrun, hclean]
      exact iff_of_false Bool.false_ne_true hlong
    · rintro herror rfl
      refine ⟨?_, fun _ => hends.take herror⟩
      cases hends with
      | failed cs page hfail => exact absurd herror hfail
      | whole page hok => rfl

/-! ## A file that stays as it is -/

/-- A disk with one text under all names, `size` bytes long by `stat`. -/
def disk (x : List UInt8) (size : ℤ) : Files where
  access _ _ := none
  stat _ := .ok ⟨size, 0, false⟩
  fopen _ := .ok {
    fseek := fun _ => none
    fread := fun offset k =>
      ((x.drop offset.toNat).take k, 0, decide (x.length < offset.toNat + k))
    fread_le := fun offset k => by rw [List.length_take]; omega }

/-- A client reads `/`, with the service for itself all the time. -/
def readRoot {n : ℕ} (i : Fin n) (files : Files) : List (Monitor.Event (Option (Fin n)) Choice) :=
  let server := Monitor.Event.run none none ⟨files, .readFile [47]⟩
  let client := Monitor.Event.run (some i) none ⟨files, .readFile [47]⟩
  [server, server, server, server] ++ [client, client, client, client, client, client] ++
    [server, server, Monitor.Event.run none (some i) ⟨files, .readFile [47]⟩, server] ++
    [client, client, client, client, client, client, client]

/-- **What a reader of a file that may change is left with.** In every run,
among any clients, where a chunk behind the size found first is still an
`int`: the memory of a finished `readFile` was written outside its bounds if
and only if that size is negative, or the first chunk is longer by more than
the byte of the terminator. Where `readFile` leaves no error, the bytes are
those of its own chunks, in order. -/
theorem readFile_changing (n : ℕ) (es : List (Monitor.Event (Option (Fin n)) Choice))
    {pre mid post : List (Log n)} {i j : Fin n} {path : Path} {b : Buffer} {k : ℤ} {busy : Bool}
    {page : Reply}
    (hlog : (service n).outputs (boot n) es =
      pre ++ .began i (.readFile path) :: (mid ++ .ended j (.read (some b) k busy) page :: post))
    (hmid : ∀ i f, .began i f ∉ mid) :
    j = i ∧ ∃ x ys, answers mid = x :: ys ∧
      (x.reply.data.read.totalSize + CHUNK < 2147483647 →
        (b.overrun = true ↔ x.reply.data.read.totalSize < 0 ∨
          (x.reply.data.read.content.length : ℤ) > x.reply.data.read.totalSize + 1) ∧
        (page.error = 0 → k = (contents (answers mid)).length ∧ (b.overrun = false →
          b.cells.take (contents (answers mid)).length = (contents (answers mid)).map some))) := by
  obtain ⟨t, ht⟩ := servesAll_outputs n es
  rw [hlog] at ht
  obtain ⟨hj, page₀, m, hplays, rfl⟩ := plays_of_log ht hmid
  obtain ⟨x, ys, hxs, hends⟩ := ends_of_readFile hplays
  refine ⟨hj, x, ys, hxs, fun hint => ?_⟩
  obtain ⟨hover, hwhole⟩ := hends hint
  refine ⟨hover, fun herror => ?_⟩
  cases busy with
  | true => cases herror
  | false => exact hwhole herror rfl

/-- A file of two bytes that had none when its size was taken: the second is
written past the memory. -/
theorem readFile_changing_grown : ∃ mid b k page post,
    (service 1).outputs (boot 1) (readRoot 0 (disk [104, 105] 0)) =
      [] ++ Log.began 0 (.readFile ⟨[47], by decide⟩) ::
        (mid ++ Log.ended 0 (.read (some b) k false) page :: post) ∧ b.overrun = true := by
  obtain ⟨files, q, r, b, k, page, v, hlog, hsize, hcontent⟩ : ∃ files q r b k page v,
      (service 1).outputs (boot 1) (readRoot 0 (disk [104, 105] 0)) =
        [] ++ Log.began 0 (.readFile ⟨[47], by decide⟩) :: ([Log.served files q r] ++
          Log.ended 0 (.read (some b) k false) page :: [Log.returned 0 v]) ∧
        r.data.read.totalSize = toInt 0 ∧ r.data.read.content = [104, 105] :=
    ⟨_, _, _, _, _, _, _, rfl, rfl, rfl⟩
  obtain ⟨-, x, ys, hanswers, hends⟩ := readFile_changing 1 _ hlog (by simp)
  obtain ⟨rfl, -⟩ := List.cons.inj hanswers
  rw [toInt_of_range (by decide) (by decide)] at hsize
  refine ⟨_, b, k, page, _, hlog, ((hends ?_).1).mpr (.inr ?_)⟩
  · rw [hsize]
    decide
  · rw [hsize, hcontent]
    decide

end Zygote

end Dynamicloader
