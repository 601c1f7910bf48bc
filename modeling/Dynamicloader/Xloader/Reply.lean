import Dynamicloader.Xloader.Model
/-!
# Xloader — commands out, replies in

The texts that cross the socket are ASCII, on which encoding and decoding
are inverse to each other. A client whose calls all succeed writes the
frame of its command and takes the reply from the stream, in whatever
pieces `read` delivers it (`execute_run`).
-/

namespace Dynamicloader

namespace Xloader

open Memory

/-! ## Encoding and decoding -/

theorem utf8EncodeChar_ascii {c : Char} (h : c.toNat < 128) :
    String.utf8EncodeChar c = [UInt8.ofNat c.toNat] := by
  have hle : c.val.toNat ≤ 127 := Nat.le_of_lt_succ h
  simp only [String.utf8EncodeChar, hle, ↓reduceIte]
  rfl

theorem toNat_ofNat_of_ascii {c : Char} (hc : c.toNat < 128) :
    (UInt8.ofNat c.toNat).toNat = c.toNat :=
  UInt8.toNat_ofNat_of_lt' (Nat.lt_trans hc (by decide))

/-- Only ASCII characters have bytes below 128. -/
theorem le_of_mem_utf8EncodeChar {c : Char} (hc : 128 ≤ c.toNat) {b : UInt8}
    (hb : b ∈ String.utf8EncodeChar c) : 128 ≤ b.toNat := by
  have hval : 128 ≤ c.val.toNat := hc
  have hbyte : ∀ n, 128 ≤ n → n < 256 → 128 ≤ (UInt8.ofNat n).toNat := by
    intro n hn hlt
    rw [UInt8.toNat_ofNat_of_lt' hlt]
    exact hn
  rw [String.utf8EncodeChar] at hb
  split at hb
  · omega
  · -- the lengths 2, 3 and 4: a lead byte from 192, 224 or 240 on, then bytes from 128 on
    split at hb
    · simp only [List.mem_cons, List.not_mem_nil, or_false] at hb
      rcases hb with rfl | rfl <;> exact hbyte _ (by omega) (by omega)
    · split at hb
      · simp only [List.mem_cons, List.not_mem_nil, or_false] at hb
        rcases hb with rfl | rfl | rfl <;> exact hbyte _ (by omega) (by omega)
      · simp only [List.mem_cons, List.not_mem_nil, or_false] at hb
        rcases hb with rfl | rfl | rfl | rfl <;> exact hbyte _ (by omega) (by omega)

/-- A byte below 128 is a character of its own. -/
theorem toNat_eq_of_mem_utf8EncodeChar {c : Char} {b : UInt8} (hb : b ∈ String.utf8EncodeChar c)
    (hlt : b.toNat < 128) : c.toNat = b.toNat := by
  have hc : c.toNat < 128 := by
    by_contra hge
    have hle := le_of_mem_utf8EncodeChar (Nat.not_lt.mp hge) hb
    omega
  rw [utf8EncodeChar_ascii hc, List.mem_singleton] at hb
  rw [hb, toNat_ofNat_of_ascii hc]

theorem flatMap_utf8EncodeChar_ascii {cs : List Char} (h : ∀ c ∈ cs, c.toNat < 128) :
    cs.flatMap String.utf8EncodeChar = cs.map fun c => UInt8.ofNat c.toNat := by
  induction cs with
  | nil => rfl
  | cons c cs ih =>
    rw [List.flatMap_cons, utf8EncodeChar_ascii (h c (by simp)), ih fun b hb => h b (by simp [hb])]
    rfl

theorem getBytes_append (s t : String) : getBytes (s ++ t) = getBytes s ++ getBytes t := by
  simp [getBytes]

theorem utf8DecodeChar?_append_size (pre : List UInt8) (b : ByteArray) :
    (pre.toByteArray ++ b).utf8DecodeChar? pre.length = b.utf8DecodeChar? 0 := by
  rw [ByteArray.utf8DecodeChar?_eq_utf8DecodeChar?_extract, ByteArray.size_append,
    List.size_toByteArray]
  have := ByteArray.extract_append_size_add' (a := pre.toByteArray) (b := b) (i := 0)
    (j := b.size) (k := pre.length) List.size_toByteArray.symm
  rw [Nat.add_zero] at this
  rw [this, ByteArray.extract_zero_size]

/-- Decoding undoes encoding. -/
theorem decodeFrom_encode (cs : List Char) : ∀ pre : List UInt8,
    decodeFrom (pre ++ cs.flatMap String.utf8EncodeChar).toByteArray pre.length = cs := by
  induction cs with
  | nil =>
    intro pre
    rw [decodeFrom]
    simp
  | cons c cs ih =>
    intro pre
    have hbytes : (pre ++ (c :: cs).flatMap String.utf8EncodeChar).toByteArray =
        pre.toByteArray ++
          ((String.utf8EncodeChar c).toByteArray ++
            (cs.flatMap String.utf8EncodeChar).toByteArray) := by
      rw [List.flatMap_cons, List.toByteArray_append, List.toByteArray_append]
    have hdecode : (pre ++ (c :: cs).flatMap String.utf8EncodeChar).toByteArray.utf8DecodeChar?
        pre.length = some c := by
      rw [hbytes, utf8DecodeChar?_append_size, ByteArray.utf8DecodeChar?_utf8EncodeChar_append]
    have hsize : pre.length < (pre ++ (c :: cs).flatMap String.utf8EncodeChar).toByteArray.size := by
      rw [List.size_toByteArray, List.length_append, List.flatMap_cons, List.length_append,
        String.length_utf8EncodeChar]
      have := c.utf8Size_pos
      omega
    have hrest := ih (pre ++ String.utf8EncodeChar c)
    rw [List.length_append, String.length_utf8EncodeChar, List.append_assoc,
      ← List.flatMap_cons] at hrest
    rw [decodeFrom, if_pos hsize, hdecode]
    exact congrArg (c :: ·) hrest

theorem newString_encode (cs : List Char) :
    newString (cs.flatMap String.utf8EncodeChar) = String.ofList cs := by
  have := decodeFrom_encode cs []
  rw [List.nil_append, List.length_nil] at this
  rw [newString, this]

/-! ## Numbers -/

theorem knowsDigits_digit : Decimal.KnowsDigits digit := by
  intro c hc
  have hlo : 48 ≤ c.toNat := by
    simp only [Char.isDigit, Bool.and_eq_true, decide_eq_true_eq] at hc
    exact hc.1
  have hhi : c.toNat ≤ 57 := by
    simp only [Char.isDigit, Bool.and_eq_true, decide_eq_true_eq] at hc
    exact hc.2
  have hfind : digitZeros.find? (fun z => z ≤ c.toNat && c.toNat < z + 10) = some 0x30 := by
    have : (decide (48 ≤ c.toNat) && decide (c.toNat < 48 + 10)) = true := by
      simp only [Bool.and_eq_true, decide_eq_true_eq]
      omega
    rw [digitZeros, List.find?_cons]
    simp only [this]
  rw [digit, hfind]
  rfl

/-- A printed number is printable ASCII. -/
theorem toNat_lt_of_mem_decimal {i : ℤ} {c : Char} (h : c ∈ Decimal.decimal i) :
    c.toNat < 128 := by
  rcases Decimal.mem_decimal h with rfl | hd
  · decide
  · simp only [Char.isDigit, Bool.and_eq_true, decide_eq_true_eq] at hd
    have : c.toNat ≤ 57 := hd.2
    omega

/-- **`parseInt` reads back what `%d` prints.** -/
theorem parseInt_decimal (r : Int32) :
    parseInt (newString ((Decimal.decimal r.toInt).map fun c => UInt8.ofNat c.toNat)) = some r := by
  rw [← flatMap_utf8EncodeChar_ascii fun c hc => toNat_lt_of_mem_decimal hc, newString_encode,
    parseInt, String.toList_ofList, Decimal.readInt_decimal knowsDigits_digit, Option.bind_some,
    if_pos ⟨r.le_toInt, r.toInt_lt⟩, Int32.ofInt_toInt]

/-! ## A socket that works -/

/-- A socket whose calls succeed: the bytes that are still to be read, the
sizes of the pieces they come in, and the bytes written. Where `plan` ends
the bytes come one by one. -/
structure Wire where
  incoming : List UInt8
  plan : List ℕ := []
  sent : List UInt8 := []

namespace Wire

/-- How many bytes the next `read` of at most `len` delivers. -/
def piece (w : Wire) (len : ℕ) : ℕ := min len (min (w.plan.headD 0 + 1) w.incoming.length)

theorem piece_le (w : Wire) (len : ℕ) : w.piece len ≤ len := Nat.min_le_left _ _

theorem length_take_piece (w : Wire) (len : ℕ) :
    (w.incoming.take (w.piece len)).length = w.piece len := by
  rw [List.length_take, piece]
  omega

/-- The answers of the socket. -/
def peer (w : Wire) : (op : Op) → Ans op × Wire
  | .connect => (true, w)
  | .getStreams => (true, w)
  | .close => ((), w)
  | .read len =>
    if h : 0 < w.piece len then
      (some ⟨w.incoming.take (w.piece len), by rw [length_take_piece]; exact ⟨h, w.piece_le len⟩⟩,
        { w with incoming := w.incoming.drop (w.piece len), plan := w.plan.tail })
    else (none, w)
  | .write bytes => (true, { w with sent := w.sent ++ bytes })

end Wire

/-- **`readBytes` takes the next bytes, in whatever pieces they come.** -/
theorem readBytes_run {len : ℕ} (hlen : len ≤ bufSize) (x : State) (off : ℕ) {bs rest : List UInt8}
    {w : Wire} (hw : w.incoming = bs ++ rest) (hoff : off + bs.length = len) :
    ∃ buf plan, (readBytes x len off).run Wire.peer w =
        ((true, { x with buf := buf }), { w with incoming := rest, plan := plan }) ∧
      HoldsAt buf off bs ∧ ∀ j, j < off → buf[j]? = x.buf[j]? := by
  by_cases hlt : off < len
  · -- one piece, then the rest of the bytes
    have hpos : 0 < w.piece (len - off) := by
      simp only [Wire.piece, hw, List.length_append]
      omega
    have hpiece : w.piece (len - off) ≤ bs.length := by
      have := w.piece_le (len - off)
      omega
    generalize hk : w.piece (len - off) = k at hpos hpiece
    have htake : w.incoming.take k = bs.take k := by
      rw [hw, List.take_append_of_le_length hpiece]
    have hdrop : w.incoming.drop k = bs.drop k ++ rest := by
      rw [hw, List.drop_append_of_le_length hpiece]
    have hlen' : (bs.take k).length = k := by rw [List.length_take]; omega
    obtain ⟨buf, plan, hrun, hbuf, hbelow⟩ := readBytes_run hlen
      { x with buf := store x.buf off (bs.take k) } (off + k)
      (w := { w with incoming := bs.drop k ++ rest, plan := w.plan.tail }) rfl
      (by rw [List.length_drop]; omega)
    refine ⟨buf, plan, ?_, ?_, fun j hj => ?_⟩
    · rw [readBytes, if_pos hlt, Prog.run_call]
      simp only [Wire.peer, hk, hpos, ↓reduceDIte, htake, hdrop, hlen']
      exact hrun
    · rw [← List.take_append_drop k bs, holdsAt_append, hlen']
      refine ⟨fun j hj => ?_, hbuf⟩
      rw [hlen'] at hj
      rw [hbelow _ (by omega)]
      exact holdsAt_store x.buf off (bs.take k) (by omega) j (by omega)
    · rw [hbelow j (by omega)]
      simp only [getElem?_store]
      rw [if_neg (by omega)]
  · obtain rfl : bs = [] := List.length_eq_zero_iff.mp (by omega)
    refine ⟨x.buf, w.plan, ?_, holdsAt_nil _ _, fun _ _ => rfl⟩
    rw [readBytes, if_neg hlt, Prog.run_pure]
    rw [List.nil_append] at hw
    simp only [← hw]
  termination_by len - off

theorem readReply_run (x : State) {t rest : List UInt8} {w : Wire} (ht : 1 ≤ t.length)
    (ht' : t.length ≤ 1024) (hw : w.incoming = frame t ++ rest) :
    ∃ buf plan, (readReply x).run Wire.peer w =
        ((true, { x with buf := buf, buflen := t.length }),
          { w with incoming := rest, plan := plan }) ∧
      HoldsAt buf 0 t := by
  rw [frame, List.append_assoc] at hw
  obtain ⟨buf₁, plan₁, hrun₁, hbuf₁, -⟩ :=
    readBytes_run (by decide : 2 ≤ bufSize) { x with buflen := 0 } 0 hw rfl
  obtain ⟨buf₂, plan₂, hrun₂, hbuf₂, -⟩ :=
    readBytes_run ht' { x with buf := buf₁, buflen := 0 } 0
      (w := { w with incoming := t ++ rest, plan := plan₁ }) rfl (Nat.zero_add _)
  have hlen : ofLe16 buf₁[0] buf₁[1] = t.length := by
    rw [hbuf₁.ofLe16_eq (by decide), ofLe16_le16 (by omega)]
  have hok : ¬ (t.length < 1 ∨ t.length > 1024) := by omega
  refine ⟨buf₂, plan₂, ?_, hbuf₂⟩
  rw [readReply, Prog.run_bind, hrun₁]
  simp only [Bool.not_true, Bool.false_eq_true, ↓reduceIte, hlen, hok]
  rw [Prog.run_bind, hrun₂]
  rfl

theorem connect_run (x : State) (w : Wire) :
    (connect x).run Wire.peer w = ((true, { x with socket := true }), w) := by
  obtain ⟨buf, buflen, socket⟩ := x
  rcases socket with _ | _
  · simp only [connect, Bool.false_eq_true, ↓reduceIte]
    rfl
  · simp only [connect, ↓reduceIte, Prog.run_pure]

theorem writeCommand_run (x : State) {cmd : String} (w : Wire) (h : 1 ≤ (getBytes cmd).length)
    (h' : (getBytes cmd).length ≤ 1024) :
    (writeCommand x cmd).run Wire.peer w =
      ((true, { x with buf := store x.buf 0 (le16 (getBytes cmd).length) }),
        { w with sent := w.sent ++ frame (getBytes cmd) }) := by
  have hok : ¬ ((getBytes cmd).length < 1 ∨ (getBytes cmd).length > 1024) := by omega
  have hsize : 2 ≤ bufSize := by decide
  simp only [writeCommand, hok, ↓reduceIte, take_store_le16 _ _ hsize]
  rw [frame, ← List.append_assoc]
  rfl

/-- **A transaction over a socket that works** writes the frame of its
command and answers the text that comes framed. -/
theorem exchange_run (x : State) {cmd : String} {t rest : List UInt8} {w : Wire}
    (hc : 1 ≤ (getBytes cmd).length) (hc' : (getBytes cmd).length ≤ 1024) (ht : 1 ≤ t.length)
    (ht' : t.length ≤ 1024) (hw : w.incoming = frame t ++ rest) :
    ∃ x' plan, (exchange x cmd).run Wire.peer w =
      ((some t, x'),
        { w with incoming := rest, plan := plan, sent := w.sent ++ frame (getBytes cmd) }) := by
  obtain ⟨buf, plan, hreply, hbuf⟩ :=
    readReply_run { x with socket := true, buf := store x.buf 0 (le16 (getBytes cmd).length) }
      (w := { w with sent := w.sent ++ frame (getBytes cmd) }) ht ht' hw
  refine ⟨{ buf := buf, buflen := t.length, socket := true }, plan, ?_⟩
  rw [exchange, Prog.run_bind, connect_run]
  simp only [Bool.not_true, Bool.false_eq_true, ↓reduceIte]
  rw [Prog.run_bind, writeCommand_run _ _ hc hc']
  simp only [↓reduceIte]
  rw [exchange.receive, Prog.run_bind, hreply]
  simp only [↓reduceIte, Prog.run_pure, hbuf.take_eq]

/-- **`execute` over a socket that works** answers the number printed in the
reply. -/
theorem execute_run (x : State) {cmd : String} {r : Int32} {rest : List UInt8} {w : Wire}
    (hc : 1 ≤ (getBytes cmd).length) (hc' : (getBytes cmd).length ≤ 1024)
    (hw : w.incoming =
      frame ((Decimal.decimal r.toInt).map fun c => UInt8.ofNat c.toNat) ++ rest) :
    ∃ x' plan, (execute x cmd).run Wire.peer w =
      ((r, x'),
        { w with incoming := rest, plan := plan, sent := w.sent ++ frame (getBytes cmd) }) := by
  have hle : (Decimal.decimal r.toInt).length ≤ 11 :=
    Decimal.length_decimal_le r.le_toInt r.toInt_lt
  have hpos : 0 < (Decimal.decimal r.toInt).length :=
    List.length_pos_iff.mpr (Decimal.decimal_ne_nil _)
  obtain ⟨x', plan, hrun⟩ := exchange_run x hc hc' (by rw [List.length_map]; omega)
    (by rw [List.length_map]; omega) hw
  refine ⟨x', plan, ?_⟩
  rw [execute, Prog.run_bind, transaction, Prog.run_bind, hrun]
  simp only [Prog.run_pure, Option.map_some, Option.getD_some, parseInt_decimal]

end Xloader

end Dynamicloader
