import Dynamicloader.Xloaderd.Execute
/-!
# xloaderd — commands made of words

A command whose words are not empty and hold neither blanks nor NULs, with
one blank between two of them, is tokenised into these words
(`tokenize_words`): the byte the scan skips behind each blank is then the
first letter of a word. `execute_xload` is the case the client sends.
-/

namespace Dynamicloader

namespace Xloaderd

open Memory

/-- A word: at least one byte, no blank and no NUL. -/
structure IsWord (w : List UInt8) : Prop where
  ne_nil : w ≠ []
  noBlank : ∀ b ∈ w, isspace b = false
  noNul : 0 ∉ w

/-- The words, each behind the separator `sep`. -/
def behind (sep : UInt8) (ws : List (List UInt8)) : List UInt8 := ws.flatMap (sep :: ·)

theorem behind_cons (sep : UInt8) (w : List UInt8) (ws : List (List UInt8)) :
    behind sep (w :: ws) = (sep :: w) ++ behind sep ws := rfl

/-! ## One step of the loop -/

theorem tokenize_nul {buf : Buffer} {cmd : ℕ} (h : buf[cmd]? = some 0) (arg examined : List ℕ) :
    tokenize buf cmd arg examined =
      { exit := .terminator, cmd := cmd, arg := arg, buf := buf
        examined := examined ++ [cmd] } := by
  obtain ⟨hlt, hb⟩ := Vector.getElem?_eq_some_iff.mp h
  rw [tokenize]
  simp [hlt, hb]

theorem tokenize_letter {buf : Buffer} {cmd : ℕ} {b : UInt8} (h : buf[cmd]? = some b)
    (h0 : b ≠ 0) (hb : isspace b = false) (arg examined : List ℕ) :
    tokenize buf cmd arg examined = tokenize buf (cmd + 1) arg (examined ++ [cmd]) := by
  obtain ⟨hlt, rfl⟩ := Vector.getElem?_eq_some_iff.mp h
  rw [tokenize]
  simp [hlt, h0, hb]

theorem tokenize_blank {buf : Buffer} {cmd : ℕ} (hlt : cmd < bufferMax) (h : buf[cmd]? = some 32)
    {arg : List ℕ} (harg : arg.length + 1 < tokenMax) (examined : List ℕ) :
    tokenize buf cmd arg examined =
      tokenize (buf.set cmd 0 hlt) (cmd + 2) (arg ++ [cmd + 1]) (examined ++ [cmd]) := by
  obtain ⟨_, hb⟩ := Vector.getElem?_eq_some_iff.mp h
  have hblank : isspace 32 = true := by decide
  rw [tokenize]
  simp [hlt, hb, hblank, Nat.ne_of_lt harg]

/-- The scan passes over letters. -/
theorem tokenize_letters {buf : Buffer} {w : List UInt8} (hb : ∀ b ∈ w, isspace b = false)
    (h0 : 0 ∉ w) (arg : List ℕ) :
    ∀ {cmd : ℕ}, HoldsAt buf cmd w → ∀ examined, ∃ examined',
      tokenize buf cmd arg examined = tokenize buf (cmd + w.length) arg examined' := by
  induction w with
  | nil => exact fun _ examined => ⟨examined, rfl⟩
  | cons b w ih =>
    intro cmd h examined
    obtain ⟨hbyte, hrest⟩ := holdsAt_cons.mp h
    have hne : b ≠ 0 := fun h => h0 (by simp [h])
    obtain ⟨ex, hex⟩ := ih (fun b hb' => hb b (by simp [hb'])) (fun h => h0 (by simp [h])) hrest
      (examined ++ [cmd])
    refine ⟨ex, ?_⟩
    rw [tokenize_letter hbyte hne (hb b (by simp)), hex]
    congr 1
    simp only [List.length_cons]
    omega

/-! ## All words -/

/-- What the scan has done when it ends at the terminator: `arg` names the
words `ws`, and below `start` the buffer `buf` is as it was. -/
structure Tokenized (buf : Buffer) (start : ℕ) (arg : List ℕ) (ws : List (List UInt8))
    (s : Scan) : Prop where
  exit : s.exit = .terminator
  cmd : s.cmd = start + (behind 32 ws).length
  arg : ∃ new, s.arg = arg ++ new ∧ new.map (cstr s.buf) = ws
  holds : HoldsAt s.buf start (behind 0 ws ++ [0])
  below : ∀ j, j < start → s.buf[j]? = buf[j]?

/-- A word before those that are tokenised; its blank is overwritten. -/
theorem Tokenized.cons {buf : Buffer} {cmd : ℕ} {arg : List ℕ} {b : UInt8} {w : List UInt8}
    {ws : List (List UInt8)} {s : Scan} (hw : IsWord (b :: w)) (hlt : cmd < bufferMax)
    (hword : HoldsAt buf (cmd + 1) (b :: w))
    (hs : Tokenized (buf.set cmd 0 hlt) (cmd + 2 + w.length) (arg ++ [cmd + 1]) ws s) :
    Tokenized buf cmd arg ((b :: w) :: ws) s := by
  have hnext : cmd + (w.length + 1 + 1) = cmd + 2 + w.length := by omega
  have hblank0 : s.buf[cmd]? = some 0 := by
    rw [hs.below cmd (by omega), Vector.getElem?_set_self hlt]
  have hword' : HoldsAt s.buf (cmd + 1) (b :: w) := by
    intro j hj
    simp only [List.length_cons] at hj
    have hne : cmd ≠ cmd + 1 + j := by omega
    rw [hs.below _ (by omega), Vector.getElem?_set_ne hlt hne, hword j hj]
  -- a NUL ends the word: the next separator, or the terminator
  have hend : HoldsAt s.buf (cmd + 1) ((b :: w) ++ [0]) := by
    rw [holdsAt_append]
    refine ⟨hword', holdsAt_singleton.mpr ?_⟩
    have hfirst : (behind 0 ws ++ [0])[0]? = some 0 := by cases ws <;> rfl
    have := hs.holds 0 (by simp)
    rw [hfirst] at this
    rw [← this]
    congr 1
    simp only [List.length_cons]
    omega
  refine ⟨hs.exit, ?_, ?_, ?_, fun j hj => ?_⟩
  · rw [hs.cmd, behind_cons]
    simp only [List.length_append, List.length_cons]
    omega
  · obtain ⟨new, hnew, hmap⟩ := hs.arg
    refine ⟨(cmd + 1) :: new, by rw [hnew, List.append_assoc, List.singleton_append], ?_⟩
    rw [List.map_cons, hmap, hend.cstr_eq hw.noNul]
  · rw [behind_cons, List.append_assoc, holdsAt_append, holdsAt_cons]
    refine ⟨⟨hblank0, hword'⟩, ?_⟩
    have := hs.holds
    rwa [← hnext] at this
  · have hne : cmd ≠ j := by omega
    rw [hs.below j (by omega), Vector.getElem?_set_ne hlt hne]

/-- **Words are tokenised into themselves.** The induction is on the words;
a step takes the blank, the first letter behind it and the rest of a word. -/
theorem tokenize_words {ws : List (List UInt8)} (hws : ∀ w ∈ ws, IsWord w) :
    ∀ {buf : Buffer} {cmd : ℕ} {arg : List ℕ}, HoldsAt buf cmd (behind 32 ws ++ [0]) →
      arg.length + ws.length < tokenMax → ∀ examined,
      Tokenized buf cmd arg ws (tokenize buf cmd arg examined) := by
  induction ws with
  | nil =>
    intro buf cmd arg h _ examined
    have hnul : buf[cmd]? = some 0 := holdsAt_singleton.mp h
    rw [tokenize_nul hnul]
    exact ⟨rfl, rfl, ⟨[], by simp, rfl⟩, h, fun _ _ => rfl⟩
  | cons w ws ih =>
    intro buf cmd arg h harg examined
    obtain ⟨hw, hrestws⟩ := List.forall_mem_cons.mp hws
    obtain ⟨b, w, rfl⟩ := List.exists_cons_of_ne_nil hw.ne_nil
    rw [behind_cons, List.append_assoc, holdsAt_append, holdsAt_cons] at h
    obtain ⟨⟨hblank, hword⟩, hrest⟩ := h
    obtain ⟨hlt, -⟩ := Vector.getElem?_eq_some_iff.mp hblank
    simp only [List.length_cons] at hrest harg
    have hnext : cmd + (w.length + 1 + 1) = cmd + 2 + w.length := by omega
    rw [hnext] at hrest
    -- the blank and the first letter, then the other letters
    rw [tokenize_blank hlt hblank (by omega)]
    obtain ⟨ex, hex⟩ := tokenize_letters (w := w) (fun b hb => hw.noBlank b (by simp [hb]))
      (fun h0 => hw.noNul (by simp [h0])) (arg ++ [cmd + 1])
      (((holdsAt_cons.mp hword).2).set hlt 0 (Or.inl (by omega))) (examined ++ [cmd])
    rw [hex]
    have harg' : (arg ++ [cmd + 1]).length + ws.length < tokenMax := by
      simp only [List.length_append, List.length_singleton]
      omega
    have hs := ih hrestws (hrest.set hlt 0 (Or.inl (by omega))) harg' ex
    exact hs.cons hw hlt hword

/-! ## The command the client sends -/

/-- The text of a load command. -/
def xloadText (p q m : List UInt8) : List UInt8 :=
  ascii "xload".toList ++ behind 32 [p, q, m]

/-- **`execute` on a load command** calls `xload` with the three words and
prints its result. The reply stands at the command's terminator. -/
theorem execute_xload {p q m : List UInt8} (hp : IsWord p) (hq : IsWord q) (hm : IsWord m)
    {v : Buffer} (hv : Loaded v (xloadText p q m))
    (xload : List UInt8 → List UInt8 → List UInt8 → Int32) :
    let x := execute (cmds xload) v
    x.call = some ⟨ascii "xload".toList, [p, q, m]⟩ ∧
      x.reply = ascii (Decimal.decimal (xload p q m).toInt) ∧
      x.scan.exit = .terminator ∧ x.scan.cmd = (xloadText p q m).length := by
  rw [Loaded, xloadText, List.append_assoc, holdsAt_append] at hv
  obtain ⟨hname, hargs⟩ := hv
  obtain ⟨ex, hex⟩ := tokenize_letters (w := ascii "xload".toList) (by simp [ascii, isspace])
    (by simp [ascii]) [] hname []
  have hs := tokenize_words (by simp [hp, hq, hm]) hargs (show [].length + 3 < tokenMax by decide) ex
  rw [← hex] at hs
  have hscan : (execute (cmds xload) v).scan = tokenize v 0 [] [] := rfl
  have hdisp : (execute (cmds xload) v).dispatched = dispatch (tokenize v 0 [] []) (cmds xload) := by
    have : (execute (cmds xload) v).dispatched = resolve (tokenize v 0 [] []) (cmds xload) := rfl
    rw [this, resolve, hs.exit]
  obtain ⟨new, hnew, hmap⟩ := hs.arg
  generalize tokenize v 0 [] [] = s at hs hscan hdisp hnew hmap
  have hsargs : s.args = [p, q, m] := by rw [Scan.args, hnew, List.nil_append, hmap]
  have hn : s.n = 3 := by rw [← s.length_args, hsargs]; rfl
  -- the letters are untouched, and the first separator ends them
  have hsname : HoldsAt s.buf 0 (ascii "xload".toList ++ [0]) := by
    rw [holdsAt_append]
    refine ⟨fun j hj => ?_, ?_⟩
    · rw [hs.below _ (by omega), hname j hj]
    · have := hs.holds
      rw [behind_cons, List.append_assoc, List.cons_append, holdsAt_cons] at this
      exact holdsAt_singleton.mpr this.1
  have hxload : (strcmp (ascii "xload".toList) s.buf 0).1 = true := strcmp_iff.mpr hsname
  have hping : (strcmp (ascii "ping".toList) s.buf 0).1 = false := by
    by_contra hp
    have hp := strcmp_iff.mp (Bool.not_eq_false _ ▸ hp) 0 (by decide)
    exact absurd ((hsname 0 (by decide)).symm.trans hp) (by decide)
  have hd : dispatch s (cmds xload) =
      { call := some ⟨ascii "xload".toList, s.args⟩
        answer := doXload xload ⟨s.args.toArray, s.length_args.trans hn⟩
        examined := (strcmp (ascii "ping".toList) s.buf 0).2 ++
          ((strcmp (ascii "xload".toList) s.buf 0).2 ++
            s.arg.flatMap (stringAddresses s.buf)) } := by
    simp only [cmds, table, dispatch, hping, hxload, hn, Bool.false_eq_true, ↓reduceIte, ↓reduceDIte]
  refine ⟨?_, ?_, by rw [hscan, hs.exit], ?_⟩
  · simp only [Executed.call, hdisp, hd, hsargs]
  · simp only [Executed.reply, hdisp, hd, format, doXload, hsargs, ↓reduceIte, List.append_nil]
    rfl
  · rw [hscan, hs.cmd, xloadText, List.length_append]
    omega

end Xloaderd

end Dynamicloader
