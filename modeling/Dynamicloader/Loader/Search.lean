import Dynamicloader.Loader.Run
import Dynamicloader.Loader.Maps
import Dynamicloader.Common.Decimal
import Mathlib.Data.List.TakeWhile
/-!
# Finding the process

`find_pid_of` reads one command line after the other into the same buffer. A
file that is empty stores nothing, and what is compared is then left over
from a process before it. That process did not have the name, or the search
would have ended there, so what is left over never has it either
(`run_searchProc`). Before the first line is read the buffer holds what
happens to be on the stack, and nothing keeps that from being the name.
-/

namespace Dynamicloader

namespace Loader

open Prog
open Xloaderd (ascii isspace)

/-! ## Entries of `/proc` -/

/-- A process is listed under its number; other names begin with no number,
or with 0. -/
inductive Entry where
  | process (pid : Int32) (hpos : 0 < pid)
  | other (name : List UInt8) (hname : atoi name = 0)

namespace Entry

def name : Entry → List UInt8
  | process pid _ => ascii (Decimal.decimal pid.toInt)
  | other name _ => name

/-- The process an entry stands for. -/
def pid? : Entry → Option Int32
  | process pid _ => some pid
  | other _ _ => none

end Entry

theorem isDigit_bounds {c : Char} (hc : c.isDigit) : 48 ≤ c.toNat ∧ c.toNat ≤ 57 := by
  rw [Char.isDigit, Bool.and_eq_true, decide_eq_true_eq, decide_eq_true_eq] at hc
  exact ⟨UInt32.le_iff_toNat_le.mp hc.1, UInt32.le_iff_toNat_le.mp hc.2⟩

theorem toNat_ascii_digit {c : Char} (hc : c.isDigit) : (UInt8.ofNat c.toNat).toNat = c.toNat := by
  have := isDigit_bounds hc
  rw [UInt8.toNat_ofNat']
  omega

/-- The digits of a number are read back. -/
theorem foldl_ascii_digits {cs : List Char} (hcs : ∀ c ∈ cs, c.isDigit) (n : ℕ) :
    (ascii cs).foldl (fun n b => 10 * n + (b.toNat - 48)) n = Nat.ofDigitChars 10 cs n := by
  induction cs generalizing n with
  | nil => rfl
  | cons c cs ih =>
    rw [List.forall_mem_cons] at hcs
    rw [Nat.ofDigitChars_cons, ← ih hcs.2]
    show (ascii cs).foldl _ (10 * n + ((UInt8.ofNat c.toNat).toNat - 48)) = _
    rw [toNat_ascii_digit hcs.1]
    rfl

theorem skipSign_of_digit {b : UInt8} (hb : 48 ≤ b) (bs : List UInt8) :
    skipSign (b :: bs) = b :: bs := by
  unfold skipSign
  split
  · rename_i heq
    cases heq
    exact absurd hb (by decide)
  · rename_i heq
    cases heq
    exact absurd hb (by decide)
  · rfl

theorem ascii_digit {c : Char} (hc : c.isDigit) :
    48 ≤ UInt8.ofNat c.toNat ∧ UInt8.ofNat c.toNat ≤ 57 := by
  have := isDigit_bounds hc
  rw [UInt8.le_iff_toNat_le, UInt8.le_iff_toNat_le, toNat_ascii_digit hc]
  exact this

/-- A text of digits is read as its number, up to the end of `long`. -/
theorem atoi_digits {cs : List Char} (hne : cs ≠ []) (hcs : ∀ c ∈ cs, c.isDigit) :
    atoi (ascii cs) = Int32.ofInt (min (Nat.ofDigitChars 10 cs 0 : ℤ) (2 ^ 31 - 1)) := by
  obtain ⟨c, cs, rfl⟩ := List.exists_cons_of_ne_nil hne
  obtain ⟨hlow, hhigh⟩ := ascii_digit (hcs c (by simp))
  have hspace : isspace (UInt8.ofNat c.toNat) = false := by grind [isspace]
  have hsign : UInt8.ofNat c.toNat ≠ 45 := by grind
  have hdigits : ∀ b ∈ ascii (c :: cs), (48 ≤ b && b ≤ 57) = true := by
    intro b hb
    obtain ⟨d, hd, rfl⟩ := List.mem_map.mp hb
    simpa using ascii_digit (hcs d hd)
  have hdrop : (ascii (c :: cs)).dropWhile isspace = ascii (c :: cs) :=
    List.dropWhile_cons_of_neg (by rw [hspace]; exact Bool.false_ne_true)
  have hskip : skipSign (ascii (c :: cs)) = ascii (c :: cs) := skipSign_of_digit hlow _
  have hnegative : ¬ (ascii (c :: cs)).head? = some 45 := by
    intro h
    exact hsign (Option.some.inj h)
  unfold atoi
  simp only [hdrop]
  rw [if_neg hnegative, hskip, List.takeWhile_eq_self_iff.mpr hdigits,
    foldl_ascii_digits hcs]

theorem atoi_name (e : Entry) : atoi e.name = e.pid?.getD 0 := by
  cases e with
  | other name hname => exact hname
  | process pid hpos =>
    have hnonneg : 0 < pid.toInt := Int32.lt_iff_toInt_lt.mp hpos
    have hlt := pid.toInt_lt
    have hname : Decimal.decimal pid.toInt = Nat.toDigits 10 pid.toInt.natAbs := by
      rw [Decimal.decimal, if_neg (by omega), List.nil_append]
    show atoi (ascii (Decimal.decimal pid.toInt)) = pid
    rw [hname, atoi_digits Nat.toDigits_ne_nil
      fun c hc => Nat.isDigit_of_mem_toDigits (by decide) (by decide) hc,
      Nat.ofDigitChars_ten_toDigits, Int.natAbs_of_nonneg (by omega), Int.min_eq_left (by omega),
      Int32.ofInt_toInt]

/-! ## The buffer -/

/-- A line read into the buffer, with its NUL. -/
def overlay (line : List UInt8) (cmdline : Stack) : Stack := fun i =>
  if i < line.length then line.getD i 0 else if i = line.length then 0 else cmdline i

theorem strcmp_iff_forall {name : List UInt8} {cmdline : Stack} :
    strcmp name cmdline ↔ ∀ i ≤ name.length, cmdline i = name.getD i 0 := by
  simp only [strcmp, List.all_eq_true, List.mem_range, beq_iff_eq, Nat.lt_succ_iff]

/-- **What was read is compared as the string it begins with**, whatever stood
in the buffer. -/
theorem strcmp_overlay {name : List UInt8} (h0 : 0 ∉ name) (line : List UInt8) (cmdline : Stack) :
    strcmp name (overlay line cmdline) ↔ cstring line = name := by
  rw [strcmp_iff_forall]
  induction name generalizing line cmdline with
  | nil =>
    cases line with
    | nil => simp [overlay, cstring]
    | cons c line => simp [overlay, cstring, List.takeWhile_cons]
  | cons b name ih =>
    rw [List.mem_cons, not_or] at h0
    cases line with
    | nil =>
      refine iff_of_false (fun h => h0.1 ?_) (by simp [cstring])
      simpa [overlay] using h 0 (Nat.zero_le _)
    | cons c line =>
      -- from the second byte on, the comparison is that of the shorter texts
      have hshift : ∀ i, overlay (c :: line) cmdline (i + 1) =
          overlay line (fun i => cmdline (i + 1)) i := by
        intro i
        simp [overlay]
      have htail := ih h0.2 line fun i => cmdline (i + 1)
      have hstring : cstring (c :: line) = b :: name ↔ c = b ∧ cstring line = name := by
        unfold cstring
        rw [List.takeWhile_cons]
        by_cases hc : c = 0
        · subst hc
          simp [h0.1]
        · simp [hc]
      rw [hstring, ← htail]
      constructor
      · intro h
        refine ⟨by simpa [overlay] using h 0 (Nat.zero_le _), fun i hi => ?_⟩
        have hi' := h (i + 1) (by simpa using hi)
        rwa [hshift, List.getD_cons_succ] at hi'
      · rintro ⟨rfl, h⟩ i hi
        cases i with
        | zero => simp [overlay]
        | succ i =>
          rw [hshift, List.getD_cons_succ]
          exact h i (by simpa using hi)

theorem fgetsLines_ne_nil (size : ℕ) (line : List UInt8) {text : List UInt8}
    (h : line ≠ [] ∨ text ≠ []) : fgetsLines size line text ≠ [] := by
  induction text generalizing line with
  | nil =>
    rw [fgetsLines, if_neg (h.resolve_right fun hne => hne rfl)]
    exact List.cons_ne_nil _ _
  | cons b text ih =>
    rw [fgetsLines]
    split
    · exact List.cons_ne_nil _ _
    · exact ih _ (.inl (by simp))

/-- **A command line, as read, begins with the name.** -/
def begins (name contents : List UInt8) : Bool :=
  (fgetsLines 256 [] contents).head?.any fun line => cstring line == name

/-- The line of a file that is not empty is what is compared. -/
theorem strcmp_fgets {name : List UInt8} (h0 : 0 ∉ name) {contents : List UInt8}
    (hne : contents ≠ []) (cmdline : Stack) :
    strcmp name (fgets contents cmdline) = begins name contents := by
  obtain ⟨line, lines, hlines⟩ :=
    List.exists_cons_of_ne_nil (fgetsLines_ne_nil 256 [] (.inr hne))
  have hbegins : begins name contents ↔ cstring line = name := by
    rw [begins, hlines, List.head?_cons, Option.any_some, beq_iff_eq]
  have hfgets : fgets contents cmdline = overlay line cmdline := by
    rw [fgets, hlines]
    rfl
  rw [Bool.eq_iff_iff, hfgets, strcmp_overlay h0, hbegins]

/-! ## The search -/

section

variable (listing : List Entry) (cmdline : Int32 → Option (List UInt8)) (name : List UInt8)

/-- The processes listed, in order. -/
def listed : List Int32 := listing.filterMap Entry.pid?

/-- **The first process listed whose own command line begins with the name**, or
-1. -/
def found : Int32 :=
  ((listed listing).find? fun pid => (cmdline pid).any (begins name)).getD (-1)

/-- What is left on the stack is the name, and the first command line that
can be opened is empty. -/
def LeftOver (buffer : Stack) : Prop :=
  strcmp name buffer ∧
    ((listed listing).find? fun pid => (cmdline pid).isSome).bind cmdline = some []

end

/-- `/proc` lists `listing`, and a command line reads as `cmdline`; `none` is a
process that has vanished. -/
structure Procfs {σ : Type} (kernel : Kernel σ) (listing : List Entry)
    (cmdline : Int32 → Option (List UInt8)) : Prop where
  proc : ∀ s, (kernel s .proc).1 = some (listing.map Entry.name)
  read : ∀ s pid, (kernel s (.cmdline pid)).1 = cmdline pid

variable {σ : Type} {kernel : Kernel σ} {cmdline : Int32 → Option (List UInt8)} {name : List UInt8}

theorem searchProc_cons {entry : List UInt8} {id : Int32} (hid : atoi entry = id)
    (entries : List (List UInt8)) (buffer : Stack) :
    searchProc name (entry :: entries) buffer =
      if id = 0 then searchProc name entries buffer
      else ask (.cmdline id) >>= fun
        | none => searchProc name entries buffer
        | some contents =>
          if strcmp name (fgets contents buffer) then pure id
          else searchProc name entries (fgets contents buffer) := by
  subst hid
  rfl

/-- **One entry**: it is skipped, or its command line is read into the buffer and
compared. -/
theorem run_searchProc_cons (name : List UInt8)
    (hread : ∀ s pid, (kernel s (.cmdline pid)).1 = cmdline pid) (e : Entry)
    (names : List (List UInt8)) (buffer : Stack) (s : σ) :
    ∃ s', ((searchProc name (e.name :: names) buffer).run kernel s).1 =
      match e.pid?.bind cmdline with
      | none => ((searchProc name names buffer).run kernel s').1
      | some contents =>
        if strcmp name (fgets contents buffer) then e.pid?.getD 0
        else ((searchProc name names (fgets contents buffer)).run kernel s').1 := by
  cases e with
  | other n hn =>
    refine ⟨s, ?_⟩
    have hid : atoi (Entry.other n hn).name = 0 := hn
    rw [searchProc_cons hid]
    rfl
  | process pid hpos =>
    have hid : atoi (Entry.process pid hpos).name = pid := atoi_name _
    have hne : pid ≠ 0 := by
      rintro rfl
      exact absurd hpos (by decide)
    have hask : ((ask (.cmdline pid)).run kernel s).1 = cmdline pid := hread s pid
    refine ⟨(kernel s (.cmdline pid)).2, ?_⟩
    rw [searchProc_cons hid, if_neg hne, run_bind, hask]
    simp only [Entry.pid?, Option.getD_some, Option.bind_some]
    cases cmdline pid with
    | none => rfl
    | some contents =>
      dsimp only
      split
      · rfl
      · rfl

/-- An entry with no command line to read is not found. -/
theorem found_cons_none {e : Entry} (h : e.pid?.bind cmdline = none) (listing : List Entry) :
    found (e :: listing) cmdline name = found listing cmdline name := by
  cases e with
  | other n hn => rfl
  | process pid hpos =>
    rw [Entry.pid?, Option.bind_some] at h
    simp [found, listed, Entry.pid?, h]

theorem found_cons_some {e : Entry} {contents : List UInt8}
    (h : e.pid?.bind cmdline = some contents) (listing : List Entry) :
    found (e :: listing) cmdline name =
      if begins name contents then e.pid?.getD 0 else found listing cmdline name := by
  cases e with
  | other n hn => cases h
  | process pid hpos =>
    rw [Entry.pid?, Option.bind_some] at h
    cases hb : begins name contents with
    | true => simp [found, listed, Entry.pid?, h, hb]
    | false => simp [found, listed, Entry.pid?, h, hb]

/-- **From a buffer without the name the search is exact**: a process that does
not end it leaves such a buffer behind. -/
theorem run_searchProc (h0 : 0 ∉ name)
    (hread : ∀ s pid, (kernel s (.cmdline pid)).1 = cmdline pid) (listing : List Entry)
    {buffer : Stack} (hbuffer : strcmp name buffer = false) (s : σ) :
    ((searchProc name (listing.map Entry.name) buffer).run kernel s).1 =
      found listing cmdline name := by
  induction listing generalizing buffer s with
  | nil => rfl
  | cons e listing ih =>
    obtain ⟨s', hstep⟩ :=
      run_searchProc_cons name hread e (listing.map Entry.name) buffer s
    rw [List.map_cons, hstep]
    cases he : e.pid?.bind cmdline with
    | none =>
      rw [found_cons_none he]
      exact ih hbuffer s'
    | some contents =>
      rw [found_cons_some he]
      by_cases hempty : contents = []
      · subst hempty
        have hsame : fgets [] buffer = buffer := rfl
        have hbegins : begins name [] = false := rfl
        simp only [hsame, hbuffer, hbegins, Bool.false_eq_true, if_false]
        exact ih hbuffer s'
      · rw [← strcmp_fgets h0 hempty buffer]
        cases hcmp : strcmp name (fgets contents buffer) with
        | true => simp only [hcmp, if_true]
        | false =>
          simp only [hcmp, Bool.false_eq_true, if_false]
          exact ih hcmp s'

/-- What is found is not a process without a command line. -/
theorem found_ne {pid : Int32} (hpos : 0 < pid) (hempty : cmdline pid = some [])
    (listing : List Entry) : found listing cmdline name ≠ pid := by
  intro heq
  unfold found at heq
  cases hfind : (listed listing).find? fun pid => (cmdline pid).any (begins name) with
  | none =>
    rw [hfind] at heq
    rw [← heq] at hpos
    exact absurd hpos (by decide)
  | some p =>
    rw [hfind, Option.getD_some] at heq
    have hany := List.find?_some hfind
    rw [heq, hempty] at hany
    exact absurd hany (by simp [begins, fgetsLines])

/-- From a buffer with the name the search ends at an empty command line, unless
it has read another one before. -/
theorem run_searchProc_name (h0 : 0 ∉ name)
    (hread : ∀ s pid, (kernel s (.cmdline pid)).1 = cmdline pid) (listing : List Entry)
    {buffer : Stack} (hbuffer : strcmp name buffer = true) (s : σ) :
    ((searchProc name (listing.map Entry.name) buffer).run kernel s).1 =
        found listing cmdline name ↔
      ((listed listing).find? fun pid => (cmdline pid).isSome).bind cmdline ≠ some [] := by
  induction listing generalizing s with
  | nil => exact iff_of_true rfl (by simp [listed])
  | cons e listing ih =>
    obtain ⟨s', hstep⟩ :=
      run_searchProc_cons name hread e (listing.map Entry.name) buffer s
    rw [List.map_cons, hstep]
    cases e with
    | other n hn => exact ih s'
    | process pid hpos =>
      have hlisted : listed (Entry.process pid hpos :: listing) = pid :: listed listing := rfl
      rw [hlisted, List.find?_cons]
      cases hpid : cmdline pid with
      | none =>
        have hbind : (Entry.process pid hpos).pid?.bind cmdline = none := hpid
        rw [found_cons_none hbind]
        simp only [Entry.pid?, Option.bind_some, hpid, Option.isSome_none]
        exact ih s'
      | some contents =>
        have hbind : (Entry.process pid hpos).pid?.bind cmdline = some contents := hpid
        rw [found_cons_some hbind]
        simp only [Entry.pid?, Option.bind_some, hpid, Option.isSome_some, Option.getD_some]
        by_cases hempty : contents = []
        · subst hempty
          have hsame : fgets [] buffer = buffer := rfl
          have hbegins : begins name [] = false := rfl
          simp only [hsame, hbuffer, hbegins, Bool.false_eq_true, if_true, if_false]
          exact iff_of_false (fun heq => found_ne hpos hpid listing heq.symm) (fun h => h rfl)
        · rw [← strcmp_fgets h0 hempty buffer]
          refine iff_of_true ?_ (fun h => hempty (Option.some.inj h))
          cases hcmp : strcmp name (fgets contents buffer) with
          | true => rfl
          | false => exact run_searchProc h0 hread listing hcmp s'

/-- **The search finds the process it should if and only if** the stack has not
been left with the name while the first command line that can be opened is
empty. -/
theorem findPidOf_found_iff {listing : List Entry} (h : Procfs kernel listing cmdline)
    (h0 : 0 ∉ name) (buffer : Stack) (s : σ) :
    ((findPidOf (some name) buffer).run kernel s).1 = found listing cmdline name ↔
      ¬ LeftOver listing cmdline name buffer := by
  have hproc : ((ask .proc).run kernel s).1 = some (listing.map Entry.name) := h.proc s
  have hfind : ((findPidOf (some name) buffer).run kernel s).1 =
      ((searchProc name (listing.map Entry.name) buffer).run kernel (kernel s .proc).2).1 := by
    show (run kernel (ask .proc >>= _) s).1 = _
    rw [run_bind, hproc]
    rfl
  rw [hfind, LeftOver]
  cases hbuffer : strcmp name buffer with
  | false => exact iff_of_true (run_searchProc h0 h.read listing hbuffer _) (by simp)
  | true =>
    rw [run_searchProc_name h0 h.read listing hbuffer]
    simp

/-- A kernel with this `/proc`. -/
def procKernel (listing : List Entry) (cmdline : Int32 → Option (List UInt8)) : Kernel Unit :=
  fun s op => (match op with
    | .proc => some (listing.map Entry.name)
    | .cmdline pid => cmdline pid
    | op => granting none none (Vector.replicate 18 0) op, s)

theorem procKernel_procfs (listing : List Entry) (cmdline : Int32 → Option (List UInt8)) :
    Procfs (procKernel listing cmdline) listing cmdline where
  proc _ := rfl
  read _ _ := rfl

/-- A kernel thread, listed before a process "a". -/
def threadFirst : List Entry := [.process 2 (by decide), .process 7 (by decide)]

def threadCmdline (pid : Int32) : Option (List UInt8) :=
  if pid = 2 then some [] else if pid = 7 then some [97] else none

/-- With "a" left on the stack the thread is taken for the process. -/
theorem stale_name_found :
    Procfs (procKernel threadFirst threadCmdline) threadFirst threadCmdline ∧
    found threadFirst threadCmdline [97] = 7 ∧
    ((findPidOf (some [97]) fun i => if i = 0 then 97 else 0).run
      (procKernel threadFirst threadCmdline) ()).1 = 2 := by
  refine ⟨procKernel_procfs _ _, by decide, by decide⟩

/-- With a cleared stack it is not. -/
theorem cleared_name_found :
    (0 : UInt8) ∉ [(97 : UInt8)] ∧
    ((findPidOf (some [97]) fun _ => 0).run (procKernel threadFirst threadCmdline) ()).1 =
      found threadFirst threadCmdline [97] :=
  ⟨by decide, (findPidOf_found_iff (procKernel_procfs _ _) (by decide) _ _).mpr
    fun h => absurd h.1 (by decide)⟩

end Loader

end Dynamicloader
