import Dynamicloader.Loader.Memory
import Dynamicloader.Xloaderd.Words
/-!
# The block the client reads

`xload` copies the package name, the bridge's path and the module's path
into three fields of 256 bytes, has the block written into the target and
calls the client's entry with its address. `entry_block`: whenever the entry
is called, the block stands where its parameter points.

The client reads the fields as C strings. A text of 256 bytes or more fills
its field without a NUL, and what the client reads runs on into the next
field. The daemon hands such texts on.
-/

namespace Dynamicloader

namespace Loader

open Prog

variable {σ : Type} {kernel : Kernel σ} {cfg : Config} {sym : Symbols} {fuel : ℕ} {pid : Int32}

/-! ## Where the entry is called -/

/-- Not a remote call of the client's entry. -/
def NotEntry (op : Op) : Prop := ∀ a params, op ≠ .calling .entry a params

theorem notEntry_of_working {op : Op} (h : op.Working pid) : NotEntry op := by
  rintro a params rfl
  obtain h | ⟨r, h, -⟩ := h
  · cases h
  · cases h

theorem spec_notEntry {op : Op} (hop : NotEntry op) :
    Spec (fun _ _ => True) NotEntry (fun _ => True) (ask op) :=
  spec_ask hop fun _ _ => trivial

/-- A remote call marks itself, in the state it is made in, and nothing else. -/
theorem callOr_reaches {error : Int32} {func : Func} {addr : Word} {params : List Word} {r : Regs}
    {s t : σ} {f : Func} {a : Word} {ps : List Word}
    (h : Reaches kernel (callOr pid error fuel func addr params r).run s (.calling f a ps) t) :
    f = func ∧ ps = params ∧ t = s := by
  have hno : ∀ {α : Type} {c : Io α} {R : α → Prop} {u : σ},
      Spec (fun _ _ => True) (Op.Working pid) R c → ¬ Reaches kernel c u (.calling f a ps) t := by
    intro α c R u hspec hr
    obtain h | ⟨q, h, -⟩ := hspec.reaches (fun _ _ => trivial) hr
    · cases h
    · cases h
  unfold callOr ptraceCall2 at h
  rw [reaches_bind_except] at h
  obtain h | ⟨regs, -, h⟩ := h
  · rw [reaches_lift_bind] at h
    obtain (⟨heq, rfl⟩ | h) | h := h
    · cases heq
      exact ⟨rfl, rfl, rfl⟩
    · exact h.elim
    · exfalso
      refine hno (R := Outcome (fun _ => True) fun _ => True) ?_ h
      refine spec_bind_except (spec_ptraceCall (fun _ => id) trivial _ _ _) fun b _ => ?_
      split
      · exact spec_lift (spec_request (fun _ => id) .getregs (by simp))
      · exact spec_pure trivial
  · exfalso
    split at h
    · exact h
    · exact h

/-- What does not call the entry is passed over. -/
theorem reaches_past {α β : Type} {c : Act α} {f : α → Act β} {E : Exit → Prop} {s t : σ} {a : Word}
    {params : List Word} (hc : Spec (fun _ _ => True) NotEntry (Outcome E fun _ => True) c.run)
    (h : Reaches kernel (c >>= f).run s (.calling .entry a params) t) :
    ∃ r u, Reaches kernel (f r).run u (.calling .entry a params) t := by
  obtain h | ⟨r, -, h⟩ := reaches_bind_except.mp h
  · exact absurd rfl (hc.reaches (fun _ _ => trivial) h a params)
  · exact ⟨r, _, h⟩

/-- **Where the entry is called, the parameter block has been written.** -/
theorem inject_entry (T : Target σ) {library function param : List UInt8}
    (hparam : param.length ≤ 2 ^ 32) {regs : Regs} {s t : σ} {a : Word} {params : List Word}
    (h : Reaches T.kernel (inject cfg sym fuel pid library function param regs).run s
      (.calling .entry a params) t) :
    ∃ base, params = [base] ∧ (T.mem t).Holds base param := by
  have hP : ∀ op : Op, op.Working pid → NotEntry op := fun op => notEntry_of_working
  have haddr : ∀ (name : List UInt8) (a : Word), Spec (fun _ _ => True) NotEntry
      (Outcome (fun _ : Exit => True) fun _ => True)
      (liftM (getRemoteAddr .arm pid name a) : Act Word).run := fun name a =>
    spec_lift (spec_getRemoteAddr fun _ _ _ => by simp)
  have hcall : ∀ (error : Int32) (func : Func) (addr : Word) (params : List Word) (r : Regs),
      func ≠ .entry → Spec (fun _ _ => True) NotEntry (Outcome (fun _ => True) fun _ => True)
        (callOr pid error fuel func addr params r).run := by
    intro error func addr params r hne
    refine spec_callOr hP trivial trivial (fun a params h => hne ?_) r
    cases h
    rfl
  have hwrite : ∀ (dest : Word) (data : List UInt8), Spec (fun _ _ => True) NotEntry
      (Outcome (fun _ : Exit => True) fun _ => True)
      (liftM (ptraceWritedata pid dest data) : Act Unit).run := fun dest data =>
    spec_lift (spec_writedata hP data dest)
  have hreport : ∀ (addr : Word) (r : Regs) (error : Int32) (s : σ),
      ¬ Reaches T.kernel (reportDlerror fuel pid addr r error).run s (.calling .entry a params) t := by
    intro addr r error s hr
    have hspec : Spec (fun _ _ => True) NotEntry (Outcome (fun _ => True) fun _ => True)
        (reportDlerror fuel pid addr r error).run :=
      spec_reportDlerror hP (fun _ => trivial) (fun _ _ => by simp) r error
    exact absurd rfl (hspec.reaches (fun _ _ => trivial) hr a params)
  unfold inject at h
  obtain ⟨_, _, h⟩ := reaches_past (haddr _ _) h
  obtain ⟨_, _, h⟩ := reaches_past (hcall _ _ _ _ _ (by simp)) h
  obtain ⟨_, _, h⟩ := reaches_past (haddr _ _) h
  obtain ⟨_, _, h⟩ := reaches_past (haddr _ _) h
  obtain ⟨_, _, h⟩ := reaches_past (haddr _ _) h
  obtain ⟨_, _, h⟩ := reaches_past (haddr _ _) h
  split at h
  · exact h.elim
  obtain ⟨_, _, h⟩ := reaches_past (hwrite _ _) h
  obtain ⟨_, _, h⟩ := reaches_past (hcall _ _ _ _ _ (by simp)) h
  dsimp only at h
  split at h
  · exact absurd h (hreport _ _ _ _)
  obtain ⟨_, _, h⟩ := reaches_past (hwrite _ _) h
  obtain ⟨_, _, h⟩ := reaches_past (hcall _ _ _ _ _ (by simp)) h
  split at h
  · exact absurd h (hreport _ _ _ _)
  -- the block is written, and the entry is called in the state this leaves
  obtain hwritten | hcalled := reaches_lift_bind.mp h
  · exact absurd rfl ((spec_writedata (A := fun _ _ => True) hP _ _).reaches
      (fun _ _ => trivial) hwritten a params)
  obtain hentry | ⟨_, -, hclosed⟩ := reaches_bind_except.mp hcalled
  · obtain ⟨-, rfl, rfl⟩ := callOr_reaches hentry
    refine ⟨_, rfl, ?_⟩
    rw [T.mem_writedata pid param _ _ hparam]
    exact Mem.holds_store _ _ hparam
  · obtain ⟨_, _, hnone⟩ := reaches_past (hcall _ _ _ _ _ (by simp)) hclosed
    exact hnone.elim

theorem reaches_past_io {α β : Type} {c : Io α} {f : α → Io β} {R : α → Prop} {s t : σ} {a : Word}
    {params : List Word} (hc : Spec (fun _ _ => True) NotEntry R c)
    (h : Reaches kernel (c >>= f) s (.calling .entry a params) t) :
    ∃ r u, Reaches kernel (f r) u (.calling .entry a params) t := by
  obtain h | h := reaches_bind.mp h
  · exact absurd rfl (hc.reaches (fun _ _ => trivial) h a params)
  · exact ⟨_, _, h⟩

/-- The entry is called from within the injection only. -/
theorem trace_entry (T : Target σ) {library function param : List UInt8}
    (hparam : param.length ≤ 2 ^ 32) {s t : σ} {a : Word} {params : List Word}
    (h : Reaches T.kernel (traceRemoteProcess cfg sym fuel pid library function param) s
      (.calling .entry a params) t) :
    ∃ base, params = [base] ∧ (T.mem t).Holds base param := by
  have hrequest : ∀ r, Spec (fun _ _ => True) NotEntry (fun _ => True) (ask (.ptrace pid r)) :=
    fun r => spec_notEntry fun _ _ => by simp
  unfold traceRemoteProcess at h
  obtain ⟨_, _, h⟩ := reaches_past_io (spec_getModuleBase fun _ _ _ => by simp) h
  split at h
  · exact h.elim
  have hattach : Spec (fun _ _ => True) NotEntry (fun _ => True) (ptraceAttach pid) := by
    refine spec_bind (hrequest .attach) fun ok _ => ?_
    split
    · exact spec_bind (spec_notEntry fun _ _ => by simp) fun _ _ => spec_pure trivial
    · exact spec_pure trivial
  obtain ⟨ok, _, h⟩ := reaches_past_io hattach h
  split at h
  · obtain ⟨regs, _, h⟩ := reaches_past_io (hrequest .getregs) h
    cases regs with
    | none =>
      obtain ⟨_, _, h⟩ := reaches_past_io (hrequest .detach) h
      exact h.elim
    | some regs =>
      obtain hinject | hend := reaches_bind.mp h
      · exact inject_entry T hparam hinject
      · exfalso
        split at hend
        · exact hend
        · obtain ⟨_, _, hend⟩ := reaches_past_io (hrequest _) hend
          obtain ⟨_, _, hend⟩ := reaches_past_io (hrequest .detach) hend
          exact hend
        · obtain ⟨_, _, hend⟩ := reaches_past_io (hrequest _) hend
          obtain ⟨_, _, hend⟩ := reaches_past_io (hrequest .detach) hend
          exact hend
  · exact h.elim

theorem length_strncpy (text : List UInt8) : (strncpy text).length = strLenLimit := by
  simp [strncpy]

theorem length_xloaderInfo (cfg : Config) (p m : List UInt8) :
    (xloaderInfo cfg p m).length = 3 * strLenLimit := by
  simp only [xloaderInfo, List.length_append, length_strncpy]
  omega

theorem searchProc_notEntry (name : List UInt8) (entries : List (List UInt8)) :
    ∀ cmdline, Spec (fun _ _ => True) NotEntry (fun _ => True) (searchProc name entries cmdline) := by
  induction entries with
  | nil => intro cmdline; exact spec_pure trivial
  | cons entry entries ih =>
    intro cmdline
    unfold searchProc
    dsimp only
    split
    · exact ih cmdline
    · refine spec_bind (spec_notEntry fun _ _ => by simp) fun contents _ => ?_
      cases contents with
      | none => exact ih cmdline
      | some contents =>
        dsimp only
        split
        · exact spec_pure trivial
        · exact ih _

/-- **Whenever the client's entry is called, the block stands where its
parameter points.** -/
theorem entry_block (T : Target σ) {cmdline : Stack} {p m : List UInt8} {q : Option (List UInt8)}
    {s t : σ} {a : Word} {params : List Word}
    (h : Reaches T.kernel (xload cfg sym fuel cmdline p q m) s (.calling .entry a params) t) :
    ∃ base, params = [base] ∧ (T.mem t).Holds base (xloaderInfo cfg p m) := by
  have hfind : ∀ name, Spec (fun _ _ => True) NotEntry (fun _ => True) (findPidOf name cmdline) := by
    intro name
    unfold findPidOf
    cases name with
    | none => exact spec_pure trivial
    | some name =>
      refine spec_bind (spec_notEntry fun _ _ => by simp) fun entries _ => ?_
      cases entries with
      | none => exact spec_pure trivial
      | some entries => exact searchProc_notEntry name entries cmdline
  unfold xload at h
  obtain ⟨_, _, h⟩ := reaches_past_io (spec_notEntry fun _ _ => by simp) h
  split at h
  · exact h.elim
  obtain ⟨_, _, h⟩ := reaches_past_io (spec_notEntry fun _ _ => by simp) h
  split at h
  · exact h.elim
  obtain ⟨_, _, h⟩ := reaches_past_io (spec_notEntry fun _ _ => by simp) h
  split at h
  · exact h.elim
  obtain ⟨_, _, h⟩ := reaches_past_io (spec_notEntry fun _ _ => by simp) h
  split at h
  · exact h.elim
  obtain ⟨targetPid, _, h⟩ := reaches_past_io (hfind _) h
  split at h
  · exact h.elim
  exact trace_entry T (by rw [length_xloaderInfo]; decide) h

/-! ## What the client reads -/

/-- The C string at `a` is `text`. -/
def Mem.Reads (m : Mem) (a : Word) (text : List UInt8) : Prop := 0 ∉ text ∧ m.Holds a (text ++ [0])

/-- The three fields of the block at `a` read as they were filled, and each
of the strings ends inside its field. -/
structure ReadBack (cfg : Config) (p m : List UInt8) (mem : Mem) (a : Word) : Prop where
  packageName : mem.Reads a p
  bridgePath : mem.Reads (a + 256) cfg.bridgePathCurrent
  modulePath : mem.Reads (a + 512) m
  inside : ∀ text ∈ [p, cfg.bridgePathCurrent, m], text.length < strLenLimit

/-- The string at an address ends at its first NUL. -/
theorem Mem.Reads.length_le {mem : Mem} {a : Word} {u w : List UInt8} (hu : mem.Reads a u)
    (hw : mem.Reads a w) : w.length ≤ u.length := by
  by_contra hlt
  have hlt : u.length < w.length := by omega
  have hnul := hu.2 u.length (by simp)
  have hletter := hw.2 u.length (by rw [List.length_append]; omega)
  rw [List.getElem_append_right (by omega)] at hnul
  rw [List.getElem_append_left hlt] at hletter
  have h0 : w[u.length] = 0 := by
    rw [← hletter, hnul]
    simp
  exact hw.1 (h0 ▸ List.getElem_mem hlt)

/-- A text that leaves room for its NUL is padded. -/
theorem strncpy_of_lt {text : List UInt8} (hlen : text.length < strLenLimit) :
    strncpy text = (text ++ [0]) ++ List.replicate (strLenLimit - text.length - 1) 0 := by
  have hrep : List.replicate (strLenLimit - text.length) (0 : UInt8) =
      [0] ++ List.replicate (strLenLimit - text.length - 1) 0 := by
    rw [← List.replicate_one, List.replicate_append_replicate]
    congr 1
    omega
  rw [strncpy, List.take_append, List.take_of_length_le (by omega), List.take_replicate,
    Nat.min_eq_left (by omega), hrep, List.append_assoc]

theorem reads_strncpy {mem : Mem} {a : Word} {text : List UInt8} (h0 : 0 ∉ text)
    (hlen : text.length < strLenLimit) (h : mem.Holds a (strncpy text)) : mem.Reads a text := by
  rw [strncpy_of_lt hlen] at h
  exact ⟨h0, (Mem.holds_append h).1⟩

theorem bridgePath_fits (cfg : Config) :
    0 ∉ cfg.bridgePathCurrent ∧ cfg.bridgePathCurrent.length < strLenLimit := by
  unfold Config.bridgePathCurrent
  split <;> decide

theorem readBack_of_holds {p m : List UInt8} (hp : 0 ∉ p) (hm : 0 ∉ m)
    (hplen : p.length < strLenLimit) (hmlen : m.length < strLenLimit) {mem : Mem} {a : Word}
    (h : mem.Holds a (xloaderInfo cfg p m)) : ReadBack cfg p m mem a := by
  obtain ⟨h0, hlen⟩ := bridgePath_fits cfg
  obtain ⟨h₁₂, h₃⟩ := Mem.holds_append h
  obtain ⟨h₁, h₂⟩ := Mem.holds_append h₁₂
  rw [length_strncpy] at h₂
  rw [List.length_append, length_strncpy, length_strncpy] at h₃
  refine ⟨reads_strncpy hp hplen h₁, reads_strncpy h0 hlen h₂, reads_strncpy hm hmlen h₃, ?_⟩
  simp [hplen, hlen, hmlen]

/-! ## A run that gets to the entry -/

/-- A target that grants everything: one process "a", with libc and the
linker in it, and a memory. -/
def lenient : Kernel Mem := fun m op =>
  match op with
  | .stat _ => (true, m)
  | .proc => (some [[49]], m)
  | .cmdline _ => (some [97], m)
  | .maps _ => (some (mapsText 0x40000000 0xb0000000), m)
  | .ptrace _ .attach => (true, m)
  | .ptrace _ .getregs => (some (Vector.replicate 18 1), m)
  | .ptrace _ (.setregs _) => (true, m)
  | .ptrace _ .cont => (true, m)
  | .ptrace _ (.peektext a) => (m.peek a, m)
  | .ptrace _ (.poketext a w) => (true, m.poke a w)
  | .ptrace _ .detach => (true, m)
  | .waitpid _ => (some 0xb7f, m)
  | .calling .. => ((), m)

def lenientTarget : Target Mem where
  kernel := lenient
  mem m := m
  peek _ _ _ := ⟨rfl, rfl⟩
  poke _ _ _ _ := rfl

theorem lenient_obliges : Obliging lenient (some (mapsText 0x40000000 0xb0000000))
    (some (mapsText 0x40000000 0xb0000000)) (Vector.replicate 18 1) where
  mapsOwn _ := rfl
  mapsTarget _ _ := rfl
  attach _ _ := rfl
  setregs _ _ _ := rfl
  cont _ _ := rfl
  getregs _ _ := rfl
  waitpid _ _ := rfl

/-- The client is called, whatever the names are. -/
theorem lenient_asks_entry (cfg : Config) (p m : List UInt8) :
    Asks lenient (xload cfg ⟨1, 1, 1, 1, 1⟩ 0 (fun _ => 0) p (some [97]) m)
      (.calling .entry 1 [0x201]) := by
  have hfind : ∀ s, ((findPidOf (some [97]) fun _ => 0).run lenient s).1 = 1 := fun _ => rfl
  have hentry : Asks lenient (traceRemoteProcess cfg ⟨1, 1, 1, 1, 1⟩ 0 1 clientPathCurrent
      clientEntryFunc (xloaderInfo cfg p m)) (.calling .entry 1 [0x201]) := by
    refine lenient_obliges.trace_asks (by decide) (mapsText_shows _ _).2.2 ?_
    refine (lenient_obliges.asks_last (by decide) (by decide) ?_ _).1
    intro a ha
    rw [BitVec.add_sub_cancel]
    simp only [List.mem_cons, List.not_mem_nil, or_false, or_self] at ha
    rw [ha]
    decide
  unfold xload
  refine asks_bind (a := true) (fun _ => rfl) ?_
  refine asks_bind (a := true) (fun _ => rfl) ?_
  refine asks_bind (a := true) (fun _ => rfl) ?_
  refine asks_bind (a := true) (fun _ => rfl) ?_
  exact asks_bind hfind hentry

/-- **When the client reads what `xload` was given**: the package name and
the module's path leave room for a NUL in their fields. -/
theorem fields_read_back_iff (cfg : Config) {p m : List UInt8} (hp : 0 ∉ p) (hm : 0 ∉ m) :
    (∀ (σ : Type) (T : Target σ) (sym : Symbols) (fuel : ℕ) (cmdline : Stack)
        (q : Option (List UInt8)) (s t : σ) (a : Word) (params : List Word),
        Reaches T.kernel (xload cfg sym fuel cmdline p q m) s (.calling .entry a params) t →
          ∃ base, params = [base] ∧ ReadBack cfg p m (T.mem t) base) ↔
      p.length < strLenLimit ∧ m.length < strLenLimit := by
  constructor
  · intro h
    obtain ⟨t, ht⟩ := lenient_asks_entry cfg p m (fun _ => 0)
    obtain ⟨base, -, hread⟩ := h Mem lenientTarget _ _ _ _ _ _ _ _ ht
    exact ⟨hread.inside p (by simp), hread.inside m (by simp)⟩
  · rintro ⟨hplen, hmlen⟩ σ T sym fuel cmdline q s t a params h
    obtain ⟨base, rfl, hholds⟩ := entry_block T h
    exact ⟨base, rfl, readBack_of_holds hp hm hplen hmlen hholds⟩

/-- A package name of 256 letters: the daemon hands it to `xload`, and the
client reads it together with the path behind it. -/
theorem package_name_unterminated :
    let p : List UInt8 := List.replicate 256 97
    (Xloaderd.xloadText p [97] [47, 99]).length < Xloaderd.bufferMax ∧
    (∀ (v : Xloaderd.Buffer) (xload : List UInt8 → List UInt8 → List UInt8 → Int32),
      Xloaderd.Loaded v (Xloaderd.xloadText p [97] [47, 99]) →
        (Xloaderd.execute (Xloaderd.cmds xload) v).call =
          some ⟨Xloaderd.ascii "xload".toList, [p, [97], [47, 99]]⟩) ∧
    ∃ t, Reaches lenientTarget.kernel
        (xload ⟨true, true⟩ ⟨1, 1, 1, 1, 1⟩ 0 (fun _ => 0) p (some [97]) [47, 99]) (fun _ => 0)
        (.calling .entry 1 [0x201]) t ∧
      ¬ (lenientTarget.mem t).Reads 0x201 p ∧
      (lenientTarget.mem t).Reads 0x201 (p ++ Config.bridgePathCurrent ⟨true, true⟩) := by
  intro p
  have hlen : p.length = 256 := List.length_replicate
  have hmem : ∀ b ∈ p, b = 97 := fun b hb => List.eq_of_mem_replicate hb
  clear_value p
  have hword : ∀ w : List UInt8, w ≠ [] → (∀ b ∈ w, b = 97 ∨ b = 47 ∨ b = 99) →
      Xloaderd.IsWord w := by
    intro w hne hw
    refine ⟨hne, fun b hb => ?_, fun h0 => ?_⟩
    · rcases hw b hb with rfl | rfl | rfl <;> rfl
    · rcases hw 0 h0 with h | h | h <;> cases h
  have hp : Xloaderd.IsWord p :=
    hword p (List.ne_nil_of_length_pos (by omega)) fun b hb => .inl (hmem b hb)
  refine ⟨by simp [Xloaderd.xloadText, Xloaderd.behind, Xloaderd.ascii, hlen, Xloaderd.bufferMax],
    ?_, ?_⟩
  · intro v xload hv
    exact (Xloaderd.execute_xload hp (hword _ (by simp) (by simp)) (hword _ (by simp) (by simp)) hv
      xload).1
  · obtain ⟨t, ht⟩ := lenient_asks_entry ⟨true, true⟩ p [47, 99] (fun _ => 0)
    obtain ⟨base, hbase, hholds⟩ := entry_block lenientTarget ht
    cases hbase
    obtain ⟨h0, hbridge⟩ := bridgePath_fits ⟨true, true⟩
    have hfull : (lenientTarget.mem t).Reads 0x201
        (p ++ Config.bridgePathCurrent ⟨true, true⟩) := by
      rw [xloaderInfo, strncpy_of_lt hbridge, strncpy, List.take_left' hlen] at hholds
      refine ⟨?_, ?_⟩
      · rw [List.mem_append, not_or]
        exact ⟨hp.noNul, h0⟩
      · simp only [← List.append_assoc] at hholds
        exact (Mem.holds_append (Mem.holds_append hholds).1).1
    refine ⟨t, ht, fun hread => ?_, hfull⟩
    have hle := hread.length_le hfull
    rw [List.length_append] at hle
    have : (0 : ℕ) < (Config.bridgePathCurrent ⟨true, true⟩).length := by decide
    omega

theorem fields_read_back_short : (0 : UInt8) ∉ [97] ∧ (0 : UInt8) ∉ [47, 99] ∧
    ∀ (σ : Type) (T : Target σ) (sym : Symbols) (fuel : ℕ) (cmdline : Stack)
      (q : Option (List UInt8)) (s t : σ) (a : Word) (params : List Word),
      Reaches T.kernel (xload ⟨true, true⟩ sym fuel cmdline [97] q [47, 99]) s
          (.calling .entry a params) t →
        ∃ base, params = [base] ∧ ReadBack ⟨true, true⟩ [97] [47, 99] (T.mem t) base :=
  ⟨by decide, by decide, (fields_read_back_iff _ (by decide) (by decide)).mpr ⟨by decide, by decide⟩⟩

end Loader

end Dynamicloader
