import Dynamicloader.Xloader.Reply
import Dynamicloader.Xloaderd.Serve
/-!
# The round trip of a load command

The client encodes a command in Java strings, the daemon tokenises bytes in
place, and the reply goes back through `printf` and `parseInt`. For
arguments the encoding can carry, the two programs agree: `xload` is called
with the arguments and its result comes back, however the kernel cuts the
two streams up and whatever the buffers held before.
-/

namespace Dynamicloader

namespace Session

open Memory Xloaderd

/-- An argument the encoding can carry: ASCII, not empty, without NUL and
without whitespace. -/
structure Plain (s : String) : Prop where
  ne_empty : s ≠ ""
  isAscii : ∀ c ∈ s.toList, c.toNat < 128
  noNul : ∀ c ∈ s.toList, c.toNat ≠ 0
  noBlank : ∀ c ∈ s.toList, isspace (UInt8.ofNat c.toNat) = false

theorem Plain.getBytes_eq {s : String} (h : Plain s) :
    Xloader.getBytes s = ascii s.toList :=
  Xloader.flatMap_utf8EncodeChar_ascii h.isAscii

theorem Plain.isWord {s : String} (h : Plain s) : IsWord (Xloader.getBytes s) := by
  rw [h.getBytes_eq]
  refine ⟨?_, fun b hb => ?_, fun h0 => ?_⟩
  · simpa [ascii] using h.ne_empty
  · obtain ⟨c, hc, rfl⟩ := List.mem_map.mp hb
    exact h.noBlank c hc
  · obtain ⟨c, hc, hz⟩ := List.mem_map.mp h0
    have hnul : c.toNat = 0 := by
      rw [← Xloader.toNat_ofNat_of_ascii (h.isAscii c hc), hz]
      rfl
    exact h.noNul c hc hnul

/-- The bytes of the command `xload` builds. -/
def loadCommand (packageName processName modulePath : String) : List UInt8 :=
  Xloader.getBytes
    (Xloader.xloadCommand (some packageName) (some processName) (some modulePath))

/-- The text of the command, word by word. -/
theorem loadCommand_eq (p q m : String) :
    loadCommand p q m =
      xloadText (Xloader.getBytes p) (Xloader.getBytes q) (Xloader.getBytes m) := by
  have hblank : Xloader.getBytes " " = [32] := by decide
  have hname : Xloader.getBytes "xload" = ascii "xload".toList := by decide
  simp only [loadCommand, Xloader.xloadCommand, Xloader.appended, Option.getD_some, Xloader.getBytes_append,
    hblank, hname, xloadText, behind, List.flatMap_cons, List.flatMap_nil, List.append_assoc,
    List.append_nil, List.nil_append, List.cons_append]

theorem does_xload {p q m : List UInt8} (hp : IsWord p) (hq : IsWord q) (hm : IsWord m)
    (hlen : (xloadText p q m).length ≤ 1023)
    (xload : List UInt8 → List UInt8 → List UInt8 → Int32) :
    Does (cmds xload) (xloadText p q m) ⟨ascii "xload".toList, [p, q, m]⟩
      (ascii (Decimal.decimal (xload p q m).toInt)) := by
  refine ⟨?_, Nat.lt_succ_of_le hlen, fun v hv => ?_⟩
  · rw [xloadText, List.length_append]
    exact Nat.le_add_right_of_le (by decide)
  · obtain ⟨hcall, hreply, hexit, -⟩ := execute_xload hp hq hm hv xload
    exact ⟨hcall, hreply, by rw [hexit]; simp⟩

/-- **The load command survives the wire.** For all arguments the encoding
can carry: the client writes the frame of the command; the daemon, fed with
these bytes in any pieces, calls `xload` once, with these arguments, and
answers; and the client, fed with the answer in any pieces, returns what
`xload` returned. Where the command is so long that the reply is printed across
the end of the daemon's buffer, it is taken to go on (`Daemon.run`). -/
theorem xload_roundTrip (packageName processName modulePath : String) (hp : Plain packageName)
    (hq : Plain processName) (hm : Plain modulePath)
    (hlen : (loadCommand packageName processName modulePath).length ≤ 1023)
    (xload : List UInt8 → List UInt8 → List UInt8 → Int32)
    (x : Xloader.State) (buf : Buffer) (ticks : List Tick) (plan : List ℕ)
    (hticks : (loadCommand packageName processName modulePath).length + 16 ≤
      (ticks.map Tick.moves).sum) :
    let command := loadCommand packageName processName modulePath
    let line := Line.serve (cmds xload) ⟨⟨buf, .readSize none⟩, frame command, [], []⟩ ticks
    let done := (Xloader.xload x (some packageName) (some processName) (some modulePath)).run
      Xloader.Wire.peer { incoming := line.output, plan := plan }
    command = ascii ("xload ".toList ++ packageName.toList ++ [' '] ++ processName.toList ++
        [' '] ++ modulePath.toList) ∧
      done.2.sent = frame command ∧
      line.input = [] ∧ line.daemon.pc = .readSize none ∧
      line.calls = [⟨ascii "xload".toList,
        [ascii packageName.toList, ascii processName.toList, ascii modulePath.toList]⟩] ∧
      done.1.1 = xload (ascii packageName.toList) (ascii processName.toList)
        (ascii modulePath.toList) ∧
      done.2.incoming = [] := by
  intro command line done
  have hcommand : command = _ := loadCommand_eq packageName processName modulePath
  have hlen' : command.length ≤ 1023 := hlen
  have hticks' : command.length + 16 ≤ (ticks.map Tick.moves).sum := hticks
  have hdoes := does_xload hp.isWord hq.isWord hm.isWord (hcommand ▸ hlen') xload
  rw [← hcommand, hp.getBytes_eq, hq.getBytes_eq, hm.getBytes_eq] at hdoes
  generalize xload (ascii packageName.toList) (ascii processName.toList)
    (ascii modulePath.toList) = r at hdoes ⊢
  have hreply : (ascii (Decimal.decimal r.toInt)).length ≤ 11 := by
    rw [ascii, List.length_map]
    exact Decimal.length_decimal_le r.le_toInt r.toInt_lt
  obtain ⟨buf', hserve⟩ : ∃ v', line = _ := serve_frame hdoes buf (by omega)
  have hincoming : line.output = frame (ascii (Decimal.decimal r.toInt)) ++ [] := by
    rw [hserve, List.append_nil]
    rfl
  obtain ⟨x', plan', hdone⟩ : ∃ x' plan', done = _ :=
    Xloader.execute_run x hdoes.pos (Nat.le_succ_of_le hlen') hincoming
  refine ⟨?_, by rw [hdone]; rfl, by rw [hserve], by rw [hserve], by rw [hserve]; rfl,
    by rw [hdone], by rw [hdone]⟩
  rw [hcommand, hp.getBytes_eq, hq.getBytes_eq, hm.getBytes_eq]
  simp [xloadText, behind, ascii]

/-- One byte at a time, with a negative result. -/
theorem xload_roundTrip_letters :
    (loadCommand "a" "b" "c").length ≤ 1023 ∧
      ((Xloader.xload {} (some "a") (some "b") (some "c")).run Xloader.Wire.peer
        { incoming := (Line.serve (cmds fun _ _ _ => -7)
            ⟨⟨Vector.replicate _ 0, .readSize none⟩, frame (loadCommand "a" "b" "c"), [], []⟩
            (List.replicate 27 (.move 0))).output }).1.1 = -7 := by
  have ha : Plain "a" := ⟨by simp, by simp, by simp, by simp [isspace]⟩
  have hb : Plain "b" := ⟨by simp, by simp, by simp, by simp [isspace]⟩
  have hc : Plain "c" := ⟨by simp, by simp, by simp, by simp [isspace]⟩
  exact ⟨by decide, (xload_roundTrip "a" "b" "c" ha hb hc (by decide) (fun _ _ _ => -7) {}
    (Vector.replicate _ 0) (List.replicate 27 (.move 0)) [] (by decide)).2.2.2.2.2.1⟩

end Session

end Dynamicloader
