import Dynamicloader.Xloader.Reply
import Dynamicloader.Xloaderd.Framing
/-!
# Which commands are admissible

The client refuses a command of more than 1024 bytes, and the daemon one of
1024: it keeps the last byte of its buffer for the terminator. So the two
part at exactly that length. The client sends such a command and takes it
for sent; the daemon closes the connection when it has read the size.

A command of 65536 bytes or more would wrap in the two bytes of the size.
The client refuses it, and the daemon could not hold it in any case.
-/

namespace Dynamicloader

namespace Session

open Memory Xloaderd

/-- The client writes a command where its length is admissible. -/
theorem writeCommand_iff (x : Xloader.State) (w : Xloader.Wire) (cmd : String) :
    ((Xloader.writeCommand x cmd).run Xloader.Wire.peer w).1.1 = true ↔
      1 ≤ (Xloader.getBytes cmd).length ∧ (Xloader.getBytes cmd).length ≤ 1024 := by
  constructor
  · intro hsent
    by_contra hlen
    have hbad : (Xloader.getBytes cmd).length < 1 ∨ (Xloader.getBytes cmd).length > 1024 := by omega
    simp only [Xloader.writeCommand, hbad, ↓reduceIte, Prog.run_pure] at hsent
    cases hsent
  · rintro ⟨hpos, hle⟩
    rw [Xloader.writeCommand_run x w hpos hle]

/-- A frame of an admissible size is one command. -/
theorem frames_frame {c : List UInt8} (hpos : 1 ≤ c.length) (hlt : c.length < bufferMax) :
    frames (frame c) = [c] := by
  have hmax : bufferMax = 1024 := rfl
  have hframes := frames_cons [] (ofLe16_le16 (by omega : c.length < 2 ^ 16)) hpos hlt
  rw [List.append_nil] at hframes
  have hnil : frames [] = [] := by
    rw [frames]
    simp
  rw [hnil] at hframes
  exact hframes

/-- A frame that is too long for the daemon is none. -/
theorem frames_frame_eq_nil {c : List UInt8} (h : c.length = 0 ∨ bufferMax ≤ c.length)
    (hlt : c.length < 2 ^ 16) : frames (frame c) = [] := by
  refine frames_refused c ?_
  rw [ofLe16_le16 hlt]
  omega

/-- **The daemon executes a command where its length is admissible**,
however it reads the frame, and whatever comes of the reply. -/
theorem executes_iff (cmds : List CmdInfo) (v : Buffer) (c : List UInt8) {ts : List Turn}
    (hts : 2 * (frame c).length + 1 ≤ (ts.map Turn.moves).sum) :
    (∃ buf ∈ passed ((Conn.step cmds).outputs (.accepted v (frame c)) ts), Loaded buf c) ↔
      1 ≤ c.length ∧ c.length < bufferMax := by
  have hall := (reading_accepted cmds v (frame c) ts).forall₂ (over_of_moves cmds v (frame c) ts hts)
  constructor
  · rintro ⟨buf, hbuf, hload⟩
    refine ⟨?_, hload.lt⟩
    by_contra hzero
    rw [frames_frame_eq_nil (by omega) (by omega), upto_nil, List.forall₂_nil_right_iff] at hall
    rw [hall] at hbuf
    cases hbuf
  · rintro ⟨hpos, hlt⟩
    rw [frames_frame hpos hlt, upto_singleton] at hall
    obtain ⟨buf, out, hload, -, hout⟩ := List.forall₂_cons_right_iff.mp hall
    exact ⟨buf, by rw [hout]; exact List.mem_cons_self, hload⟩

/-- **Where client and daemon agree on a command**: at every length but
one. -/
theorem agree_iff (x : Xloader.State) (w : Xloader.Wire) (cmd : String) (cmds : List CmdInfo)
    (v : Buffer) (ts : List Turn)
    (hts : 2 * (frame (Xloader.getBytes cmd)).length + 1 ≤ (ts.map Turn.moves).sum) :
    (((Xloader.writeCommand x cmd).run Xloader.Wire.peer w).1.1 = true ↔
        ∃ buf ∈ passed
            ((Conn.step cmds).outputs (.accepted v (frame (Xloader.getBytes cmd))) ts),
          Loaded buf (Xloader.getBytes cmd)) ↔
      (Xloader.getBytes cmd).length ≠ 1024 := by
  have hmax : bufferMax = 1024 := rfl
  rw [writeCommand_iff, executes_iff cmds v _ hts]
  omega

/-- They agree on `ping`, byte by byte. -/
theorem agree_ping :
    let v : Buffer := Vector.replicate _ 0
    let ts := List.replicate 13 (Turn.returns 0 true)
    2 * (frame (Xloader.getBytes "ping")).length + 1 ≤ (ts.map Turn.moves).sum ∧
      (((Xloader.writeCommand {} "ping").run Xloader.Wire.peer ⟨[], [], []⟩).1.1 = true ↔
        ∃ buf ∈ passed ((Conn.step (cmds fun _ _ _ => 0)).outputs
            (.accepted v (frame (Xloader.getBytes "ping"))) ts),
          Loaded buf (Xloader.getBytes "ping")) := by
  intro v ts
  have hts : 2 * (frame (Xloader.getBytes "ping")).length + 1 ≤ (ts.map Turn.moves).sum := by
    decide
  exact ⟨hts, (agree_iff {} ⟨[], [], []⟩ "ping" (cmds fun _ _ _ => 0) v ts hts).mpr (by decide)⟩

/-- A command of 1024 bytes is sent. It is never executed, and the
connection is closed. -/
theorem sent_and_dropped :
    let cmd := String.ofList (List.replicate 1024 'a')
    ((Xloader.writeCommand {} cmd).run Xloader.Wire.peer ⟨[], [], []⟩).1.1 = true ∧
      ∀ cmds v ts,
        (Conn.step cmds).outputs (.accepted v (frame (Xloader.getBytes cmd))) ts = [] ∧
        (2 * (frame (Xloader.getBytes cmd)).length + 1 ≤ (ts.map Turn.moves).sum →
          ((Conn.step cmds).run (.accepted v (frame (Xloader.getBytes cmd))) ts).daemon.pc =
            .accept) := by
  intro cmd
  have hlen : (Xloader.getBytes cmd).length = 1024 := by
    have hascii : ∀ c ∈ List.replicate 1024 'a', c.toNat < 128 := by
      intro c hc
      rw [List.eq_of_mem_replicate hc]
      decide
    rw [Xloader.getBytes, String.toList_ofList, Xloader.flatMap_utf8EncodeChar_ascii hascii,
      List.length_map, List.length_replicate]
  have hnone : frames (frame (Xloader.getBytes cmd)) = [] :=
    frames_frame_eq_nil (.inr (by rw [hlen])) (by omega)
  refine ⟨(writeCommand_iff {} ⟨[], [], []⟩ cmd).mpr (by omega), fun cmds v ts => ?_⟩
  have hreading := reading_accepted cmds v (frame (Xloader.getBytes cmd)) ts
  have hout : (Conn.step cmds).outputs (.accepted v (frame (Xloader.getBytes cmd))) ts = [] := by
    obtain ⟨done, rest, hframes, hout⟩ := hreading.executed
    rw [hnone] at hframes
    rw [(List.append_eq_nil_iff.mp hframes.symm).1] at hout
    exact List.map_eq_nil_iff.mp (List.forall₂_nil_right_iff.mp hout)
  refine ⟨hout, fun hts => ?_⟩
  rcases over_of_moves cmds v (frame (Xloader.getBytes cmd)) ts hts with hpc | hpc
  · exact hpc
  · obtain ⟨x, hx, -⟩ := hreading.lost hpc
    rw [hout] at hx
    cases hx

end Session

end Dynamicloader
