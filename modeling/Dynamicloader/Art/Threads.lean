import Mathlib.Data.List.Induction
import Dynamicloader.Art.Leaves
/-!
# Threads in the middle of a hook

`EnableXposedHook` lets the other threads run before the method has its new entry
points. As long as none of them does anything there, a run is one of whole
operations (`run_pieces`, `outputs_pieces`).

If they do, a frame still shows how it was entered, but for one case: a call of
the method that is being hooked enters the old code, and its frame is one of a
hooked method from the end of the hook on (`frames_entered`).
-/

namespace Dynamicloader

namespace Art

variable {n k : ℕ} {Info : Type}

/-! ## Nobody in between -/

/-- The pieces of an operation. -/
def Op.pieces : Op n k Info → List (Piece n k Info)
  | .hook p additionalInfo => [.op (.hook p additionalInfo), .finish p]
  | op => [.op op]

/-- No hook is under way. -/
def Runtime.whole (s : Runtime k Info) : Threaded k Info := ⟨s, []⟩

section Pieces

variable (D : Dex n k) (s : Runtime k Info)

/-- The two halves of a hook, one after the other, are the hook. -/
theorem hook_pieces (p : Ptr) (additionalInfo : Info) :
    let es : List (Piece n k Info) := [.op (.hook p additionalInfo), .finish p]
    let x := (s.step D (.hook p additionalInfo))
    (Threaded.machine D).run (some s.whole) es = x.map (·.1.whole) ∧
      (Threaded.machine D).outputs (some s.whole) es = x.elim [] (·.2) := by
  intro es x
  simp only [es, x, Machine.run_cons, Machine.run_nil, Machine.outputs_cons, Machine.outputs_nil,
    Threaded.machine, Threaded.step, Runtime.step, Runtime.whole]
  by_cases hloaded : s.isLoaded p = true
  · obtain ⟨m, hm, -⟩ := Runtime.exists_of_isLoaded hloaded
    rcases Runtime.enableUntilResumeAll_cases additionalInfo hm with
      ⟨-, heq⟩ | ⟨-, -, heq⟩ | ⟨-, -, heq⟩ <;>
      simp [hloaded, Runtime.enableXposedHook, heq, Runtime.enableAfterResumeAll]
  · simp [hloaded]

theorem machine_pieces (o : Option (Runtime k Info)) (op : Op n k Info) :
    (Threaded.machine D).run (o.map Runtime.whole) op.pieces =
        (Runtime.machine D o op).1.map Runtime.whole ∧
      (Threaded.machine D).outputs (o.map Runtime.whole) op.pieces = (Runtime.machine D o op).2 := by
  cases o with
  | none => cases op <;> exact ⟨rfl, rfl⟩
  | some s =>
    cases op with
    | hook p additionalInfo =>
      obtain ⟨hrun, hout⟩ := hook_pieces D s p additionalInfo
      refine ⟨hrun.trans ?_, hout⟩
      rw [Runtime.machine, Option.map_map]
      rfl
    | _ =>
      refine ⟨?_, ?_⟩
      · simp [Op.pieces, Threaded.machine, Threaded.step, Runtime.machine, Runtime.whole,
          Option.map_map, Function.comp_def]
      · simp [Op.pieces, Threaded.machine, Threaded.step, Runtime.machine, Runtime.whole,
          Option.elim_map, Function.comp_def]

/-- **One operation at a time.** Where no thread comes between the two halves of
a hook, the runtime goes through the states of a run of whole operations. -/
theorem run_pieces (o : Option (Runtime k Info)) (ops : List (Op n k Info)) :
    (Threaded.machine D).run (o.map Runtime.whole) (ops.flatMap Op.pieces) =
      ((Runtime.machine D).run o ops).map Runtime.whole := by
  induction ops generalizing o with
  | nil => rfl
  | cons op ops ih =>
    rw [List.flatMap_cons, Machine.run_append, (machine_pieces D o op).1, ih, Machine.run_cons]

theorem outputs_pieces (o : Option (Runtime k Info)) (ops : List (Op n k Info)) :
    (Threaded.machine D).outputs (o.map Runtime.whole) (ops.flatMap Op.pieces) =
      (Runtime.machine D).outputs o ops := by
  induction ops generalizing o with
  | nil => rfl
  | cons op ops ih =>
    rw [List.flatMap_cons, Machine.outputs_append, (machine_pieces D o op).1,
      (machine_pieces D o op).2, ih, Machine.outputs_cons]

end Pieces

/-! ## Frames -/

/-- The thread entered the method while a hook of it was between `ResumeAll` and
its end. -/
def CalledDuring (D : Dex n k) (start : Threaded k Info) (es : List (Piece n k Info))
    (thread : ℕ) (p : Ptr) : Prop :=
  ∃ pre op post t, es = pre ++ Piece.op op :: post ∧
    (Threaded.machine D).run (some start) pre = some t ∧ p ∈ t.resumed ∧
      Enters t.runtime op thread p

theorem CalledDuring.append {D : Dex n k} {start : Threaded k Info} {es : List (Piece n k Info)}
    {thread : ℕ} {p : Ptr} (h : CalledDuring D start es thread p) (es' : List (Piece n k Info)) :
    CalledDuring D start (es ++ es') thread p := by
  obtain ⟨pre, op, post, t, rfl, hrest⟩ := h
  exact ⟨pre, op, post ++ es', t, by simp, hrest⟩

/-- How the frame of a thread was entered, where `called` has the calls that came
between the halves of a hook of their own method. -/
def Entered (called : ℕ → Ptr → Prop) (t : Threaded k Info) (thread : ℕ) (f : Frame) : Prop :=
  ∃ m, t.runtime.methods[f.method]? = some m ∧
    (f.isXposed = true → m.isXposedHookedMethod = true) ∧
    (m.isXposedHookedMethod = true ∨ f.method ∈ t.resumed →
      f.isXposed = true ∨ called thread f.method)

/-- The invariant of a runtime with hooks under way. -/
structure Framed (D : Dex n k) (called : ℕ → Ptr → Prop) (t : Threaded k Info) : Prop where
  kept : Kept D t.runtime
  resumed : ∀ p ∈ t.resumed, ∃ q : Fin n, (q : ℕ) = p ∧
    t.runtime.status (D.declared q).declaringClass ≠ .absent
  frames : ∀ thread stack, t.runtime.threadList[thread]? = some stack →
    ∀ f ∈ stack, Entered called t thread f

namespace Framed

variable {D : Dex n k} {called called' : ℕ → Ptr → Prop} {t : Threaded k Info}

theorem mono (h : Framed D called t) (hcalled : ∀ i p, called i p → called' i p) :
    Framed D called' t where
  kept := h.kept
  resumed := h.resumed
  frames i stack hstack f hf := by
    obtain ⟨m, hm, hright, hhooked⟩ := h.frames i stack hstack f hf
    exact ⟨m, hm, hright, fun hor => (hhooked hor).imp_right (hcalled i f.method)⟩

theorem leaves (h : Framed D called t) {s' : Runtime k Info} (hs : Leaves t.runtime s') :
    Framed D called ⟨s', t.resumed⟩ where
  kept := h.kept.leaves hs
  resumed p hp := by
    obtain ⟨q, hq, hstatus⟩ := h.resumed p hp
    exact ⟨q, hq, hs.status _ hstatus⟩
  frames i stack hstack f hf := by
    rw [hs.threadList] at hstack
    obtain ⟨m, hm, hright, hhooked⟩ := h.frames i stack hstack f hf
    obtain ⟨m', hm', hstays, -⟩ := hs.methods _ m hm
    refine ⟨m', hm', ?_, ?_⟩ <;> rw [hstays.isXposedHookedMethod]
    · exact hright
    · exact hhooked

theorem withThreads (h : Framed D called t) {threadList : List (List Frame)}
    (hframes : ∀ i stack, threadList[i]? = some stack → ∀ f ∈ stack, Entered called t i f) :
    Framed D called ⟨{ t.runtime with threadList := threadList }, t.resumed⟩ :=
  ⟨h.kept.withThreads threadList, h.resumed, hframes⟩

/-- What is done to one stack. -/
theorem modify (h : Framed D called t) (thread : ℕ) {g : List Frame → List Frame}
    (hg : ∀ stack, ∀ f ∈ g stack, f ∈ stack ∨ Entered called t thread f) :
    Framed D called ⟨{ t.runtime with
      threadList := t.runtime.threadList.modify thread g }, t.resumed⟩ := by
  refine h.withThreads fun i stack hstack f hf => ?_
  rw [List.getElem?_modify] at hstack
  obtain ⟨old, hold, rfl⟩ := Option.map_eq_some_iff.mp hstack
  split at hf
  · next heq =>
    subst heq
    exact (hg old f hf).elim (h.frames thread old hold f) id
  · exact h.frames i old hold f hf

/-- A hooked method has the handler for its code, so that a call enters it there. -/
theorem call (h : Framed D called t) {thread : ℕ} {p : Ptr}
    (hcalled : p ∈ t.resumed → called thread p) :
    Framed D called ⟨t.runtime.call thread p, t.resumed⟩ := by
  rw [Runtime.call]
  cases hm : t.runtime.methods[p]? with
  | none => exact h
  | some m =>
    refine h.modify thread fun stack f hf => ?_
    rcases List.mem_cons.mp hf with rfl | hf
    · refine .inr ⟨m, hm, fun hf => ?_, ?_⟩
      · exact (Bool.and_eq_true_iff.mp hf).2
      · rintro (hh | hp)
        · by_cases hlt : p < n
          · obtain ⟨m', hm', -, -, hhooked⟩ := h.kept.declared ⟨p, hlt⟩
            obtain rfl := Option.some.inj (hm.symm.trans hm')
            exact .inl (by simp [(hhooked hh).2.quickCode, hh])
          · have hclone := (h.kept.clones p m (Nat.le_of_not_lt hlt) hm).1
            exact absurd (hh.symm.trans hclone) (by simp)
        · exact .inr (hcalled hp)
    · exact .inl hf

/-- The frames of the method are those of its clone from now on. -/
theorem prepare (h : Framed D called t) {p : Fin n} {m : ArtMethod k Info}
    (hm : t.runtime.methods[(p : ℕ)]? = some m)
    (hstatus : t.runtime.status (D.declared p).declaringClass ≠ .absent)
    (hhooked : m.isXposedHookedMethod = false) (additionalInfo : Info) :
    Framed D called ⟨t.runtime.prepare p m additionalInfo, (p : ℕ) :: t.resumed⟩ where
  kept := h.kept.prepare hm hhooked additionalInfo
  resumed q hq := by
    rcases List.mem_cons.mp hq with rfl | hq
    · exact ⟨p, rfl, hstatus⟩
    · exact h.resumed q hq
  frames i stack hstack f hf := by
    obtain ⟨old, hold, rfl⟩ := Option.map_eq_some_iff.mp
      ((List.getElem?_map ..).symm.trans hstack)
    obtain ⟨g, hg, rfl⟩ := List.mem_map.mp hf
    obtain ⟨x, hx, hright, hrest⟩ := h.frames i old hold g hg
    by_cases hp : g.method = p
    · rw [if_pos hp]
      rw [hp] at hx
      obtain rfl := Option.some.inj (hm.symm.trans hx)
      refine ⟨_, Runtime.getElem?_prepare_clone additionalInfo hm, fun hg => ?_, ?_⟩
      · exact absurd ((hright hg).symm.trans hhooked) (by simp)
      · rw [m.isXposedHookedMethod_backup, hhooked]
        rintro (hfalse | hmem)
        · cases hfalse
        · -- a hook under way is one of a declared method
          have hlt : t.runtime.methods.length < n := by
            rcases List.mem_cons.mp hmem with heq | hmem
            · exact lt_of_eq_of_lt heq p.isLt
            · obtain ⟨q, hq, -⟩ := h.resumed _ hmem
              exact lt_of_eq_of_lt hq.symm q.isLt
          exact absurd hlt (Nat.not_lt.mpr h.kept.le_length)
    · rw [if_neg hp]
      refine ⟨x, Runtime.getElem?_prepare_of_ne additionalInfo hp hx, hright, fun hor => ?_⟩
      exact hrest (hor.imp_right fun hmem => (List.mem_cons.mp hmem).resolve_left hp)

/-- The frames of the method are now those of a hooked one. -/
theorem finish (h : Framed D called t) {p : Ptr} (hp : p ∈ t.resumed) :
    Framed D called ⟨t.runtime.intercept p, t.resumed.erase p⟩ := by
  obtain ⟨q, rfl, hstatus⟩ := h.resumed p hp
  refine ⟨h.kept.intercept hstatus, fun r hr => h.resumed r (List.mem_of_mem_erase hr),
    fun i stack hstack f hf => ?_⟩
  obtain ⟨x, hx, hright, hrest⟩ := h.frames i stack hstack f hf
  by_cases hq : f.method = q
  · rw [hq] at hx
    refine ⟨x.intercepted, ?_, fun _ => x.isXposedHookedMethod_intercepted, fun _ => ?_⟩
    · rw [hq]
      exact Runtime.getElem?_intercept_self hx
    · exact hrest (.inr (hq ▸ hp))
  · refine ⟨x, (Runtime.getElem?_intercept_of_ne hq t.runtime).trans hx, hright, fun hor => ?_⟩
    exact hrest (hor.imp_right List.mem_of_mem_erase)

theorem step (h : Framed D called t) {e : Piece n k Info}
    {x : Threaded k Info × List (Out Info)} (hx : t.step D e = some x)
    (hcalled : ∀ op thread p, e = .op op → Enters t.runtime op thread p → p ∈ t.resumed →
      called thread p) : Framed D called x.1 := by
  have hwhole : ∀ op, e = .op op → (∀ p info, op ≠ .hook p info) →
      (t.runtime.step D op).map (fun x => (⟨x.1, t.resumed⟩, x.2)) = some x →
        Framed D called x.1 := by
    intro op he hop hx
    obtain ⟨y, hy, rfl⟩ := Option.map_eq_some_iff.mp hx
    cases effect_step h.kept hy with
    | leaves hs _ => exact h.leaves hs
    | hook heq => exact absurd heq (hop _ _)
    | @call thread p henters => exact h.call (hcalled op thread p he henters)
    | leave thread => exact h.modify thread fun stack f hf => .inl (List.mem_of_mem_tail hf)
  cases e with
  | finish p =>
    rw [Threaded.step] at hx
    split at hx
    · next hp => exact Option.some.inj hx ▸ h.finish hp
    · exact Option.some.inj hx ▸ h
  | op op =>
    cases op with
    | hook p info =>
      rw [Threaded.step] at hx
      split at hx
      · next hloaded =>
        obtain ⟨y, hy, rfl⟩ := Option.map_eq_some_iff.mp hx
        obtain ⟨m, hm, hstatus⟩ := Runtime.exists_of_isLoaded hloaded
        rcases Runtime.enableUntilResumeAll_cases info hm with
          ⟨-, heq⟩ | ⟨-, -, heq⟩ | ⟨hhooked, hclone, heq⟩
        all_goals obtain rfl := Option.some.inj (heq.symm.trans hy)
        · exact h
        · exact h
        · by_cases hlt : p < n
          · obtain ⟨q, rfl⟩ : ∃ q : Fin n, (q : ℕ) = p := ⟨⟨p, hlt⟩, rfl⟩
            obtain ⟨m', hm', hclass, -⟩ := h.kept.declared q
            obtain rfl := Option.some.inj (hm.symm.trans hm')
            exact h.prepare hm (hclass ▸ hstatus) hhooked info
          · have horiginal := (h.kept.clones p m (Nat.le_of_not_lt hlt) hm).2
            exact absurd (horiginal.symm.trans hclone) (by simp)
      · exact Option.some.inj hx ▸ h
    | _ => exact hwhole _ rfl (by simp) hx

end Framed

end Art

end Dynamicloader
