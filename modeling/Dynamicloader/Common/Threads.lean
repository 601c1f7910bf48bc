import Mathlib.Data.List.Nodup
import Mathlib.Logic.Function.Basic
/-!
# Threads, counted

Each of countably many threads is idle or at a place. `Holding p f n` says
that `n` of them are at a place in `p`. One thread that moves changes the
count by what it leaves and what it enters (`Holding.update`), which is all
that is needed to balance the calls that were begun against those that are
done.
-/

namespace Dynamicloader

variable {α : Type*} {p : α → Bool} {f : ℕ → Option α} {n c : ℕ}

/-- `n` threads are at a place in `p`. -/
def Holding (p : α → Bool) (f : ℕ → Option α) (n : ℕ) : Prop :=
  ∃ l : List ℕ, l.Nodup ∧ l.length = n ∧ ∀ c, c ∈ l ↔ (f c).any p = true

theorem holding_idle (hf : ∀ c, f c = none) : Holding p f 0 :=
  ⟨[], List.nodup_nil, rfl, fun c => by simp [hf c]⟩

/-- Where all threads are idle none is at a place. -/
theorem Holding.eq_zero (h : Holding p f n) (hf : ∀ c, f c = none) : n = 0 := by
  obtain ⟨l, -, rfl, hmem⟩ := h
  refine List.length_eq_zero_iff.mpr (List.eq_nil_iff_forall_not_mem.mpr fun c hc => ?_)
  have hany := (hmem c).mp hc
  rw [hf c] at hany
  cases hany

/-- **One thread moves.** -/
theorem Holding.update (h : Holding p f n) (c : ℕ) (x : Option α) :
    ∃ n', Holding p (Function.update f c x) n' ∧
      n + (x.any p).toNat = ((f c).any p).toNat + n' := by
  obtain ⟨l, hnodup, rfl, hmem⟩ := h
  -- the threads without `c` are the same before and after
  have hothers : ∀ c', c' ∈ l.erase c ↔ c' ≠ c ∧ (f c').any p = true := fun c' => by
    rw [hnodup.mem_erase_iff, hmem c']
  have hlen : l.length = ((f c).any p).toNat + (l.erase c).length := by
    cases hc : (f c).any p with
    | true =>
      have hin : c ∈ l := (hmem c).mpr hc
      have hpos := List.length_pos_of_mem hin
      rw [List.length_erase_of_mem hin, Bool.toNat_true]
      omega
    | false =>
      have hout : c ∉ l := fun hin => by
        rw [(hmem c).mp hin] at hc
        cases hc
      rw [List.erase_of_not_mem hout, Bool.toNat_false, Nat.zero_add]
  cases hx : x.any p with
  | true =>
    refine ⟨(l.erase c).length + 1, ⟨c :: l.erase c, ?_, rfl, fun c' => ?_⟩, ?_⟩
    · exact List.nodup_cons.mpr ⟨fun hc => ((hothers c).mp hc).1 rfl, hnodup.erase c⟩
    · rw [List.mem_cons, hothers, Function.update_apply]
      split
      · rename_i heq
        exact iff_of_true (.inl heq) hx
      · rename_i hne
        simp [hne]
    · rw [Bool.toNat_true]
      omega
  | false =>
    refine ⟨(l.erase c).length, ⟨l.erase c, hnodup.erase c, rfl, fun c' => ?_⟩, ?_⟩
    · rw [hothers, Function.update_apply]
      split
      · rename_i heq
        simp [heq, hx]
      · rename_i hne
        simp [hne]
    · rw [Bool.toNat_false]
      omega

end Dynamicloader
