import Dynamicloader.Bridge.Model
/-!
# Bridge — what one call of the handler runs

The handler's two loops share an index that advances in three ways. This
file says what they amount to: callbacks `0 … k` are entered in order, the
original is invoked unless callback `k` asked to return early, and
callbacks `k … 0` are left in reverse (`handleHookedMethod_runs`). The views
each step is shown are computed by `beforeView` and `afterView`, which know
nothing of indices running through a loop or of the flag `returnEarly`
being set and cleared.

Two invariants of the parameter object carry the argument. On the way in it
is `Fresh`: whatever an earlier callback set was a request to stop, or was
thrown away. On the way out it is `Settled`: the flag stays set and at most
one of result and throwable is present, so putting one of them back puts
both back.
-/

namespace Dynamicloader

namespace Bridge

variable {Ref World : Type}

/-! ## The parameter object under a callback's calls -/

/-- Nothing set yet: the state between two before-steps. -/
structure Fresh (p : MethodHookParam Ref) : Prop where
  result : p.result = none
  throwable : p.throwable = none
  returnEarly : p.returnEarly = false

/-- Resetting a fresh object changes nothing. -/
theorem Fresh.reset_eq {p : MethodHookParam Ref} (h : Fresh p) :
    { p with result := none, throwable := none, returnEarly := false } = p := by
  rcases p with ⟨m, o, a, e, r, t, f⟩
  obtain ⟨rfl, rfl, rfl⟩ := h
  rfl

/-- An answer is in place: the state between two after-steps. -/
structure Settled (p : MethodHookParam Ref) : Prop where
  returnEarly : p.returnEarly = true
  exclusive : p.throwable ≠ none → p.result = none

theorem settled_setResult (p : MethodHookParam Ref) (r : Option Ref) : Settled (p.setResult r) :=
  ⟨rfl, fun h => absurd rfl h⟩

theorem settled_setThrowable (p : MethodHookParam Ref) (t : Option Ref) :
    Settled (p.setThrowable t) :=
  ⟨rfl, fun _ => rfl⟩

/-- No call clears the flag, and the setters raise it. -/
theorem returnEarly_foldl_apply (ops : List (ParamOp Ref)) (p : MethodHookParam Ref) :
    (ops.foldl ParamOp.apply p).returnEarly = (p.returnEarly || ops.any ParamOp.sets) := by
  induction ops generalizing p with
  | nil => simp
  | cons op ops ih =>
    rw [List.foldl_cons, ih, List.any_cons]
    cases op <;> simp [ParamOp.apply, ParamOp.sets, MethodHookParam.setResult,
      MethodHookParam.setThrowable, MethodHookParam.getExtra]

/-- Without a setter call the result and the throwable stay. -/
theorem fresh_foldl_apply {ops : List (ParamOp Ref)} {p : MethodHookParam Ref} (hp : Fresh p)
    (h : ops.any ParamOp.sets = false) : Fresh (ops.foldl ParamOp.apply p) := by
  induction ops generalizing p with
  | nil => exact hp
  | cons op ops ih =>
    rw [List.any_cons, Bool.or_eq_false_iff] at h
    rw [List.foldl_cons]
    refine ih ?_ h.2
    cases op with
    | setResult r => cases h.1
    | setThrowable t => cases h.1
    | assignMethod m => exact ⟨hp.result, hp.throwable, hp.returnEarly⟩
    | assignThisObject o => exact ⟨hp.result, hp.throwable, hp.returnEarly⟩
    | assignArgs a => exact ⟨hp.result, hp.throwable, hp.returnEarly⟩
    | getExtra b => exact ⟨hp.result, hp.throwable, hp.returnEarly⟩

/-- A setter call settles the object, whatever comes before or after. -/
theorem settled_foldl_apply {ops : List (ParamOp Ref)} {p : MethodHookParam Ref}
    (h : ops.any ParamOp.sets = true ∨ Settled p) : Settled (ops.foldl ParamOp.apply p) := by
  induction ops generalizing p with
  | nil => exact h.resolve_left (by simp)
  | cons op ops ih =>
    rw [List.foldl_cons]
    refine ih ?_
    cases op with
    | setResult r => exact Or.inr (settled_setResult p r)
    | setThrowable t => exact Or.inr (settled_setThrowable p t)
    | assignMethod m => exact h.imp_right fun hp => ⟨hp.returnEarly, hp.exclusive⟩
    | assignThisObject o => exact h.imp_right fun hp => ⟨hp.returnEarly, hp.exclusive⟩
    | assignArgs a => exact h.imp_right fun hp => ⟨hp.returnEarly, hp.exclusive⟩
    | getExtra b => exact h.imp_right fun hp => ⟨hp.returnEarly, hp.exclusive⟩

/-! ## The views, without the loops -/

/-- **What a before-step leaves for the next one.** A step that throws
leaves no result and no throwable. -/
def MethodHook.leftByBefore (cb : MethodHook Ref World) (v : View Ref World) : View Ref World :=
  let r := cb.beforeHookedMethod v
  { param := if r.thrown.isSome then
      { r.paramFrom v.param with result := none, throwable := none, returnEarly := false }
      else r.paramFrom v.param
    world := r.world }

/-- **The before-step completes normally having called `setResult` or
`setThrowable`.** -/
def MethodHook.requestsReturn (cb : MethodHook Ref World) (v : View Ref World) : Bool :=
  (cb.beforeHookedMethod v).thrown.isNone && (cb.beforeHookedMethod v).ops.any ParamOp.sets

/-- **What an after-step leaves.** A step that throws leaves the result and
the throwable it found. -/
def MethodHook.leftByAfter (cb : MethodHook Ref World) (v : View Ref World) : View Ref World :=
  let r := cb.afterHookedMethod v
  { param := if r.thrown.isSome then
      { r.paramFrom v.param with result := v.param.result, throwable := v.param.throwable }
      else r.paramFrom v.param
    world := r.world }

/-- What the before-step of callback `i` is shown, if it is reached. -/
def beforeView (cbs : List (MethodHook Ref World)) (v : View Ref World) : ℕ → View Ref World
  | 0 => v
  | i + 1 => (cbs[i]?).elim (beforeView cbs v i) fun cb => cb.leftByBefore (beforeView cbs v i)

/-- Callback `i` requests an early return when its turn comes. -/
def stopsAt (cbs : List (MethodHook Ref World)) (v : View Ref World) (i : ℕ) : Bool :=
  (cbs[i]?).elim false fun cb => cb.requestsReturn (beforeView cbs v i)

/-- **The last callback entered**: the first one requesting an early
return, or else the last of the list. -/
def stopIndex (cbs : List (MethodHook Ref World)) (v : View Ref World) : ℕ :=
  ((List.range cbs.length).find? (stopsAt cbs v)).getD (cbs.length - 1)

/-- What the original leaves, when it returns or throws by way of
`InvocationTargetException`. -/
def leftByOriginal (native : InvokeOriginal Ref World) (method : Option Ref) (id : Int32)
    (info : AdditionalHookInfo Ref World) (v : View Ref World) : View Ref World :=
  let r := native v.world method id info.parameterTypes info.returnType v.param.thisObject
    v.param.args
  { param := match r.1 with
      | .returned x => v.param.setResult x
      | .targetException cause => v.param.setThrowable (some cause)
      | .failed _ => v.param
    world := r.2 }

/-- What after-step number `d` is shown, counted from callback `k`
downwards and starting from `v`. -/
def afterView (cbs : List (MethodHook Ref World)) (k : ℕ) (v : View Ref World) :
    ℕ → View Ref World
  | 0 => v
  | d + 1 => (cbs[k - d]?).elim (afterView cbs k v d) fun cb => cb.leftByAfter (afterView cbs k v d)

/-- The answer a parameter object holds. -/
def outcomeOf (p : MethodHookParam Ref) : Outcome Ref :=
  match p.throwable with
  | some t => .throws t
  | none => .returns p.result

/-- Every throw of the original method is reported as
`InvocationTargetException`. -/
def ReportsThrows (native : InvokeOriginal Ref World) : Prop :=
  ∀ w method id parameterTypes returnType thisObject args e,
    (native w method id parameterTypes returnType thisObject args).1 ≠ .failed e

/-! ## The way in -/

variable {cbs : List (MethodHook Ref World)} {v : View Ref World}

theorem beforeView_succ {i : ℕ} (h : i < cbs.length) :
    beforeView cbs v (i + 1) = (cbs.get ⟨i, h⟩).leftByBefore (beforeView cbs v i) := by
  simp [beforeView, h]

theorem stopsAt_of_lt {i : ℕ} (h : i < cbs.length) :
    stopsAt cbs v i = (cbs.get ⟨i, h⟩).requestsReturn (beforeView cbs v i) := by
  simp [stopsAt, h]

/-- One before-step computes `leftByBefore`. -/
theorem runBefore_view (cb : MethodHook Ref World) (i : ℕ) (s : Activation Ref World) :
    (runBefore cb i s).1.view = cb.leftByBefore s.view := by
  unfold runBefore MethodHook.leftByBefore
  cases h : (cb.beforeHookedMethod s.view).thrown with
  | none => simp only [h]; rfl
  | some t => simp only [h]; rfl

theorem runBefore_trace (cb : MethodHook Ref World) (i : ℕ) (s : Activation Ref World) :
    (runBefore cb i s).1.trace = s.trace ++ [Event.before i s.view] := by
  unfold runBefore
  cases h : (cb.beforeHookedMethod s.view).thrown with
  | none => simp only [h]
  | some t => simp only [h]

/-- **The loop breaks exactly on a request to return early**: the flag was
down before the step, so it is up after it only by a setter call. -/
theorem runBefore_stops (cb : MethodHook Ref World) (i : ℕ) {s : Activation Ref World}
    (hs : Fresh s.param) :
    (!(runBefore cb i s).2 && (runBefore cb i s).1.param.returnEarly) =
      cb.requestsReturn s.view := by
  unfold runBefore MethodHook.requestsReturn
  cases h : (cb.beforeHookedMethod s.view).thrown with
  | none => simp [h, Step.paramFrom, returnEarly_foldl_apply, hs.returnEarly]
  | some t => simp [h]

/-- A before-step that does not request an early return leaves the object
as fresh as it found it. -/
theorem fresh_leftByBefore {cb : MethodHook Ref World} {v : View Ref World} (hv : Fresh v.param)
    (h : cb.requestsReturn v = false) : Fresh (cb.leftByBefore v).param := by
  unfold MethodHook.requestsReturn at h
  unfold MethodHook.leftByBefore
  cases ht : (cb.beforeHookedMethod v).thrown with
  | none =>
    rw [ht, Option.isNone_none, Bool.true_and] at h
    simp only [ht]
    exact fresh_foldl_apply hv h
  | some t => simp only [ht]; exact ⟨rfl, rfl, rfl⟩

/-- And one that does settles it. -/
theorem settled_leftByBefore {cb : MethodHook Ref World} {v : View Ref World}
    (h : cb.requestsReturn v = true) : Settled (cb.leftByBefore v).param := by
  unfold MethodHook.requestsReturn at h
  unfold MethodHook.leftByBefore
  cases ht : (cb.beforeHookedMethod v).thrown with
  | none =>
    rw [ht, Option.isNone_none, Bool.true_and] at h
    simp only [ht]
    exact settled_foldl_apply (Or.inl h)
  | some t => rw [ht] at h; cases h

/-- **What the first loop does from index `i` on.** It ends one past the
first callback that requests an early return, or past the last one, having
run each before-step from `i` up to there once and in order. -/
theorem beforeLoop_spec (v : View Ref World) (i : ℕ) (h : i < cbs.length)
    (s : Activation Ref World) (hview : s.view = beforeView cbs v i) (hs : Fresh s.param) :
    ∃ k, i ≤ k ∧ k < cbs.length ∧ (∀ j, i ≤ j → j < k → stopsAt cbs v j = false) ∧
      (stopsAt cbs v k = true ∨ k + 1 = cbs.length) ∧
      (beforeLoop cbs i h s).beforeIdx = k + 1 ∧
      (beforeLoop cbs i h s).activation.view = beforeView cbs v (k + 1) ∧
      (beforeLoop cbs i h s).activation.trace =
        s.trace ++ (List.range' i (k + 1 - i)).map fun j => Event.before j (beforeView cbs v j) := by
  have hstop : (!(runBefore (cbs.get ⟨i, h⟩) i s).2 &&
      (runBefore (cbs.get ⟨i, h⟩) i s).1.param.returnEarly) = stopsAt cbs v i := by
    rw [runBefore_stops _ i hs, stopsAt_of_lt h, hview]
  have hnext : (runBefore (cbs.get ⟨i, h⟩) i s).1.view = beforeView cbs v (i + 1) := by
    rw [runBefore_view, beforeView_succ h, hview]
  have htrace := runBefore_trace (cbs.get ⟨i, h⟩) i s
  rw [beforeLoop]
  simp only [hstop]
  by_cases hi : stopsAt cbs v i = true
  · -- the early return: one more increment, then `break`
    rw [if_pos hi]
    refine ⟨i, Nat.le_refl i, h, fun j h₁ h₂ => by omega, Or.inl hi, rfl, hnext, ?_⟩
    rw [htrace, hview]
    simp
  · rw [if_neg hi]
    have hfalse : stopsAt cbs v i = false := by simpa using hi
    by_cases h' : i + 1 < cbs.length
    · rw [dif_pos h']
      have hfresh : Fresh (runBefore (cbs.get ⟨i, h⟩) i s).1.param := by
        have : Fresh (runBefore (cbs.get ⟨i, h⟩) i s).1.view.param := by
          rw [runBefore_view]
          refine fresh_leftByBefore hs ?_
          rw [hview, ← stopsAt_of_lt h]
          exact hfalse
        exact this
      obtain ⟨k, hik, hk, hnone, hlast, hidx, hv, ht⟩ :=
        beforeLoop_spec v (i + 1) h' _ hnext hfresh
      refine ⟨k, by omega, hk, fun j h₁ h₂ => ?_, hlast, hidx, hv, ?_⟩
      · rcases Nat.eq_or_lt_of_le h₁ with rfl | hlt
        · exact hfalse
        · exact hnone j hlt h₂
      · rw [ht, htrace, hview, show k + 1 - i = (k + 1 - (i + 1)) + 1 by omega, List.range'_succ,
          List.map_cons, List.append_assoc, List.singleton_append]
    · rw [dif_neg h']
      refine ⟨i, Nat.le_refl i, h, fun j h₁ h₂ => by omega, Or.inr (by omega), rfl, hnext, ?_⟩
      rw [htrace, hview]
      simp
  termination_by cbs.length - i

/-- The two conditions `beforeLoop_spec` gives of `k` pin it down. -/
theorem stopIndex_eq {k : ℕ} (hk : k < cbs.length) (hnone : ∀ j, j < k → stopsAt cbs v j = false)
    (hlast : stopsAt cbs v k = true ∨ k + 1 = cbs.length) : stopIndex cbs v = k := by
  unfold stopIndex
  by_cases hstop : stopsAt cbs v k = true
  · have hfind : (List.range cbs.length).find? (stopsAt cbs v) = some k := by
      rw [List.find?_range_eq_some]
      exact ⟨hstop, List.mem_range.mpr hk, fun j hj => by simp [hnone j hj]⟩
    rw [hfind, Option.getD_some]
  · have hlen : k + 1 = cbs.length := hlast.resolve_left hstop
    have hfind : (List.range cbs.length).find? (stopsAt cbs v) = none := by
      rw [List.find?_range_eq_none]
      intro j hj
      rcases Nat.lt_or_ge j k with hlt | hge
      · simp [hnone j hlt]
      · have hjk : j = k := by omega
        rw [hjk]
        simpa using hstop
    rw [hfind, Option.getD_none]
    omega

/-! ## The way out -/

/-- The handler puts back the throwable or else the result; with at most
one of the two present, that is putting back both. -/
theorem restore_eq {p q : MethodHookParam Ref} (hp : Settled p) (hq : q.returnEarly = true) :
    (if p.throwable.isNone then q.setResult p.result else q.setThrowable p.throwable) =
      { q with result := p.result, throwable := p.throwable } := by
  cases hthrow : p.throwable with
  | none => simp [MethodHookParam.setResult, hq]
  | some t =>
    have hresult : p.result = none := hp.exclusive (by rw [hthrow]; simp)
    simp [MethodHookParam.setThrowable, hq, hresult]

/-- **One after-step computes `leftByAfter`.** -/
theorem runAfter_view (cb : MethodHook Ref World) (i : ℕ) {s : Activation Ref World}
    (hs : Settled s.param) : (runAfter cb i s).view = cb.leftByAfter s.view := by
  have hearly : ((cb.afterHookedMethod s.view).paramFrom s.param).returnEarly = true := by
    rw [Step.paramFrom, returnEarly_foldl_apply, hs.returnEarly, Bool.true_or]
  unfold runAfter MethodHook.leftByAfter
  cases h : (cb.afterHookedMethod s.view).thrown with
  | none => simp only [h]; rfl
  | some t => simp only [h, restore_eq hs hearly]; rfl

theorem runAfter_trace (cb : MethodHook Ref World) (i : ℕ) (s : Activation Ref World) :
    (runAfter cb i s).trace = s.trace ++ [Event.after i s.view] := by
  unfold runAfter
  cases h : (cb.afterHookedMethod s.view).thrown with
  | none => simp only [h]
  | some t => simp only [h]

theorem settled_leftByAfter (cb : MethodHook Ref World) {v : View Ref World}
    (hv : Settled v.param) : Settled (cb.leftByAfter v).param := by
  have hops : Settled ((cb.afterHookedMethod v).paramFrom v.param) :=
    settled_foldl_apply (Or.inr hv)
  unfold MethodHook.leftByAfter
  cases h : (cb.afterHookedMethod v).thrown with
  | none => simp only [h]; exact hops
  | some t => simp only [h]; exact ⟨hops.returnEarly, hv.exclusive⟩

theorem afterView_succ {k d : ℕ} (h : k - d < cbs.length) :
    afterView cbs k v (d + 1) = (cbs.get ⟨k - d, h⟩).leftByAfter (afterView cbs k v d) := by
  simp [afterView, h]

/-- **What the second loop does from index `i` down.** Each after-step from
`i` to `0` runs once, in that order. -/
theorem afterLoop_spec {k : ℕ} (t : View Ref World) : ∀ (i : ℕ) (h : i < cbs.length)
    (s : Activation Ref World), i ≤ k → s.view = afterView cbs k t (k - i) → Settled s.param →
    (afterLoop cbs i h s).view = afterView cbs k t (k + 1) ∧
      (afterLoop cbs i h s).trace = s.trace ++
        (List.range' (k - i) (i + 1)).map fun d => Event.after (k - d) (afterView cbs k t d) := by
  intro i
  induction i with
  | zero =>
    intro h s _ hview hs
    have hk : k - k = 0 := Nat.sub_self k
    refine ⟨?_, ?_⟩
    · rw [afterLoop, runAfter_view _ _ hs, hview, afterView_succ (by omega)]
      simp only [hk, Nat.sub_zero]
    · rw [afterLoop, runAfter_trace, hview]
      simp
  | succ i ih =>
    intro h s hik hview hs
    have hidx : k - (k - (i + 1)) = i + 1 := by omega
    have hnext : (runAfter (cbs.get ⟨i + 1, h⟩) (i + 1) s).view = afterView cbs k t (k - i) := by
      rw [runAfter_view _ _ hs, hview, show k - i = k - (i + 1) + 1 by omega,
        afterView_succ (by omega)]
      simp only [hidx]
    have hsettled : Settled (runAfter (cbs.get ⟨i + 1, h⟩) (i + 1) s).param := by
      have : Settled (runAfter (cbs.get ⟨i + 1, h⟩) (i + 1) s).view.param := by
        rw [runAfter_view _ _ hs]
        exact settled_leftByAfter _ hs
      exact this
    obtain ⟨hv, ht⟩ := ih (by omega) _ (by omega) hnext hsettled
    rw [afterLoop]
    refine ⟨hv, ?_⟩
    have hrange : List.range' (k - (i + 1)) (i + 1 + 1) =
        (k - (i + 1)) :: List.range' (k - i) (i + 1) := by
      rw [List.range'_succ, show k - (i + 1) + 1 = k - i by omega]
    rw [ht, runAfter_trace, hview, hrange, List.map_cons, hidx, List.append_assoc,
      List.singleton_append]

/-- The second loop and the answer, from a settled activation. -/
theorem finish_spec {k i : ℕ} (hik : i = k) (h : i < cbs.length) {s : Activation Ref World}
    (hs : Settled s.param) :
    (finish cbs i h s).outcome = outcomeOf (afterView cbs k s.view (k + 1)).param ∧
      (finish cbs i h s).world = (afterView cbs k s.view (k + 1)).world ∧
      (finish cbs i h s).trace = s.trace ++
        (List.range (k + 1)).map fun d => Event.after (k - d) (afterView cbs k s.view d) := by
  subst hik
  have hstart : s.view = afterView cbs i s.view (i - i) := by rw [Nat.sub_self]; rfl
  obtain ⟨hview, htrace⟩ := afterLoop_spec s.view i h s (Nat.le_refl i) hstart hs
  refine ⟨?_, ?_, ?_⟩
  · rw [← hview]; rfl
  · rw [← hview]; rfl
  · rw [Nat.sub_self, ← List.range_eq_range'] at htrace
    exact htrace

/-! ## The whole call -/

/-- Callback `k` is the first to request an early return, or nobody does. -/
theorem stopsAt_stopIndex_iff {k : ℕ} (hk : k < cbs.length)
    (hnone : ∀ j, j < k → stopsAt cbs v j = false)
    (hlast : stopsAt cbs v k = true ∨ k + 1 = cbs.length) :
    (List.range cbs.length).any (stopsAt cbs v) = stopsAt cbs v k := by
  cases hstop : stopsAt cbs v k with
  | true => exact List.any_eq_true.mpr ⟨k, List.mem_range.mpr hk, hstop⟩
  | false =>
    have hlen : k + 1 = cbs.length := hlast.resolve_left (by simp [hstop])
    refine List.any_eq_false.mpr fun j hj => ?_
    rcases Nat.lt_or_ge j k with hlt | hge
    · simp [hnone j hlt]
    · have hjk : j = k := by have := List.mem_range.mp hj; omega
      simp [hjk, hstop]

/-- The object is fresh as long as nobody requested an early return. -/
theorem fresh_beforeView (hv : Fresh v.param) {k : ℕ} (hk : k ≤ cbs.length)
    (hnone : ∀ j, j < k → stopsAt cbs v j = false) : Fresh (beforeView cbs v k).param := by
  induction k with
  | zero => exact hv
  | succ k ih =>
    rw [beforeView_succ hk]
    refine fresh_leftByBefore (ih (by omega) fun j hj => hnone j (by omega)) ?_
    rw [← stopsAt_of_lt hk]
    exact hnone k (by omega)

/-- After the step of callback `k` the flag says whether it requested an
early return. -/
theorem returnEarly_beforeView (hv : Fresh v.param) {k : ℕ} (hk : k < cbs.length)
    (hnone : ∀ j, j < k → stopsAt cbs v j = false) :
    (beforeView cbs v (k + 1)).param.returnEarly = stopsAt cbs v k := by
  have hfresh := fresh_beforeView hv (Nat.le_of_lt hk) hnone
  rw [beforeView_succ hk, stopsAt_of_lt hk]
  cases hstop : (cbs.get ⟨k, hk⟩).requestsReturn (beforeView cbs v k) with
  | true => exact (settled_leftByBefore hstop).returnEarly
  | false => exact (fresh_leftByBefore hfresh hstop).returnEarly

theorem settled_leftByOriginal {native : InvokeOriginal Ref World} (hnative : ReportsThrows native)
    (method : Option Ref) (id : Int32) (info : AdditionalHookInfo Ref World)
    (v : View Ref World) : Settled (leftByOriginal native method id info v).param := by
  unfold leftByOriginal
  cases h : (native v.world method id info.parameterTypes info.returnType v.param.thisObject
      v.param.args).1 with
  | returned x => simp only [h]; exact settled_setResult _ x
  | targetException cause => simp only [h]; exact settled_setThrowable _ (some cause)
  | failed e => exact absurd h (hnative _ _ _ _ _ _ _ e)

/-- The activation after the original was invoked in it. -/
def invokeOriginal (native : InvokeOriginal Ref World) (method : Option Ref) (id : Int32)
    (info : AdditionalHookInfo Ref World) (s : Activation Ref World) : Activation Ref World :=
  { param := (leftByOriginal native method id info s.view).param
    world := (leftByOriginal native method id info s.view).world
    trace := s.trace ++ [.original s.param.thisObject s.param.args s.world]
    log := s.log }

/-- **The slow path, in one line**: enter, invoke unless asked not to, and
leave. -/
theorem handleHookedMethod_eq_finish {native : InvokeOriginal Ref World}
    (hnative : ReportsThrows native) (method : Option Ref) (id : Int32)
    (info : AdditionalHookInfo Ref World) (hlen : ¬ info.callbacks.length = 0)
    (thisObject args : Option Ref) (w : World) (e : Entered info.callbacks)
    (he : e = beforeLoop info.callbacks 0 (Nat.pos_of_ne_zero hlen)
      { param := { method := method, thisObject := thisObject, args := args }, world := w }) :
    handleHookedMethod false native method id info thisObject args w =
      finish info.callbacks (e.beforeIdx - 1) e.afterIdx_lt
        (if e.activation.param.returnEarly then e.activation
          else invokeOriginal native method id info e.activation) := by
  rw [handleHookedMethod, if_neg Bool.false_ne_true, dif_neg hlen]
  simp only [← he]
  cases hflag : e.activation.param.returnEarly with
  | true => simp
  | false =>
    simp only [invokeOriginal, leftByOriginal, Activation.view]
    cases hr : (native e.activation.world method id info.parameterTypes info.returnType
        e.activation.param.thisObject e.activation.param.args).1 with
    | returned x => simp
    | targetException cause => simp
    | failed x => exact absurd hr (hnative _ _ _ _ _ _ _ x)

/-- **What one call of the handler runs.** With `k` the first callback
whose before-step completes normally having called `setResult` or
`setThrowable`, or the last one if there is none, the handler runs the
before-steps `0 … k`, the original exactly if nobody requested an early
return, and the after-steps `k … 0`. Each step is shown what the step
before it left, a throwing after-step leaving the result and throwable it
found; the answer is what callback `0`'s after-step left. -/
theorem handleHookedMethod_runs {native : InvokeOriginal Ref World}
    (hnative : ReportsThrows native) (method : Option Ref) (id : Int32)
    (info : AdditionalHookInfo Ref World) (hne : info.callbacks ≠ [])
    (thisObject args : Option Ref) (w : World) :
    let cbs := info.callbacks
    let v : View Ref World := ⟨{ method := method, thisObject := thisObject, args := args }, w⟩
    let k := stopIndex cbs v
    let early := (List.range cbs.length).any (stopsAt cbs v)
    let inner := beforeView cbs v (k + 1)
    let turned := if early then inner else leftByOriginal native method id info inner
    let out := handleHookedMethod false native method id info thisObject args w
    k < cbs.length ∧
      out.trace = (List.range (k + 1)).map (fun i => Event.before i (beforeView cbs v i)) ++
        (if early then [] else [Event.original inner.param.thisObject inner.param.args inner.world]) ++
        (List.range (k + 1)).map (fun d => Event.after (k - d) (afterView cbs k turned d)) ∧
      out.outcome = outcomeOf (afterView cbs k turned (k + 1)).param ∧
      out.world = (afterView cbs k turned (k + 1)).world := by
  intro cbs v k₀ early inner turned out
  have hlen : ¬ cbs.length = 0 := fun h => hne (List.length_eq_zero_iff.mp h)
  have hfresh : Fresh v.param := ⟨rfl, rfl, rfl⟩
  obtain ⟨k, -, hk, hnone, hlast, hidx, hview, htrace⟩ :=
    beforeLoop_spec v 0 (Nat.pos_of_ne_zero hlen) { param := v.param, world := w } rfl hfresh
  replace hnone : ∀ j, j < k → stopsAt cbs v j = false := fun j hj => hnone j (Nat.zero_le j) hj
  have hk₀ : k₀ = k := stopIndex_eq hk hnone hlast
  have hearly : early = stopsAt cbs v k := stopsAt_stopIndex_iff hk hnone hlast
  have hflag := returnEarly_beforeView hfresh hk hnone
  rw [Nat.sub_zero, ← List.range_eq_range', List.nil_append] at htrace
  have hout := handleHookedMethod_eq_finish hnative method id info hlen thisObject args w _ rfl
  generalize beforeLoop cbs 0 (Nat.pos_of_ne_zero hlen) { param := v.param, world := w } = e
    at hidx hview htrace hout
  have hreturn : e.activation.param.returnEarly = early := by
    rw [hearly, ← hflag, ← hview]; rfl
  have hinner : inner = e.activation.view := by
    change beforeView cbs v (k₀ + 1) = _
    rw [hk₀, hview]
  have hs : ∃ s : Activation Ref World, out = finish cbs (e.beforeIdx - 1) e.afterIdx_lt s ∧
      s.view = turned ∧ Settled s.param ∧
      s.trace = (List.range (k + 1)).map (fun i => Event.before i (beforeView cbs v i)) ++
        (if early then [] else [Event.original inner.param.thisObject inner.param.args inner.world]) := by
    refine ⟨_, hout, ?_⟩
    change _ = (if early then inner else leftByOriginal native method id info inner) ∧ _
    rw [hinner, hreturn, ← htrace]
    rcases hstop : early with _ | _
    · -- nobody asked to return early, and the original was invoked
      exact ⟨rfl, settled_leftByOriginal hnative method id info e.activation.view, rfl⟩
    · -- callback `k` did, and its setter call settled the object
      have hsettled : Settled (beforeView cbs v (k + 1)).param := by
        rw [beforeView_succ hk]
        refine settled_leftByBefore ?_
        rw [← stopsAt_of_lt hk, ← hearly, hstop]
      rw [← hview] at hsettled
      exact ⟨rfl, hsettled, (List.append_nil _).symm⟩
  obtain ⟨s, houts, hturned, hsettled, hstrace⟩ := hs
  obtain ⟨houtcome, hworld, hrest⟩ := finish_spec (show e.beforeIdx - 1 = k by omega)
    e.afterIdx_lt hsettled
  rw [hk₀, houts, ← hturned]
  exact ⟨hk, by rw [hrest, hstrace], houtcome, hworld⟩

/-- Sets a result and throws, before and after. -/
def throwingHook : MethodHook ℕ ℕ where
  beforeHookedMethod v := { ops := [.setResult (some 90)], thrown := some 91, world := v.world + 1 }
  afterHookedMethod v := { ops := [.setThrowable (some 92)], thrown := some 93, world := v.world }

/-- Answers `7` in place of the original. -/
def answeringHook : MethodHook ℕ ℕ where
  beforeHookedMethod v := { ops := [.setResult (some 7)], world := v.world }

/-- An original method that throws `50`. -/
def throwingOriginal : InvokeOriginal ℕ ℕ := fun w _ _ _ _ _ _ => (.targetException 50, w)

theorem reportsThrows_throwingOriginal : ReportsThrows throwingOriginal := by
  intro w method id parameterTypes returnType thisObject args e h
  cases h

/-- A throwing callback in front of one that returns early: the first is
ignored, the third is not entered, and the original is not invoked. -/
theorem handleHookedMethod_runs_early :
    (handleHookedMethod false throwingOriginal none 0
        { callbacks := [throwingHook, answeringHook, throwingHook] } (some 1) (some 2) 0).outcome =
      .returns (some 7) :=
  (handleHookedMethod_runs reportsThrows_throwingOriginal none 0
    { callbacks := [throwingHook, answeringHook, throwingHook] } (by simp) (some 1) (some 2)
    0).2.2.1.trans (by decide)

end Bridge

end Dynamicloader
