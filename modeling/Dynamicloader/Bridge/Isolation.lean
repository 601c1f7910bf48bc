import Dynamicloader.Bridge.Handle
import Dynamicloader.Common.Layers
/-!
# Bridge — a faulty callback does not show

The handler is a nesting: its two loops around the original compute
`Layer.around` (`handleHookedMethod_eq_around`), and so does the fast path,
around no layer at all. Over the nesting, failure isolation is a two-run
law. Run the list with a callback that throws from both its steps, and the
list without it: every other callback is shown the same parameter object,
the original is invoked as often and with the same arguments, and the
answers agree (`handleHookedMethod_isolates`).

What the faulty callback does outside the parameter object is compared by a
relation `R` on worlds, the part of the heap the others can see. It must
not leave a trace there; equality is one choice of `R`.
-/

namespace Dynamicloader

namespace Bridge

variable {Ref World : Type}

/-! ## The handler as a nesting -/

/-- Callback `i` as a layer. -/
def layer (i : ℕ) (cb : MethodHook Ref World) : Layer (Activation Ref World) where
  enter s := ((runBefore cb i s).1, !(runBefore cb i s).2 && (runBefore cb i s).1.param.returnEarly)
  leave s := runAfter cb i s

/-- A list of callbacks as layers, numbered from `i`. -/
def layersFrom : ℕ → List (MethodHook Ref World) → List (Layer (Activation Ref World))
  | _, [] => []
  | i, cb :: cbs => layer i cb :: layersFrom (i + 1) cbs

theorem layersFrom_append (i : ℕ) (xs ys : List (MethodHook Ref World)) :
    layersFrom i (xs ++ ys) = layersFrom i xs ++ layersFrom (i + xs.length) ys := by
  induction xs generalizing i with
  | nil => simp [layersFrom]
  | cons x xs ih =>
    simp only [List.cons_append, layersFrom, ih, List.length_cons]
    rw [show i + 1 + xs.length = i + (xs.length + 1) by omega]

/-- The after-steps of the first `n` callbacks, last one first. -/
def unwind (cbs : List (MethodHook Ref World)) :
    ℕ → Activation Ref World → Activation Ref World
  | 0, s => s
  | n + 1, s => unwind cbs n ((cbs[n]?).elim s fun cb => runAfter cb n s)

theorem unwind_succ {cbs : List (MethodHook Ref World)} {i : ℕ} (h : i < cbs.length)
    (s : Activation Ref World) :
    unwind cbs (i + 1) s = unwind cbs i (runAfter (cbs.get ⟨i, h⟩) i s) := by
  simp [unwind, h]

theorem afterLoop_eq_unwind (cbs : List (MethodHook Ref World)) (i : ℕ) (h : i < cbs.length)
    (s : Activation Ref World) : afterLoop cbs i h s = unwind cbs (i + 1) s := by
  induction i generalizing s with
  | zero => rw [afterLoop, unwind_succ h, unwind]
  | succ i ih => rw [afterLoop, ih, unwind_succ h]

variable {cbs : List (MethodHook Ref World)}

/-- The layers from an index inside the list on. -/
theorem layersFrom_drop {i : ℕ} (h : i < cbs.length) :
    layersFrom i (cbs.drop i) =
      layer i (cbs.get ⟨i, h⟩) :: layersFrom (i + 1) (cbs.drop (i + 1)) := by
  rw [List.drop_eq_getElem_cons h]; rfl

/-- **Entering from `i` on, turning around and leaving down to `i` is the
nesting of the layers from `i` on.** The loop leaves by its `break` with the
flag up and by its condition with the flag down, which is what the handler
then tests. -/
theorem unwind_beforeLoop (core : Activation Ref World → Activation Ref World) (i : ℕ)
    (h : i < cbs.length) (s : Activation Ref World) (hs : Fresh s.param) :
    unwind cbs (beforeLoop cbs i h s).beforeIdx
        (if (beforeLoop cbs i h s).activation.param.returnEarly then
          (beforeLoop cbs i h s).activation else core (beforeLoop cbs i h s).activation) =
      unwind cbs i (Layer.around core (layersFrom i (cbs.drop i)) s) := by
  have hstop := runBefore_stops (cbs.get ⟨i, h⟩) i hs
  have hview := runBefore_view (cbs.get ⟨i, h⟩) i s
  rw [layersFrom_drop h, Layer.around_cons, beforeLoop]
  simp only [layer, hstop]
  by_cases hreq : (cbs.get ⟨i, h⟩).requestsReturn s.view = true
  · have hflag : (runBefore (cbs.get ⟨i, h⟩) i s).1.param.returnEarly = true := by
      have := (settled_leftByBefore hreq).returnEarly
      rw [← hview] at this
      exact this
    simp only [hreq, if_true, hflag, unwind_succ h]
  · have hfresh : Fresh (runBefore (cbs.get ⟨i, h⟩) i s).1.param := by
      have : Fresh ((cbs.get ⟨i, h⟩).leftByBefore s.view).param :=
        fresh_leftByBefore hs (by simpa using hreq)
      rw [← hview] at this
      exact this
    simp only [hreq, Bool.false_eq_true, if_false]
    by_cases h' : i + 1 < cbs.length
    · simp only [dif_pos h']
      rw [unwind_beforeLoop core (i + 1) h' _ hfresh, unwind_succ h]
    · have hdrop : cbs.drop (i + 1) = [] := List.drop_eq_nil_of_le (by omega)
      simp only [dif_neg h', hdrop, layersFrom, Layer.around_nil, hfresh.returnEarly,
        unwind_succ h, Bool.false_eq_true, if_false]
  termination_by cbs.length - i

/-- The locals the handler starts from. -/
def startOf (method thisObject args : Option Ref) (w : World) : Activation Ref World :=
  { param := { method := method, thisObject := thisObject, args := args }, world := w }

/-- What a call leaves, read off the activation it ends in. -/
def handledOf (s : Activation Ref World) : Handled Ref World :=
  { outcome := outcomeOf s.param, world := s.world, trace := s.trace, log := s.log }

/-- **The handler is the nesting of its callbacks around the original.** For
no callbacks this is the fast path. -/
theorem handleHookedMethod_eq_around {native : InvokeOriginal Ref World}
    (hnative : ReportsThrows native) (method : Option Ref) (id : Int32)
    (info : AdditionalHookInfo Ref World) (thisObject args : Option Ref) (w : World) :
    handleHookedMethod false native method id info thisObject args w =
      handledOf (Layer.around (invokeOriginal native method id info)
        (layersFrom 0 info.callbacks) (startOf method thisObject args w)) := by
  by_cases hlen : info.callbacks.length = 0
  · rw [handleHookedMethod, if_neg Bool.false_ne_true, dif_pos hlen,
      List.length_eq_zero_iff.mp hlen]
    simp only [layersFrom, Layer.around_nil, invokeDirectly, handledOf, invokeOriginal,
      leftByOriginal, startOf, Activation.view, outcomeOf]
    rcases hr : (native w method id info.parameterTypes info.returnType thisObject args).1 with
      x | cause | e
    · simp [MethodHookParam.setResult]
    · simp [MethodHookParam.setThrowable]
    · exact absurd hr (hnative _ _ _ _ _ _ _ e)
  · have hfresh : Fresh (startOf method thisObject args w : Activation Ref World).param :=
      ⟨rfl, rfl, rfl⟩
    have hnest := unwind_beforeLoop (invokeOriginal native method id info) 0
      (Nat.pos_of_ne_zero hlen) (startOf method thisObject args w) hfresh
    rw [List.drop_zero] at hnest
    rw [handleHookedMethod_eq_finish hnative method id info hlen thisObject args w _ rfl, finish]
    simp only [afterLoop_eq_unwind]
    rw [Nat.sub_add_cancel (Entered.pos _)]
    change handledOf (unwind _ _ _) = _
    rw [show ({ param := { method := method, thisObject := thisObject, args := args }, world := w } :
      Activation Ref World) = startOf method thisObject args w from rfl, hnest]
    rfl

/-! ## The two runs -/

variable {R : World → World → Prop}

/-- **A callback that cannot see past `R`**: shown the same parameter
object in related worlds it makes the same calls, ends the same way and
leaves related worlds. -/
structure MethodHook.Blind (R : World → World → Prop) (cb : MethodHook Ref World) : Prop where
  before_ops : ∀ p w w', R w w' →
    (cb.beforeHookedMethod ⟨p, w⟩).ops = (cb.beforeHookedMethod ⟨p, w'⟩).ops
  before_thrown : ∀ p w w', R w w' →
    (cb.beforeHookedMethod ⟨p, w⟩).thrown = (cb.beforeHookedMethod ⟨p, w'⟩).thrown
  before_world : ∀ p w w', R w w' →
    R (cb.beforeHookedMethod ⟨p, w⟩).world (cb.beforeHookedMethod ⟨p, w'⟩).world
  after_ops : ∀ p w w', R w w' →
    (cb.afterHookedMethod ⟨p, w⟩).ops = (cb.afterHookedMethod ⟨p, w'⟩).ops
  after_thrown : ∀ p w w', R w w' →
    (cb.afterHookedMethod ⟨p, w⟩).thrown = (cb.afterHookedMethod ⟨p, w'⟩).thrown
  after_world : ∀ p w w', R w w' →
    R (cb.afterHookedMethod ⟨p, w⟩).world (cb.afterHookedMethod ⟨p, w'⟩).world

/-- And an original method that cannot. -/
structure BlindOriginal (R : World → World → Prop) (native : InvokeOriginal Ref World) : Prop where
  ends : ∀ w w' m id pt rt o a, R w w' → (native w m id pt rt o a).1 = (native w' m id pt rt o a).1
  world : ∀ w w' m id pt rt o a, R w w' → R (native w m id pt rt o a).2 (native w' m id pt rt o a).2

/-- **A faulty callback.** It throws from both its steps; of the parameter
object it touches no more than the result and the throwable, and nothing
that `R` shows to the others. -/
structure MethodHook.Faulty (R : World → World → Prop) (cb : MethodHook Ref World) : Prop where
  before_throws : ∀ v, (cb.beforeHookedMethod v).thrown ≠ none
  before_sets : ∀ v, ∀ op ∈ (cb.beforeHookedMethod v).ops, op.sets = true
  before_world : ∀ v w', R v.world w' → R (cb.beforeHookedMethod v).world w'
  after_throws : ∀ v, (cb.afterHookedMethod v).thrown ≠ none
  after_sets : ∀ v, ∀ op ∈ (cb.afterHookedMethod v).ops, op.sets = true
  after_world : ∀ v w', R v.world w' → R (cb.afterHookedMethod v).world w'

/-- The event in a run of the list without callback `n`: nothing for an
event of `n` itself, and the callbacks after it move down by one. -/
def Event.without (n : ℕ) : Event Ref World → Option (Event Ref World)
  | .before i v => if i = n then none else some (.before (if i < n then i else i - 1) v)
  | .original o a w => some (.original o a w)
  | .after i v => if i = n then none else some (.after (if i < n then i else i - 1) v)

/-- Two events that show the same: the same step of the same callback on
the same parameter object, or the original on the same receiver and
arguments, in related worlds. -/
inductive Event.Agree (R : World → World → Prop) : Event Ref World → Event Ref World → Prop
  | before {i : ℕ} {p : MethodHookParam Ref} {w w' : World} (h : R w w') :
      Event.Agree R (.before i ⟨p, w⟩) (.before i ⟨p, w'⟩)
  | original {o a : Option Ref} {w w' : World} (h : R w w') :
      Event.Agree R (.original o a w) (.original o a w')
  | after {i : ℕ} {p : MethodHookParam Ref} {w w' : World} (h : R w w') :
      Event.Agree R (.after i ⟨p, w⟩) (.after i ⟨p, w'⟩)

/-- What the two runs share at every point: the parameter object, what can
be seen of the world, and the trace but for callback `n`. -/
structure Same (R : World → World → Prop) (n : ℕ) (s t : Activation Ref World) : Prop where
  param : s.param = t.param
  world : R s.world t.world
  trace : List.Forall₂ (Event.Agree R) (s.trace.filterMap (Event.without n)) t.trace

/-- On the way in. -/
def SameFresh (R : World → World → Prop) (n : ℕ) (s t : Activation Ref World) : Prop :=
  Same R n s t ∧ Fresh s.param

/-- On the way out. -/
def SameSettled (R : World → World → Prop) (n : ℕ) (s t : Activation Ref World) : Prop :=
  Same R n s t ∧ Settled s.param

/-- One more pair of agreeing events. -/
theorem forall₂_filterMap_append {n : ℕ} {l l' : List (Event Ref World)} {e f : Event Ref World}
    (h : List.Forall₂ (Event.Agree R) (l.filterMap (Event.without n)) l')
    (e' : Event Ref World) (he : Event.without n e = some e') (hef : Event.Agree R e' f) :
    List.Forall₂ (Event.Agree R) ((l ++ [e]).filterMap (Event.without n)) (l' ++ [f]) := by
  rw [List.filterMap_append]
  refine List.rel_append h ?_
  simp only [List.filterMap_cons, he, List.filterMap_nil]
  exact List.Forall₂.cons hef List.Forall₂.nil

/-- One more event of the callback the other run does not have. -/
theorem forall₂_filterMap_skip {n : ℕ} {l l' : List (Event Ref World)} {e : Event Ref World}
    (h : List.Forall₂ (Event.Agree R) (l.filterMap (Event.without n)) l')
    (he : Event.without n e = none) :
    List.Forall₂ (Event.Agree R) ((l ++ [e]).filterMap (Event.without n)) l' := by
  rw [List.filterMap_append, List.filterMap_cons, he, List.filterMap_nil, List.append_nil]
  exact h

theorem Same.view_eq {n : ℕ} {s t : Activation Ref World} (h : Same R n s t) :
    t.view = ⟨s.param, t.world⟩ := by
  rw [h.param]; rfl

/-- The same callback, not the one that is missing, in both runs. -/
theorem runBefore_same {n i j : ℕ} (hi : i ≠ n) (hj : j = if i < n then i else i - 1)
    {cb : MethodHook Ref World} (hcb : cb.Blind R) {s t : Activation Ref World}
    (h : Same R n s t) :
    (runBefore cb i s).2 = (runBefore cb j t).2 ∧
      Same R n (runBefore cb i s).1 (runBefore cb j t).1 := by
  have hops := hcb.before_ops s.param _ _ h.world
  have hthrown := hcb.before_thrown s.param _ _ h.world
  have hworld := hcb.before_world s.param _ _ h.world
  have htrace : List.Forall₂ (Event.Agree R)
      ((s.trace ++ [Event.before i s.view]).filterMap (Event.without n))
      (t.trace ++ [Event.before j t.view]) := by
    refine forall₂_filterMap_append h.trace (Event.before j s.view) ?_ ?_
    · simp only [Event.without, if_neg hi, hj]
    · rw [h.view_eq]; exact Event.Agree.before h.world
  unfold runBefore
  simp only [Activation.view, ← hops, ← hthrown, ← h.param, Step.paramFrom] at htrace ⊢
  rcases (cb.beforeHookedMethod ⟨s.param, s.world⟩).thrown with _ | e
  · exact ⟨rfl, rfl, hworld, htrace⟩
  · exact ⟨rfl, rfl, hworld, htrace⟩

theorem runAfter_same {n i j : ℕ} (hi : i ≠ n) (hj : j = if i < n then i else i - 1)
    {cb : MethodHook Ref World} (hcb : cb.Blind R) {s t : Activation Ref World}
    (h : Same R n s t) : Same R n (runAfter cb i s) (runAfter cb j t) := by
  have hops := hcb.after_ops s.param _ _ h.world
  have hthrown := hcb.after_thrown s.param _ _ h.world
  have hworld := hcb.after_world s.param _ _ h.world
  have htrace : List.Forall₂ (Event.Agree R)
      ((s.trace ++ [Event.after i s.view]).filterMap (Event.without n))
      (t.trace ++ [Event.after j t.view]) := by
    refine forall₂_filterMap_append h.trace (Event.after j s.view) ?_ ?_
    · simp only [Event.without, if_neg hi, hj]
    · rw [h.view_eq]; exact Event.Agree.after h.world
  unfold runAfter
  simp only [Activation.view, ← hops, ← hthrown, ← h.param, Step.paramFrom] at htrace ⊢
  rcases (cb.afterHookedMethod ⟨s.param, s.world⟩).thrown with _ | e
  · exact ⟨rfl, hworld, htrace⟩
  · exact ⟨rfl, hworld, htrace⟩

/-- The flag and the exclusion hold of the activation a step leaves. -/
theorem settled_runAfter (cb : MethodHook Ref World) (i : ℕ) {s : Activation Ref World}
    (hs : Settled s.param) : Settled (runAfter cb i s).param := by
  have h := settled_leftByAfter cb (v := s.view) hs
  rw [← runAfter_view cb i hs] at h
  exact h

/-- **A blind callback is a pair of related layers.** -/
theorem related_layer {n i j : ℕ} (hi : i ≠ n) (hj : j = if i < n then i else i - 1)
    {cb : MethodHook Ref World} (hcb : cb.Blind R) :
    Layer.Related (SameFresh R n) (SameSettled R n) (layer i cb) (layer j cb) where
  stops s t h := by
    obtain ⟨hthrew, hsame⟩ := runBefore_same hi hj hcb h.1
    simp only [layer, hthrew, hsame.param]
  deeper s t h hstop := by
    refine ⟨(runBefore_same hi hj hcb h.1).2, ?_⟩
    have hreq : cb.requestsReturn s.view = false := by
      rw [← runBefore_stops cb i h.2]; exact hstop
    have hfresh := fresh_leftByBefore (v := s.view) h.2 hreq
    rw [← runBefore_view cb i s] at hfresh
    exact hfresh
  turned s t h hstop := by
    refine ⟨(runBefore_same hi hj hcb h.1).2, ?_⟩
    have hreq : cb.requestsReturn s.view = true := by
      rw [← runBefore_stops cb i h.2]; exact hstop
    have hsettled := settled_leftByBefore (v := s.view) hreq
    rw [← runBefore_view cb i s] at hsettled
    exact hsettled
  leave s t h := ⟨runAfter_same hi hj hcb h.1, settled_runAfter cb i h.2⟩

/-- Setter calls leave the rest of the object alone. -/
theorem foldl_apply_sets {ops : List (ParamOp Ref)} (h : ∀ op ∈ ops, op.sets = true)
    (p : MethodHookParam Ref) : ∃ r t e,
      ops.foldl ParamOp.apply p = { p with result := r, throwable := t, returnEarly := e } := by
  induction ops generalizing p with
  | nil => exact ⟨p.result, p.throwable, p.returnEarly, rfl⟩
  | cons op ops ih =>
    rw [List.foldl_cons]
    obtain ⟨r, t, e, he⟩ := ih (fun o ho => h o (List.mem_cons_of_mem op ho)) (op.apply p)
    refine ⟨r, t, e, ?_⟩
    rw [he]
    have hop := h op List.mem_cons_self
    rcases op with x | x | x | x | x | x
    · rfl
    · rfl
    all_goals cases hop

/-- **A faulty callback is a layer nobody sees.** On the way in the object
was fresh and is reset to fresh; on the way out the answer is put back. -/
theorem unseen_layer {n : ℕ} {cb : MethodHook Ref World} (hcb : cb.Faulty R) :
    Layer.Unseen (SameFresh R n) (SameSettled R n) (layer n cb) where
  never_stops s t h := by
    change (!(runBefore cb n s).2 && (runBefore cb n s).1.param.returnEarly) = false
    rw [runBefore_stops cb n h.2, MethodHook.requestsReturn]
    have hthrows := hcb.before_throws s.view
    rcases hthrown : (cb.beforeHookedMethod s.view).thrown with _ | e
    · exact absurd hthrown hthrows
    · rfl
  enter s t h := by
    obtain ⟨r, u, e, hops⟩ := foldl_apply_sets (hcb.before_sets s.view) s.param
    have hview := runBefore_view cb n s
    have hparam : (cb.leftByBefore s.view).param = s.param := by
      unfold MethodHook.leftByBefore
      rcases hthrown : (cb.beforeHookedMethod s.view).thrown with _ | x
      · exact absurd hthrown (hcb.before_throws s.view)
      · simp only [hthrown, Option.isSome_some, if_true]
        change ({ (cb.beforeHookedMethod s.view).ops.foldl ParamOp.apply s.param with
          result := none, throwable := none, returnEarly := false } : MethodHookParam Ref) = _
        rw [hops]
        exact h.2.reset_eq
    rw [← hview] at hparam
    have hparam' : (runBefore cb n s).1.param = s.param := hparam
    refine ⟨⟨hparam'.trans h.1.param, ?_, ?_⟩, ?_⟩
    · change R (runBefore cb n s).1.view.world t.world
      rw [hview]
      exact hcb.before_world s.view _ h.1.world
    · change List.Forall₂ _ ((runBefore cb n s).1.trace.filterMap _) _
      rw [runBefore_trace]
      exact forall₂_filterMap_skip h.1.trace (by rw [Event.without, if_pos rfl])
    · change Fresh (runBefore cb n s).1.param
      rw [hparam']; exact h.2
  leave s t h := by
    obtain ⟨r, u, e, hops⟩ := foldl_apply_sets (hcb.after_sets s.view) s.param
    have hview := runAfter_view cb n h.2
    have hparam : (cb.leftByAfter s.view).param = s.param := by
      have hflag := returnEarly_foldl_apply (cb.afterHookedMethod s.view).ops s.param
      rw [h.2.returnEarly, Bool.true_or, hops] at hflag
      unfold MethodHook.leftByAfter
      rcases hthrown : (cb.afterHookedMethod s.view).thrown with _ | x
      · exact absurd hthrown (hcb.after_throws s.view)
      · simp only [hthrown, Option.isSome_some, if_true]
        change ({ (cb.afterHookedMethod s.view).ops.foldl ParamOp.apply s.param with
          result := s.param.result, throwable := s.param.throwable } : MethodHookParam Ref) = _
        have hflag' : e = s.param.returnEarly := hflag.trans h.2.returnEarly.symm
        rw [hops, hflag']
    rw [← hview] at hparam
    have hparam' : (runAfter cb n s).param = s.param := hparam
    refine ⟨⟨hparam'.trans h.1.param, ?_, ?_⟩, settled_runAfter cb n h.2⟩
    · change R (runAfter cb n s).view.world t.world
      rw [hview]
      exact hcb.after_world s.view _ h.1.world
    · change List.Forall₂ _ ((runAfter cb n s).trace.filterMap _) _
      rw [runAfter_trace]
      exact forall₂_filterMap_skip h.1.trace (by rw [Event.without, if_pos rfl])

/-- The original settles both runs alike. -/
theorem invokeOriginal_same {n : ℕ} {native : InvokeOriginal Ref World}
    (hnative : ReportsThrows native) (hblind : BlindOriginal R native) (method : Option Ref)
    (id : Int32) (info info' : AdditionalHookInfo Ref World)
    (hpt : info.parameterTypes = info'.parameterTypes) (hrt : info.returnType = info'.returnType)
    (s t : Activation Ref World) (h : SameFresh R n s t) :
    SameSettled R n (invokeOriginal native method id info s)
      (invokeOriginal native method id info' t) := by
  have hsettled : Settled (invokeOriginal native method id info s).param :=
    settled_leftByOriginal hnative method id info s.view
  refine ⟨⟨?_, ?_, ?_⟩, hsettled⟩
  · simp only [invokeOriginal, leftByOriginal, Activation.view, ← hpt, ← hrt, ← h.1.param]
    rw [hblind.ends _ _ _ _ _ _ _ _ h.1.world]
  · simp only [invokeOriginal, leftByOriginal, Activation.view, ← hpt, ← hrt, ← h.1.param]
    exact hblind.world _ _ _ _ _ _ _ _ h.1.world
  · refine forall₂_filterMap_append h.1.trace _ rfl ?_
    rw [h.1.param]
    exact Event.Agree.original h.1.world

/-- Blind callbacks before the missing one keep their numbers. -/
theorem related_layersFrom_lt {n : ℕ} (xs : List (MethodHook Ref World))
    (hxs : ∀ cb ∈ xs, cb.Blind R) (i : ℕ) (hi : i + xs.length ≤ n) :
    List.Forall₂ (Layer.Related (SameFresh R n) (SameSettled R n)) (layersFrom i xs)
      (layersFrom i xs) := by
  induction xs generalizing i with
  | nil => exact List.Forall₂.nil
  | cons x xs ih =>
    rw [List.length_cons] at hi
    refine List.Forall₂.cons ?_ (ih (fun cb hcb => hxs cb (List.mem_cons_of_mem x hcb)) (i + 1)
      (by omega))
    exact related_layer (by omega) (by rw [if_pos (by omega)]) (hxs x List.mem_cons_self)

/-- And those after it move down by one. -/
theorem related_layersFrom_ge {n : ℕ} (ys : List (MethodHook Ref World))
    (hys : ∀ cb ∈ ys, cb.Blind R) (i : ℕ) (hi : n ≤ i) :
    List.Forall₂ (Layer.Related (SameFresh R n) (SameSettled R n)) (layersFrom (i + 1) ys)
      (layersFrom i ys) := by
  induction ys generalizing i with
  | nil => exact List.Forall₂.nil
  | cons y ys ih =>
    refine List.Forall₂.cons ?_ (ih (fun cb hcb => hys cb (List.mem_cons_of_mem y hcb)) (i + 1)
      (by omega))
    refine related_layer (by omega) ?_ (hys y List.mem_cons_self)
    rw [if_neg (by omega)]
    omega

/-- **Failure isolation.** Take a callback that throws from both its steps
and changes nothing else the others can see. The handler answers the same
with it and without it, and but for its own steps the two runs show the
same: every other callback the same parameter object at each of its steps,
the original the same receiver and arguments, as often. Without it the list
may be empty, and the call takes the fast path. -/
theorem handleHookedMethod_isolates {native : InvokeOriginal Ref World}
    (hnative : ReportsThrows native) (hblind : BlindOriginal R native)
    {h : MethodHook Ref World} (hh : h.Faulty R) (xs ys : List (MethodHook Ref World))
    (hxs : ∀ cb ∈ xs, cb.Blind R) (hys : ∀ cb ∈ ys, cb.Blind R)
    (method : Option Ref) (id : Int32) (parameterTypes returnType thisObject args : Option Ref)
    {w w' : World} (hw : R w w') :
    let out := handleHookedMethod false native method id
      ⟨xs ++ [h] ++ ys, parameterTypes, returnType⟩ thisObject args w
    let out' := handleHookedMethod false native method id
      ⟨xs ++ ys, parameterTypes, returnType⟩ thisObject args w'
    out.outcome = out'.outcome ∧ R out.world out'.world ∧
      List.Forall₂ (Event.Agree R) (out.trace.filterMap (Event.without xs.length)) out'.trace := by
  intro out out'
  have hstart : SameFresh R xs.length (startOf method thisObject args w)
      (startOf method thisObject args w') :=
    ⟨⟨rfl, hw, List.Forall₂.nil⟩, rfl, rfl, rfl⟩
  have hfirst := related_layersFrom_lt (n := xs.length) xs hxs 0 (by omega)
  have hrest := related_layersFrom_ge (n := xs.length) ys hys xs.length (Nat.le_refl _)
  have hsame := Layer.around_related_insert
    (invokeOriginal_same hnative hblind method id ⟨xs ++ [h] ++ ys, parameterTypes, returnType⟩
      ⟨xs ++ ys, parameterTypes, returnType⟩ rfl rfl)
    (unseen_layer hh) hfirst hrest _ _ hstart
  have hlayers : layersFrom 0 (xs ++ [h] ++ ys) =
      layersFrom 0 xs ++ layer xs.length h :: layersFrom (xs.length + 1) ys := by
    rw [List.append_assoc, layersFrom_append, Nat.zero_add, List.singleton_append]
    rfl
  have hlayers' : layersFrom 0 (xs ++ ys) = layersFrom 0 xs ++ layersFrom xs.length ys := by
    rw [layersFrom_append, Nat.zero_add]
  rw [← hlayers, ← hlayers'] at hsame
  have hout : out = _ := handleHookedMethod_eq_around hnative method id _ thisObject args w
  have hout' : out' = _ := handleHookedMethod_eq_around hnative method id _ thisObject args w'
  rw [hout, hout']
  refine ⟨?_, hsame.1.world, hsame.1.trace⟩
  simp only [handledOf]
  rw [hsame.1.param]

/-- `throwingHook` counts its calls in a world nobody else reads. -/
theorem faulty_throwingHook : throwingHook.Faulty fun _ _ => True where
  before_throws _ := by simp [throwingHook]
  before_sets _ := by simp [throwingHook, ParamOp.sets]
  before_world _ _ _ := trivial
  after_throws _ := by simp [throwingHook]
  after_sets _ := by simp [throwingHook, ParamOp.sets]
  after_world _ _ _ := trivial

/-- It does the same in any world. -/
theorem blind_throwingHook : throwingHook.Blind fun _ _ => True :=
  ⟨fun _ _ _ _ => rfl, fun _ _ _ _ => rfl, fun _ _ _ _ => trivial, fun _ _ _ _ => rfl,
    fun _ _ _ _ => rfl, fun _ _ _ _ => trivial⟩

theorem blind_answeringHook : answeringHook.Blind fun _ _ => True :=
  ⟨fun _ _ _ _ => rfl, fun _ _ _ _ => rfl, fun _ _ _ _ => trivial, fun _ _ _ _ => rfl,
    fun _ _ _ _ => rfl, fun _ _ _ _ => trivial⟩

/-- Between a callback and one that answers `7`, the faulty callback is
entered and left, and the answer is the one without it. -/
theorem handleHookedMethod_isolates_between :
    (handleHookedMethod false throwingOriginal none 0
        ⟨[throwingHook] ++ [throwingHook] ++ [answeringHook], none, none⟩ (some 1) (some 2)
        0).outcome =
      (handleHookedMethod false throwingOriginal none 0
        ⟨[throwingHook] ++ [answeringHook], none, none⟩ (some 1) (some 2) 0).outcome ∧
    (handleHookedMethod false throwingOriginal none 0
        ⟨[throwingHook] ++ [answeringHook], none, none⟩ (some 1) (some 2) 0).outcome =
      .returns (some 7) :=
  ⟨(handleHookedMethod_isolates (R := fun _ _ => True) reportsThrows_throwingOriginal
    ⟨fun _ _ _ _ _ _ _ _ _ => rfl, fun _ _ _ _ _ _ _ _ _ => trivial⟩
    faulty_throwingHook [throwingHook] [answeringHook]
    (List.forall_mem_singleton.mpr blind_throwingHook)
    (List.forall_mem_singleton.mpr blind_answeringHook) none 0 none none (some 1) (some 2)
    trivial).1, by rw [handleHookedMethod_eq_around reportsThrows_throwingOriginal]; rfl⟩

end Bridge

end Dynamicloader
