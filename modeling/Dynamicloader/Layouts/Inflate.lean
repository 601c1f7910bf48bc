import Dynamicloader.Layouts.Unhook
/-!
# BridgeResources — telling the callbacks of a layout

`init` hooks two methods of `LayoutInflater`. The hook of `inflate` finds what
`getLayout` attached to its parser. `parseInclude` has no parser of its own
in its arguments: its before-hook pushes its parameter object on a stack of
the thread, `getLayout` leaves what it attaches in the object on top as well,
and the after-hook takes it from there.

A trace is what a thread calls, by nesting: `inflate` loads its layout and
then inflates it, `parseInclude` does both itself. The hooks run against the
objects of the source. What they come to is said without them by `returned`:
an include is told the last hooked layout that was loaded while it was on
top, be it its own or one that a view inside it inflated.
-/

namespace Dynamicloader

namespace Layouts

open Resources (JInt Res)
open Bridge (ArraySort CopyOnWriteSortedSet)

/-- What `getLayout` is asked for, and the file name that the object has for
the id. -/
structure Layout where
  res : Res
  id : JInt
  value : Option String := none

/-- The hooked methods of `LayoutInflater`. -/
inductive Method where
  | inflate
  | parseInclude
  deriving DecidableEq

/-- **A well-nested trace**: a call with the calls made inside it, whether it
throws in the end, and what comes next. -/
inductive Trace where
  | done
  | call (method : Method) (layout : Layout) (inner : Trace) (throws : Bool) (next : Trace)

/-- The objects of a thread, by the order in which they are made: parameter
objects with what `EXTRA_XML_INSTANCE_DETAILS` holds, and parsers with their
entry in `sXmlInstanceDetails`. -/
structure Thread (Cb : Type) where
  params : ℕ := 0
  extra : ℕ → Option (XMLInstanceDetails Cb) := fun _ => none
  sIncludedLayouts : List ℕ := []
  parsers : ℕ := 0
  sXmlInstanceDetails : ℕ → Option (XMLInstanceDetails Cb) := fun _ => none

/-- A call that has returned, and what its after-hook found for the layout. -/
structure Returned (Cb : Type) where
  method : Method
  layout : Layout
  details : Option (XMLInstanceDetails Cb)

variable {Cb : Type}

/-- The callbacks that `callAll` runs. -/
def Returned.callbacks (r : Returned Cb) : List Cb :=
  match r.details with
  | none => []
  | some details => details.callbacks

/-- What `getLayout` attaches to a layout. -/
def details (s : State Cb) (l : Layout) : Option (XMLInstanceDetails Cb) :=
  getLayout l.res l.id l.value s

namespace Thread

/-- `getLayout`, with the parser it returns. -/
def getLayout (s : State Cb) (l : Layout) (t : Thread Cb) : ℕ × Thread Cb :=
  let result := t.parsers
  let t := { t with parsers := result + 1 }
  match details s l with
  | none => (result, t)
  | some details =>
    let t := { t with
      sXmlInstanceDetails := Function.update t.sXmlInstanceDetails result (some details) }
    -- if we were called inside LayoutInflater.parseInclude, store the details for it
    match t.sIncludedLayouts with
    | [] => (result, t)
    | top :: _ => (result, { t with extra := Function.update t.extra top (some details) })

/-- The before-hook of `parseInclude`, with its parameter object. -/
def beforeInclude (t : Thread Cb) : ℕ × Thread Cb :=
  (t.params, { t with params := t.params + 1, sIncludedLayouts := t.params :: t.sIncludedLayouts })

/-- The after-hook of `parseInclude`. -/
def afterInclude (param : ℕ) (l : Layout) (throws : Bool) (t : Thread Cb) :
    Thread Cb × List (Returned Cb) :=
  let t := { t with sIncludedLayouts := t.sIncludedLayouts.tail }
  (t, if throws then [] else [⟨.parseInclude, l, t.extra param⟩])

/-- The after-hook of `inflate`. -/
def afterInflate (parser : ℕ) (l : Layout) (throws : Bool) (t : Thread Cb) : List (Returned Cb) :=
  if throws then [] else [⟨.inflate, l, t.sXmlInstanceDetails parser⟩]

/-- **A trace is run**, and what its calls have told when they returned. -/
def run (s : State Cb) : Trace → Thread Cb → Thread Cb × List (Returned Cb)
  | .done, t => (t, [])
  | .call .inflate l inner throws next, t =>
    let (parser, t) := t.getLayout s l
    let (t, told) := run s inner t
    let after := t.afterInflate parser l throws
    let (t, rest) := run s next t
    (t, told ++ after ++ rest)
  | .call .parseInclude l inner throws next, t =>
    let (param, t) := t.beforeInclude
    let (_, t) := t.getLayout s l
    let (t, told) := run s inner t
    let (t, after) := t.afterInclude param l throws
    let (t, rest) := run s next t
    (t, told ++ after ++ rest)

end Thread

/-! ## The same without a stack -/

/-- The layouts loaded by a trace while the include around it, if any, is on
top: those that are inflated, to any depth, outside of a further include. -/
def Trace.loads : Trace → List Layout
  | .done => []
  | .call .inflate l inner _ next => l :: (inner.loads ++ next.loads)
  | .call .parseInclude _ _ _ next => next.loads

/-- What is attached to the last of the layouts to which something is. -/
def lastDetails (s : State Cb) (ls : List Layout) : Option (XMLInstanceDetails Cb) :=
  ls.foldl (fun found l => (details s l).or found) none

/-- **What the calls of a trace have told.** -/
def Trace.returned (s : State Cb) : Trace → List (Returned Cb)
  | .done => []
  | .call .inflate l inner throws next =>
    inner.returned s ++ (if throws then [] else [⟨.inflate, l, details s l⟩]) ++ next.returned s
  | .call .parseInclude l inner throws next =>
    inner.returned s ++
      (if throws then [] else [⟨.parseInclude, l, lastDetails s (l :: inner.loads)⟩]) ++
      next.returned s

theorem foldl_details (s : State Cb) (ls : List Layout) (found : Option (XMLInstanceDetails Cb)) :
    ls.foldl (fun found l => (details s l).or found) found = (lastDetails s ls).or found := by
  induction ls generalizing found with
  | nil => rfl
  | cons l ls ih =>
    rw [lastDetails, List.foldl_cons, List.foldl_cons, ih, ih, Option.or_assoc, Option.or_none]

theorem lastDetails_append (s : State Cb) (ls ls' : List Layout) :
    lastDetails s (ls ++ ls') = (lastDetails s ls').or (lastDetails s ls) := by
  rw [lastDetails, List.foldl_append, foldl_details]
  rfl

/-- What a thread keeps: only objects that were made are on the stack, and a
new object holds nothing. -/
structure Thread.Ok (t : Thread Cb) : Prop where
  made : ∀ p ∈ t.sIncludedLayouts, p < t.params
  newParam : ∀ p, t.params ≤ p → t.extra p = none
  newParser : ∀ q, t.parsers ≤ q → t.sXmlInstanceDetails q = none

/-- **What running changes for those around it**: the object on top holds what
was loaded last, if anything hooked was; all else that was there stays. -/
structure Thread.Frame (s : State Cb) (ls : List Layout) (t t' : Thread Cb) : Prop where
  ok : t'.Ok
  stack : t'.sIncludedLayouts = t.sIncludedLayouts
  params : t.params ≤ t'.params
  parsers : t.parsers ≤ t'.parsers
  attached : ∀ q < t.parsers, t'.sXmlInstanceDetails q = t.sXmlInstanceDetails q
  extra : ∀ p < t.params, t'.extra p =
    if t.sIncludedLayouts.head? = some p then (lastDetails s ls).or (t.extra p) else t.extra p

namespace Thread

variable {s : State Cb} {t t' t'' : Thread Cb} {ls ls' : List Layout} {l : Layout}

theorem ok_new : ({} : Thread Cb).Ok := ⟨by simp, fun _ _ => rfl, fun _ _ => rfl⟩

theorem Frame.refl (ht : t.Ok) : Frame s [] t t where
  ok := ht
  stack := rfl
  params := Nat.le_refl _
  parsers := Nat.le_refl _
  attached _ _ := rfl
  extra _ _ := (ite_self _).symm

theorem Frame.trans (h : Frame s ls t t') (h' : Frame s ls' t' t'') :
    Frame s (ls ++ ls') t t'' where
  ok := h'.ok
  stack := h'.stack.trans h.stack
  params := Nat.le_trans h.params h'.params
  parsers := Nat.le_trans h.parsers h'.parsers
  attached q hq := (h'.attached q (Nat.lt_of_lt_of_le hq h.parsers)).trans (h.attached q hq)
  extra p hp := by
    rw [h'.extra p (Nat.lt_of_lt_of_le hp h.params), h.extra p hp, h.stack, lastDetails_append]
    split
    · rw [Option.or_assoc]
    · rfl

theorem lastDetails_singleton : lastDetails s [l] = details s l := Option.or_none

/-- What storing details under the object on top changes. -/
theorem update_top {top : ℕ} {d : XMLInstanceDetails Cb} (p : ℕ) :
    Function.update t.extra top (some d) p =
      if some top = some p then (some d).or (t.extra p) else t.extra p := by
  by_cases hp : p = top
  · rw [hp, Function.update_self, if_pos rfl]
    rfl
  · rw [Function.update_of_ne hp, if_neg fun h => hp (Option.some.inj h).symm]

/-- **Loading a layout**: its parser is a new one, with what is attached to the
layout. -/
theorem getLayout_frame (ht : t.Ok) :
    Frame s [l] t (t.getLayout s l).2 ∧ (t.getLayout s l).1 < (t.getLayout s l).2.parsers ∧
      (t.getLayout s l).2.sXmlInstanceDetails (t.getLayout s l).1 = details s l := by
  cases hd : details s l with
  | none =>
    have hnew : ∀ q, t.parsers + 1 ≤ q → t.sXmlInstanceDetails q = none :=
      fun q hq => ht.newParser q (Nat.le_of_succ_le hq)
    simp only [getLayout, hd]
    refine ⟨⟨⟨ht.made, ht.newParam, hnew⟩, rfl, Nat.le_refl _, Nat.le_succ _, fun _ _ => rfl,
      fun p _ => ?_⟩, Nat.lt_succ_self _, ht.newParser _ (Nat.le_refl _)⟩
    rw [lastDetails_singleton, hd]
    exact (ite_self _).symm
  | some d =>
    have hold : ∀ q, q ≠ t.parsers →
        Function.update t.sXmlInstanceDetails t.parsers (some d) q = t.sXmlInstanceDetails q :=
      fun q hq => Function.update_of_ne hq ..
    have hnew : ∀ q, t.parsers + 1 ≤ q →
        Function.update t.sXmlInstanceDetails t.parsers (some d) q = none := by
      intro q hq
      rw [hold q (Nat.ne_of_gt hq), ht.newParser q (Nat.le_of_succ_le hq)]
    have hlt : ∀ q < t.parsers,
        Function.update t.sXmlInstanceDetails t.parsers (some d) q = t.sXmlInstanceDetails q :=
      fun q hq => hold q (Nat.ne_of_lt hq)
    cases hstack : t.sIncludedLayouts with
    | nil =>
      simp only [getLayout, hd, hstack]
      refine ⟨⟨⟨by simp, ht.newParam, hnew⟩, hstack.symm, Nat.le_refl _, Nat.le_succ _, hlt,
        fun p _ => ?_⟩, Nat.lt_succ_self _, Function.update_self ..⟩
      rw [hstack]
      rfl
    | cons top stack =>
      have hmade := ht.made
      rw [hstack] at hmade
      have hnone : ∀ p, t.params ≤ p → Function.update t.extra top (some d) p = none := by
        intro p hp
        have hne := Nat.ne_of_gt (Nat.lt_of_lt_of_le (hmade top List.mem_cons_self) hp)
        rw [Function.update_of_ne hne, ht.newParam p hp]
      simp only [getLayout, hd, hstack]
      refine ⟨⟨⟨hmade, hnone, hnew⟩, hstack.symm, Nat.le_refl _, Nat.le_succ _, hlt,
        fun p _ => ?_⟩, Nat.lt_succ_self _, Function.update_self ..⟩
      rw [hstack, lastDetails_singleton, hd]
      exact update_top p

theorem Ok.beforeInclude (ht : t.Ok) : t.beforeInclude.2.Ok where
  made p hp := by
    rcases List.mem_cons.mp hp with rfl | hp
    · exact Nat.lt_succ_self _
    · exact Nat.lt_succ_of_lt (ht.made p hp)
  newParam p hp := ht.newParam p (Nat.le_of_succ_le hp)
  newParser := ht.newParser

/-- **Behind an include** the objects around it are as they were, and its own
holds what was loaded last under it. -/
theorem Frame.afterInclude (ht : t.Ok) (h : Frame s ls t.beforeInclude.2 t') (throws : Bool) :
    Frame s [] t (t'.afterInclude t.beforeInclude.1 l throws).1 ∧
      (t'.afterInclude t.beforeInclude.1 l throws).2 =
        if throws then [] else [⟨.parseInclude, l, lastDetails s ls⟩] := by
  have hstack : t'.sIncludedLayouts.tail = t.sIncludedLayouts := by
    rw [h.stack]
    rfl
  have hown : t'.extra t.params = lastDetails s ls := by
    rw [h.extra t.params (Nat.lt_succ_self _)]
    simp only [Thread.beforeInclude, List.head?_cons, ↓reduceIte,
      ht.newParam t.params (Nat.le_refl _), Option.or_none]
  have hextra : ∀ p < t.params, t'.extra p = t.extra p := by
    intro p hp
    have hne : ¬ some t.params = some p := fun heq => Nat.ne_of_gt hp (Option.some.inj heq)
    exact (h.extra p (Nat.lt_succ_of_lt hp)).trans (if_neg hne)
  refine ⟨⟨⟨fun p hp => ?_, h.ok.newParam, h.ok.newParser⟩, hstack, Nat.le_of_succ_le h.params,
    h.parsers, h.attached, fun p hp => ?_⟩, ?_⟩
  · exact h.ok.made p (List.mem_of_mem_tail hp)
  · exact (hextra p hp).trans (ite_self _).symm
  · rw [← hown]
    rfl

/-- **The hooks tell what is said of the trace without them**, whatever calls
the trace is made in. -/
theorem run_frame (tr : Trace) (ht : t.Ok) :
    Frame s tr.loads t (run s tr t).1 ∧ (run s tr t).2 = tr.returned s := by
  induction tr generalizing t with
  | done => exact ⟨.refl ht, rfl⟩
  | call method l inner throws next ihInner ihNext =>
    cases method with
    | inflate =>
      obtain ⟨hload, hlt, hparser⟩ : Frame s [l] t (t.getLayout s l).2 ∧ _ := getLayout_frame ht
      obtain ⟨hinner, htold⟩ := ihInner hload.ok
      obtain ⟨hnext, hrest⟩ := ihNext hinner.ok
      have hafter := (hinner.attached _ hlt).trans hparser
      refine ⟨(hload.trans hinner).trans hnext, ?_⟩
      simp only [run, htold, hrest, afterInflate, hafter, Trace.returned]
    | parseInclude =>
      obtain ⟨hload, -⟩ : Frame s [l] t.beforeInclude.2 _ ∧ _ := getLayout_frame ht.beforeInclude
      obtain ⟨hinner, htold⟩ := ihInner hload.ok
      obtain ⟨hbehind, hafter⟩ := (hload.trans hinner).afterInclude ht (l := l) throws
      obtain ⟨hnext, hrest⟩ := ihNext hbehind.ok
      refine ⟨hbehind.trans hnext, ?_⟩
      simp only [run, htold, hrest, hafter, Trace.returned, List.singleton_append]

end Thread

end Layouts

end Dynamicloader
