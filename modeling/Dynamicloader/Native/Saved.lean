import Mathlib.Data.List.Induction
import Dynamicloader.Hooking.Model
import Dynamicloader.Native.Model
/-!
# Native — the saved original

A hooked method is known by its `nativeFunc`, and its `insns` lead to the
copy. From memory in which no method is hooked yet, and over any calls of
`hookMethodNative` that succeed, the first call for a method makes the copy
and later ones change nothing. The copy is thus the method as it was before,
and both ways to the original end there.

`Hooking.Model` has `hookMethodNative` by what the methods were given;
`infoOf` reads that off the memory, and the two agree call by call.
-/

namespace Dynamicloader

namespace Native

variable {Member Class Info Rest : Type} {V : VM Member Class}
variable {mem mem' mem₀ : Memory Member Info Rest}

/-- The method that a call is about. -/
def HookCall.target (V : VM Member Class) (c : HookCall Member Class Info) : Option UInt32 :=
  c.declaredClass.bind fun declaredClass => V.dvmSlotToMethod declaredClass c.slot

/-- The first call for a method. -/
def firstHook (V : VM Member Class) (cs : List (HookCall Member Class Info)) (p : UInt32) :
    Option (HookCall Member Class Info) :=
  cs.find? fun c => c.target V == some p

/-- **Memory before the first hook**: the methods of the classes are there, and
none is hooked. -/
structure Pristine (V : VM Member Class) (mem : Memory Member Info Rest) : Prop where
  methods : ∀ declaredClass slot p, V.dvmSlotToMethod declaredClass slot = some p →
    ∃ m, mem p = some (.method m)
  unhooked : ∀ p m, mem p = some (.method m) → V.bridgeIsHooked m = false

/-! ## One call -/

/-- **What a call does that succeeds.** -/
theorem hookMethodNative_cases {c : HookCall Member Class Info}
    (h : hookMethodNative V mem c = .ok mem') :
    ∃ p m r, c.target V = some p ∧ mem.methodAt p = some m ∧ c.reflectedMethod = some r ∧
      ((V.bridgeIsHooked m = true ∧ mem' = mem) ∨
        (V.bridgeIsHooked m = false ∧ mem c.room = none ∧ c.room ≠ 0 ∧
          mem' = Function.update
            (Function.update mem c.room (some (.hookInfo ⟨m, r, c.additionalInfo⟩))) p
            (some (.method (m.replaced V c.room))))) := by
  obtain ⟨reflectedMethod, declaredClass, slot, additionalInfo, room⟩ := c
  cases declaredClass with
  | none => cases h
  | some declaredClass =>
    cases reflectedMethod with
    | none => cases h
    | some r =>
      simp only [hookMethodNative] at h
      cases hp : V.dvmSlotToMethod declaredClass slot with
      | none => rw [hp] at h; cases h
      | some p =>
        simp only [hp] at h
        cases hm : mem.methodAt p with
        | none => rw [hm] at h; cases h
        | some m =>
          simp only [hm] at h
          refine ⟨p, m, r, hp, hm, rfl, ?_⟩
          split at h
          case isTrue hhooked => exact .inl ⟨hhooked, (Except.ok.inj h).symm⟩
          case isFalse hhooked =>
            split at h
            case isTrue => cases h
            case isFalse hroom =>
              rw [calloc] at h hroom
              split at h
              case isTrue hsome => exact absurd (if_pos hsome) hroom
              case isFalse hfree =>
                rw [if_neg hfree] at hroom
                refine .inr ⟨Bool.eq_false_iff.mpr hhooked, ?_, hroom, (Except.ok.inj h).symm⟩
                exact Option.not_isSome_iff_eq_none.mp hfree

/-! ## Any calls -/

/-- **The state of a method** that was `m`, with the first call for it if
there was one. -/
def Kept (V : VM Member Class) (mem : Memory Member Info Rest) (p : UInt32) (m : Method Rest) :
    Option (HookCall Member Class Info) → Prop
  | none => mem p = some (.method m)
  | some c => c.room ≠ 0 ∧ mem p = some (.method (m.replaced V c.room)) ∧
    ∃ r, c.reflectedMethod = some r ∧
      mem c.room = some (.hookInfo ⟨m, r, c.additionalInfo⟩)

theorem bridgeIsHooked_replaced (m : Method Rest) (hookInfo : UInt32) :
    V.bridgeIsHooked (m.replaced V hookInfo) = true :=
  beq_self_eq_true V.bridgeCallHandler

theorem methodAt_method {p : UInt32} {m : Method Rest} (h : mem p = some (.method m)) :
    mem.methodAt p = some m := by
  rw [Memory.methodAt, h]

/-- What is at an address that is neither the method nor the new info stays. -/
theorem Kept.mono {p : UInt32} {m : Method Rest} {c : Option (HookCall Member Class Info)}
    (h : Kept V mem p m c) (hmem : ∀ q b, mem q = some b →
      (q = p ∨ ∃ i, b = .hookInfo i) → mem' q = some b) : Kept V mem' p m c := by
  cases c with
  | none => exact hmem p _ h (.inl rfl)
  | some c =>
    obtain ⟨hroom, hp, r, hr, hinfo⟩ := h
    exact ⟨hroom, hmem p _ hp (.inl rfl), r, hr, hmem c.room _ hinfo (.inr ⟨_, rfl⟩)⟩

/-- All methods are kept, with the calls that were made. -/
def AllKept (V : VM Member Class) (mem₀ mem : Memory Member Info Rest)
    (cs : List (HookCall Member Class Info)) : Prop :=
  ∀ p m, mem₀ p = some (.method m) → Kept V mem p m (firstHook V cs p)

variable {cs : List (HookCall Member Class Info)} {c : HookCall Member Class Info}

theorem firstHook_concat {q : UInt32} (hq : c.target V = some q) (p : UInt32) :
    firstHook V (cs ++ [c]) p = (firstHook V cs p).or (if q = p then some c else none) := by
  rw [firstHook, List.find?_append, List.find?_singleton, hq]
  simp [firstHook]

/-- **A call in memory that is kept**: the method is hooked already and nothing
happens, or it is as it was at first and is hooked now. -/
theorem AllKept.cases (h₀ : Pristine V mem₀) (hkept : AllKept V mem₀ mem cs)
    (h : hookMethodNative V mem c = .ok mem') :
    ∃ q m r, c.target V = some q ∧ mem₀ q = some (.method m) ∧ c.reflectedMethod = some r ∧
      (((firstHook V cs q).isSome ∧ mem' = mem) ∨
        (firstHook V cs q = none ∧ mem q = some (.method m) ∧ mem c.room = none ∧ c.room ≠ 0 ∧
          mem' = Function.update
            (Function.update mem c.room (some (.hookInfo ⟨m, r, c.additionalInfo⟩))) q
            (some (.method (m.replaced V c.room))))) := by
  obtain ⟨q, mq, r, hq, hmq, hr, hcase⟩ := hookMethodNative_cases h
  obtain ⟨declaredClass, -, hslot⟩ := Option.bind_eq_some_iff.mp hq
  obtain ⟨m, hm⟩ := h₀.methods _ _ _ hslot
  refine ⟨q, m, r, hq, hm, hr, ?_⟩
  have hold := hkept q m hm
  cases hfirst : firstHook V cs q with
  | some c₀ =>
    rw [hfirst] at hold
    obtain ⟨-, hp, -⟩ := hold
    obtain rfl := Option.some.inj (hmq.symm.trans (methodAt_method hp))
    rcases hcase with ⟨-, rfl⟩ | ⟨hfalse, -⟩
    · exact .inl ⟨rfl, rfl⟩
    · rw [bridgeIsHooked_replaced] at hfalse
      cases hfalse
  | none =>
    rw [hfirst] at hold
    obtain rfl := Option.some.inj (hmq.symm.trans (methodAt_method hold))
    rcases hcase with ⟨htrue, -⟩ | ⟨-, hroom, hne, rfl⟩
    · rw [h₀.unhooked q mq hm] at htrue
      cases htrue
    · exact .inr ⟨rfl, hold, hroom, hne, rfl⟩

/-- **A call keeps every method.** -/
theorem AllKept.step (h₀ : Pristine V mem₀) (hkept : AllKept V mem₀ mem cs)
    (h : hookMethodNative V mem c = .ok mem') : AllKept V mem₀ mem' (cs ++ [c]) := by
  intro p m hm
  have hold := hkept p m hm
  obtain ⟨q, mq, r, hq, hmq, hr, hcase⟩ := hkept.cases h₀ h
  rw [firstHook_concat hq]
  rcases hcase with ⟨hsome, rfl⟩ | ⟨hnone, hq', hroom, hne, rfl⟩
  · -- nothing happens, and `c` is not the first call for its method
    by_cases hqp : q = p
    · subst hqp
      obtain ⟨c₀, hc₀⟩ := Option.isSome_iff_exists.mp hsome
      rw [hc₀] at hold ⊢
      exact hold
    · rwa [if_neg hqp, Option.or_none]
  · have hroomq : c.room ≠ q := by
      rintro heq
      rw [heq, hq'] at hroom
      cases hroom
    by_cases hqp : q = p
    · subst hqp
      obtain rfl : m = mq := by
        rw [hm] at hmq
        injection hmq with hmq
        injection hmq
      rw [hnone, if_pos rfl]
      refine ⟨hne, Function.update_self _ _ _, r, hr, ?_⟩
      rw [Function.update_of_ne hroomq, Function.update_self]
    · rw [if_neg hqp, Option.or_none]
      refine hold.mono fun q' b hb hq'' => ?_
      have h₁ : q' ≠ c.room := by
        rintro rfl
        rw [hb] at hroom
        cases hroom
      have h₂ : q' ≠ q := by
        rintro rfl
        rcases hq'' with rfl | ⟨i, rfl⟩
        · exact hqp rfl
        · rw [hb] at hq'
          cases hq'
      rw [Function.update_of_ne h₂, Function.update_of_ne h₁, hb]

theorem hookMethodsNative_concat (mem : Memory Member Info Rest)
    (cs : List (HookCall Member Class Info)) (c : HookCall Member Class Info) :
    hookMethodsNative V mem (cs ++ [c]) =
      (hookMethodsNative V mem cs).bind fun mem => hookMethodNative V mem c := by
  induction cs generalizing mem with
  | nil =>
    show (hookMethodNative V mem c).bind Except.ok = hookMethodNative V mem c
    cases hookMethodNative V mem c with
    | error e => rfl
    | ok mem' => rfl
  | cons d cs ih =>
    rw [List.cons_append, hookMethodsNative, hookMethodsNative]
    cases hookMethodNative V mem d with
    | error e => rfl
    | ok mem' => exact ih mem'

/-- **Any calls keep every method.** -/
theorem hookMethodsNative_kept (h₀ : Pristine V mem₀)
    (h : hookMethodsNative V mem₀ cs = .ok mem) : AllKept V mem₀ mem cs := by
  induction cs using List.reverseRecOn generalizing mem with
  | nil =>
    obtain rfl := Except.ok.inj h
    exact fun p m hm => hm
  | append_singleton cs c ih =>
    rw [hookMethodsNative_concat] at h
    cases hrun : hookMethodsNative V mem₀ cs with
    | error e => rw [hrun] at h; cases h
    | ok mem₁ =>
      rw [hrun] at h
      exact (ih hrun).step h₀ h

/-! ## The ways to the original -/

/-- The loop of the handler stays in the array, whatever the shorty. -/
theorem boxArguments_isSome (args : ℕ → UInt32) (value : ℕ → UInt64) (desc : List Char)
    (b : Boxing) (h : b.dstIndex + desc.length ≤ b.argsArray.length) :
    ∃ b', boxArguments args value desc b = some b' := by
  induction desc generalizing b with
  | nil => exact ⟨b, rfl⟩
  | cons descChar desc ih =>
    rw [List.length_cons] at h
    simp only [boxArguments, bridgeSetObjectArrayElement]
    rw [if_pos (by omega)]
    refine ih _ ?_
    show b.dstIndex + 1 + desc.length ≤ (b.argsArray.set _ _).length
    rw [List.length_set]
    omega

/-- The handler of a hooked method makes its call, with what the info holds. -/
theorem prepare_hooked {method : Method Rest} {i : BridgeHookInfo Member Info Rest}
    (hhooked : V.bridgeIsHooked method = true) (hinfo : mem.infoAt method.insns = some i)
    (args : ℕ → UInt32) (value : ℕ → UInt64) :
    ∃ call read, prepare V mem method args true value = .call call read ∧
      call.original = method.insns ∧ call.originalReflected = i.reflectedMethod ∧
      call.additionalInfo = i.additionalInfo := by
  rw [prepare, hhooked, hinfo]
  have hloop := fun src read => boxArguments_isSome args value method.shorty.parameters
    ⟨src, 0, List.replicate method.shorty.parameters.length Obj.null, read⟩ (by simp)
  obtain ⟨b, hb⟩ := hloop (if i.originalMethod.dvmIsStaticMethod then [] else [0]).length
    (if i.originalMethod.dvmIsStaticMethod then [] else [0])
  simp only [hb]
  exact ⟨_, _, rfl, rfl, rfl, rfl⟩

/-- `invokeOriginalMethodNative` invokes `q` when it is given the id. -/
def Resolves (V : VM Member Class) (mem : Memory Member Info Rest) (reflected : Member)
    (id q : UInt32) : Prop :=
  ∀ args : ℕ → UInt32, args 1 = id →
    ∃ i, invokeOriginalMethodNative V mem args reflected = .ok i ∧ i.meth = q

theorem resolves_iff {reflected : Member} {id q : UInt32} :
    Resolves V mem reflected id q ↔ originalMethod V mem reflected id = .ok q := by
  constructor
  · intro h
    obtain ⟨i, hi, hq⟩ := h (fun _ => id) rfl
    rw [invokeOriginalMethodNative] at hi
    cases ho : originalMethod V mem reflected id with
    | error e => rw [ho] at hi; cases hi
    | ok meth =>
      rw [ho] at hi
      obtain rfl := Except.ok.inj hi
      exact congrArg Except.ok hq
  · intro h args hid
    rw [← hid] at h
    exact ⟨_, by rw [invokeOriginalMethodNative, h]; rfl, rfl⟩

/-- **A method with its original saved**: `m` is what it was, and `c` the first
call for it. -/
structure Saved (V : VM Member Class) (mem : Memory Member Info Rest) (p : UInt32)
    (m : Method Rest) (c : HookCall Member Class Info) : Prop where
  /-- The copy in the info is the method as it was. -/
  copy : ∃ r, c.reflectedMethod = some r ∧
    mem.infoAt c.room = some ⟨m, r, c.additionalInfo⟩
  /-- The method has the handler, and leads to that info. -/
  hooked : ∃ m', mem p = some (.method m') ∧ m'.nativeFunc = V.bridgeCallHandler ∧
    m'.insns = c.room
  /-- The handler passes the copy for an id, and the id leads back to it. -/
  by_id : ∀ m', mem p = some (.method m') → ∀ args value, ∃ call read,
    prepare V mem m' args true value = .call call read ∧
      ∀ reflected, Resolves V mem reflected call.original c.room
  /-- So does the reflected method, without an id. -/
  by_reflection : ∀ reflected, V.dvmGetMethodFromReflectObj reflected = p →
    Resolves V mem reflected 0 c.room

theorem Kept.saved {p : UInt32} {m : Method Rest} (h : Kept V mem p m (some c)) :
    Saved V mem p m c := by
  obtain ⟨hroom, hp, r, hr, hinfo⟩ := h
  have hinfoAt : mem.infoAt c.room = some ⟨m, r, c.additionalInfo⟩ := by
    rw [Memory.infoAt, hinfo]
  refine ⟨⟨r, hr, hinfoAt⟩, ⟨_, hp, rfl, rfl⟩, ?_, ?_⟩
  · intro m' hm' args value
    obtain rfl : m.replaced V c.room = m' := by
      rw [hp] at hm'
      injection hm' with hm'
      injection hm'
    obtain ⟨call, read, hcall, horiginal, -⟩ :=
      prepare_hooked (bridgeIsHooked_replaced m c.room) hinfoAt args value
    refine ⟨call, read, hcall, fun reflected => ?_⟩
    rw [resolves_iff, originalMethod, horiginal]
    exact if_neg hroom
  · intro reflected hreflected
    rw [resolves_iff, originalMethod, if_pos rfl, hreflected]
    simp only [methodAt_method hp, bridgeIsHooked_replaced, if_true]
    rfl

/-- **The saved original is never the trampoline.** After any calls that
succeed, a method that was hooked has its original saved by the first of
them, and a method that was not is its own original. -/
theorem saved_original (h₀ : Pristine V mem₀) (h : hookMethodsNative V mem₀ cs = .ok mem)
    (p : UInt32) (m : Method Rest) (hm : mem₀ p = some (.method m)) :
    (∀ c, firstHook V cs p = some c → Saved V mem p m c) ∧
      ((∀ c ∈ cs, c.target V ≠ some p) → mem.methodAt p = some m ∧
        ∀ reflected, V.dvmGetMethodFromReflectObj reflected = p →
          Resolves V mem reflected 0 p) := by
  have hkept := hookMethodsNative_kept h₀ h p m hm
  constructor
  · intro c hc
    rw [hc] at hkept
    exact hkept.saved
  · intro hnever
    have hnone : firstHook V cs p = none :=
      List.find?_eq_none.mpr fun c hc => by simpa using hnever c hc
    rw [hnone] at hkept
    refine ⟨methodAt_method hkept, fun reflected hreflected => ?_⟩
    rw [resolves_iff, originalMethod, if_pos rfl, hreflected]
    simp only [methodAt_method hkept, h₀.unhooked p m hm]
    rfl

/-- A class with the methods `0` and `1`. -/
def twoMethods : VM Int32 Unit where
  dvmSlotToMethod _ slot := if slot = 0 then some 0x10 else if slot = 1 then some 0x20 else none
  dvmGetMethodFromReflectObj slot := if slot = 0 then 0x10 else 0x20
  bridgeCallHandler := 0x7000

def plainMethod : Method Unit := ⟨1, 3, 2, 1, ⟨'V', []⟩, 0x900, 0, ()⟩

def twoMethodsMemory : Memory Int32 String Unit := fun p =>
  if p = 0x10 ∨ p = 0x20 then some (.method plainMethod) else none

theorem twoMethodsMemory_eq {p : UInt32} {b : Block Int32 String Unit}
    (h : twoMethodsMemory p = some b) : b = .method plainMethod := by
  rw [twoMethodsMemory] at h
  split at h
  · exact (Option.some.inj h).symm
  · cases h

theorem pristine_twoMethods : Pristine twoMethods twoMethodsMemory where
  methods declaredClass slot p hp := by
    rw [twoMethods] at hp
    simp only at hp
    split at hp
    · obtain rfl := Option.some.inj hp
      exact ⟨plainMethod, rfl⟩
    · split at hp
      · obtain rfl := Option.some.inj hp
        exact ⟨plainMethod, rfl⟩
      · cases hp
  unhooked p m hm := by
    injection twoMethodsMemory_eq hm with hm
    rw [hm]
    rfl

/-- One method is hooked twice, the other one never. -/
def hookedTwice : List (HookCall Int32 Unit String) :=
  [⟨some 0, some (), 0, "first", 0x50⟩, ⟨some 0, some (), 0, "second", 0x60⟩]

theorem saved_original_twice : ∃ mem,
    hookMethodsNative twoMethods twoMethodsMemory hookedTwice = .ok mem ∧
    Saved twoMethods mem 0x10 plainMethod ⟨some 0, some (), 0, "first", 0x50⟩ ∧
    mem.methodAt 0x20 = some plainMethod ∧ Resolves twoMethods mem 1 0 0x20 := by
  have hrun : hookMethodsNative twoMethods twoMethodsMemory hookedTwice = .ok _ := rfl
  have hhooked := (saved_original pristine_twoMethods hrun 0x10 plainMethod rfl).1
  have hnever := (saved_original pristine_twoMethods hrun 0x20 plainMethod rfl).2 (by decide)
  exact ⟨_, hrun, hhooked _ rfl, hnever.1, hnever.2 1 rfl⟩

/-! ## What the methods were given -/

/-- `Hooking.State.hookInfo`, by the memory. -/
def infoOf (V : VM Member Class) (mem : Memory Member Info Rest) (p : UInt32) :
    Option (Member × Info) :=
  match mem p with
  | some (.method m) =>
    if V.bridgeIsHooked m then
      (mem.infoAt m.insns).map fun i => (i.reflectedMethod, i.additionalInfo)
    else none
  | _ => none

/-- What a call gives. -/
def HookCall.given (c : HookCall Member Class Info) : Option (Member × Info) :=
  c.reflectedMethod.map fun r => (r, c.additionalInfo)

/-- A method was given what its first call gave. -/
theorem AllKept.infoOf_eq (h₀ : Pristine V mem₀) (hkept : AllKept V mem₀ mem cs) {p : UInt32}
    {m : Method Rest} (hm : mem₀ p = some (.method m)) :
    infoOf V mem p = (firstHook V cs p).bind HookCall.given := by
  have hp := hkept p m hm
  cases hfirst : firstHook V cs p with
  | none =>
    rw [hfirst] at hp
    have hp : mem p = some (.method m) := hp
    simp [infoOf, hp, h₀.unhooked p m hm]
  | some c =>
    rw [hfirst] at hp
    obtain ⟨-, hp, r, hr, hinfo⟩ := hp
    have hinsns : (m.replaced V c.room).insns = c.room := rfl
    simp [infoOf, hp, bridgeIsHooked_replaced, hinsns, Memory.infoAt, hinfo, HookCall.given, hr]

/-- **`Hooking.hookMethodNative` is this one**, by what the methods were
given. -/
theorem hookMethodNative_refines {Cb : Type} {P : Hooking.Platform Member Class UInt32}
    {mem₀ mem mem' : Memory Member (Hooking.AdditionalHookInfo Class) Rest}
    {cs : List (HookCall Member Class (Hooking.AdditionalHookInfo Class))}
    {c : HookCall Member Class (Hooking.AdditionalHookInfo Class)}
    {s : Hooking.State Member Class UInt32 Cb} {reflectedMethod : Member} {declaredClass : Class}
    (hP : V.dvmSlotToMethod = P.dvmSlotToMethod) (h₀ : Pristine V mem₀)
    (hkept : AllKept V mem₀ mem cs)
    (hs : ∀ p m, mem₀ p = some (.method m) → s.hookInfo p = infoOf V mem p)
    (hmethod : c.reflectedMethod = some reflectedMethod)
    (hclass : c.declaredClass = some declaredClass)
    (h : hookMethodNative V mem c = .ok mem') :
    ∃ s', Hooking.hookMethodNative P reflectedMethod declaredClass c.slot c.additionalInfo s =
        .ok s' ∧
      ∀ p m, mem₀ p = some (.method m) → s'.hookInfo p = infoOf V mem' p := by
  obtain ⟨q, m, r, hq, hm, hr, hcase⟩ := hkept.cases h₀ h
  have hslot : P.dvmSlotToMethod declaredClass c.slot = some q := by
    rw [← hP]
    simpa [HookCall.target, hclass] using hq
  have hstep := hkept.step h₀ h
  have hinfo := hs q m hm
  rw [hkept.infoOf_eq h₀ hm] at hinfo
  rw [Hooking.hookMethodNative, hslot]
  rcases hcase with ⟨hsome, rfl⟩ | ⟨hnone, -⟩
  · obtain ⟨c₀, hc₀⟩ := Option.isSome_iff_exists.mp hsome
    have hold := hkept q m hm
    rw [hc₀] at hold hinfo
    obtain ⟨-, -, r₀, hr₀, -⟩ := hold
    refine ⟨s, if_pos ?_, hs⟩
    rw [hinfo]
    simp [HookCall.given, hr₀]
  · rw [hnone] at hinfo
    refine ⟨_, if_neg ?_, fun p mp hmp => ?_⟩
    · rw [hinfo]
      exact Bool.false_ne_true
    · rw [hstep.infoOf_eq h₀ hmp, firstHook_concat hq]
      by_cases hqp : q = p
      · subst hqp
        rw [hnone, if_pos rfl]
        simp [HookCall.given, hmethod]
      · rw [if_neg hqp, Option.or_none, ← hkept.infoOf_eq h₀ hmp, ← hs p mp hmp]
        exact Function.update_of_ne (Ne.symm hqp) _ _

end Native

end Dynamicloader
