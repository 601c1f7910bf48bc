import Dynamicloader.Helpers.Caches
import Mathlib.Data.Nat.Notation
/-!
# Helpers — partial lists of types

`callMethod`, `callStaticMethod` and `newInstance` take an array of parameter
types in which some may be null, and find those from the arguments. They
write them into the array they are given. A caller that keeps the array
for a second call then asks for the types of the first (`second_overload_missed`):
the array stays as it is exactly where no argument at the place of a null
has a type to fill in (`hints_kept_iff`).
-/

namespace Dynamicloader

namespace Helpers

variable {C O : Type} (r : Runtime C) (getClass : O → C)

/-! ## The model -/

def getParameterTypes (args : List (Option O)) : List (Option C) := args.map (Option.map getClass)

/-- The loop that completes the array from the classes of the arguments: how it
ends, and the array. It stops at a null that has no argument. -/
def complete : List (Option C) → List (Option C) → Except Failure Unit × List (Option C)
  | [], _ => (.ok (), [])
  | some t :: types, argsClasses =>
    let (ended, types) := complete types argsClasses.tail
    (ended, some t :: types)
  | none :: types, [] => (.error .arrayIndexOutOfBounds, none :: types)
  | none :: types, t :: argsClasses =>
    let (ended, types) := complete types argsClasses
    (ended, t :: types)

/-- The caches, and the array of a caller. -/
structure Hinted (C : Type) where
  caches : Caches C
  parameterTypes : List (Option C)

/-- What the lookups with an array and arguments do before they search. -/
def completed {α : Type} (find : List (Option C) → Caches C → Except Failure α × Caches C)
    (args : List (Option O)) (s : Hinted C) : Except Failure α × Hinted C :=
  match complete s.parameterTypes (getParameterTypes getClass args) with
  | (.error e, types) => (.error e, { s with parameterTypes := types })
  | (.ok (), types) =>
    let (answer, caches) := find types s.caches
    (answer, ⟨caches, types⟩)

/-- `findMethodBestMatch(clazz, methodName, parameterTypes, args)` -/
def findMethodBestMatchFor (c : C) (methodName : String) :
    List (Option O) → Hinted C → Except Failure (Method C) × Hinted C :=
  completed getClass (findMethodBestMatch r c methodName)

/-- `findConstructorBestMatch(clazz, parameterTypes, args)` -/
def findConstructorBestMatchFor (c : C) :
    List (Option O) → Hinted C → Except Failure (Constructor C) × Hinted C :=
  completed getClass (findConstructorBestMatch r c)

/-- The calls that take an array. -/
inductive Call (C O : Type) where
  | callMethod (obj : Option O) (methodName : String) (args : List (Option O))
  | callStaticMethod (clazz : C) (methodName : String) (args : List (Option O))
  | newInstance (clazz : C) (args : List (Option O))

/-- **The calls that use one array**; the output of each is the member it resolves. -/
def calls : Machine (Hinted C) (Call C O) (Answer C)
  | s, .callMethod none _ _ => (s, [.error .nullPointer])
  | s, .callMethod (some obj) methodName args =>
    let (answer, s) := findMethodBestMatchFor r getClass (getClass obj) methodName args s
    (s, [answer.map .method])
  | s, .callStaticMethod clazz methodName args =>
    let (answer, s) := findMethodBestMatchFor r getClass clazz methodName args s
    (s, [answer.map .method])
  | s, .newInstance clazz args =>
    let (answer, s) := findConstructorBestMatchFor r getClass clazz args s
    (s, [answer.map .constructor])

/-- The same calls, each with a copy of the array `original`. -/
def freshCalls (original : List (Option C)) : Machine (Caches C) (Call C O) (Answer C) :=
  fun caches call =>
    let (s, answers) := calls r getClass ⟨caches, original⟩ call
    (s.caches, answers)

/-! ## What is filled in -/

/-- No argument at the place of a null has a type. -/
def Silent (types : List (Option C)) (args : List (Option O)) : Prop :=
  ∀ (i : ℕ) (a : O), types[i]? = some none → args[i]? ≠ some (some a)

def Call.Silent (types : List (Option C)) : Call C O → Prop
  | .callMethod none _ _ => True
  | .callMethod (some _) _ args => Helpers.Silent types args
  | .callStaticMethod _ _ args => Helpers.Silent types args
  | .newInstance _ args => Helpers.Silent types args

/-- **The array stays as it is if and only if** there is nothing to fill in. -/
theorem complete_eq_iff (types argsClasses : List (Option C)) :
    (complete types argsClasses).2 = types ↔ Silent types argsClasses := by
  induction types generalizing argsClasses with
  | nil => simp [complete, Silent]
  | cons t types ih =>
    cases t with
    | some t =>
      simp only [complete, List.cons.injEq, true_and, ih]
      constructor
      · intro h i a hi
        cases i with
        | zero => simp at hi
        | succ i =>
          have := h i a (by simpa using hi)
          simpa [List.getElem?_tail] using this
      · intro h i a hi
        have := h (i + 1) a (by simpa using hi)
        simpa [List.getElem?_tail] using this
    | none =>
      cases argsClasses with
      | nil => simp [complete, Silent]
      | cons t argsClasses =>
        simp only [complete, List.cons.injEq, ih]
        constructor
        · rintro ⟨rfl, h⟩ i a hi
          cases i with
          | zero => simp
          | succ i => simpa using h i a (by simpa using hi)
        · intro h
          constructor
          · by_contra hne
            obtain ⟨c, rfl⟩ := Option.ne_none_iff_exists'.mp hne
            exact h 0 c rfl rfl
          · intro i a hi
            simpa using h (i + 1) a (by simpa using hi)

theorem silent_getParameterTypes (types : List (Option C)) (args : List (Option O)) :
    Silent types (getParameterTypes getClass args) ↔ Silent types args := by
  constructor
  · intro h i a hi harg
    exact h i (getClass a) hi (by simp [getParameterTypes, harg])
  · intro h i a hi harg
    simp only [getParameterTypes, List.getElem?_map, Option.map_eq_some_iff] at harg
    obtain ⟨arg, harg, hclass⟩ := harg
    obtain ⟨o, rfl, -⟩ := hclass
    exact h i o hi harg

theorem Hinted.eq_mk {s : Hinted C} {types : List (Option C)} (h : s.parameterTypes = types) :
    s = ⟨s.caches, types⟩ := by
  rw [← h]

theorem completed_parameterTypes_iff {α : Type}
    (find : List (Option C) → Caches C → Except Failure α × Caches C) (args : List (Option O))
    (s : Hinted C) :
    (completed getClass find args s).2.parameterTypes = s.parameterTypes ↔
      Silent s.parameterTypes args := by
  have hfilled : (completed getClass find args s).2.parameterTypes =
      (complete s.parameterTypes (getParameterTypes getClass args)).2 := by
    unfold completed
    rcases complete s.parameterTypes (getParameterTypes getClass args) with ⟨e | _, types⟩
    · rfl
    · rfl
  rw [hfilled, complete_eq_iff, silent_getParameterTypes]

/-- **A call leaves the array as it is if and only if** it has nothing to fill in. -/
theorem calls_parameterTypes_iff (s : Hinted C) (call : Call C O) :
    (calls r getClass s call).1.parameterTypes = s.parameterTypes ↔
      call.Silent s.parameterTypes := by
  cases call with
  | callMethod obj methodName args =>
    cases obj with
    | none => exact iff_of_true rfl trivial
    | some obj =>
      exact completed_parameterTypes_iff getClass
        (findMethodBestMatch r (getClass obj) methodName) args s
  | callStaticMethod clazz methodName args =>
    exact completed_parameterTypes_iff getClass (findMethodBestMatch r clazz methodName) args s
  | newInstance clazz args =>
    exact completed_parameterTypes_iff getClass (findConstructorBestMatch r clazz) args s

/-! ## Over all calls -/

/-- **The array is the original behind every call if and only if** no call has
something to fill in. -/
theorem parameterTypes_run_iff (original : List (Option C)) (s : Caches C) (cs : List (Call C O)) :
    (∀ pre, pre <+: cs → ((calls r getClass).run ⟨s, original⟩ pre).parameterTypes = original) ↔
      ∀ call ∈ cs, call.Silent original := by
  induction cs generalizing s with
  | nil => simp
  | cons call cs ih =>
    have hcall := calls_parameterTypes_iff r getClass ⟨s, original⟩ call
    rw [List.forall_mem_cons]
    constructor
    · intro hall
      have hstep : (calls r getClass ⟨s, original⟩ call).1.parameterTypes = original :=
        hall [call] (by simp)
      refine ⟨hcall.mp hstep, (ih (calls r getClass ⟨s, original⟩ call).1.caches).mp ?_⟩
      intro pre hpre
      have := hall (call :: pre) (List.cons_prefix_cons.mpr ⟨rfl, hpre⟩)
      rwa [Machine.run_cons, Hinted.eq_mk hstep] at this
    · rintro ⟨hsilent, hrest⟩ pre hpre
      have hstep : (calls r getClass ⟨s, original⟩ call).1.parameterTypes = original :=
        hcall.mpr hsilent
      cases pre with
      | nil => rfl
      | cons call' pre =>
        obtain ⟨rfl, htail⟩ := List.cons_prefix_cons.mp hpre
        have := (ih (calls r getClass ⟨s, original⟩ call').1.caches).mpr hrest pre htail
        rwa [Machine.run_cons, Hinted.eq_mk hstep]

/-- Calls with nothing to fill in resolve as with copies of the array. -/
theorem outputs_eq_fresh {original : List (Option C)} {cs : List (Call C O)}
    (hsilent : ∀ call ∈ cs, call.Silent original) (s : Caches C) :
    (calls r getClass).outputs ⟨s, original⟩ cs =
      (freshCalls r getClass original).outputs s cs := by
  induction cs generalizing s with
  | nil => rfl
  | cons call cs ih =>
    rw [List.forall_mem_cons] at hsilent
    have hstep : (calls r getClass ⟨s, original⟩ call).1.parameterTypes = original :=
      (calls_parameterTypes_iff r getClass ⟨s, original⟩ call).mpr hsilent.1
    rw [Machine.outputs_cons, Machine.outputs_cons, Hinted.eq_mk hstep, ih hsilent.2]
    rfl

/-- **An array is left as it is, and every call resolves as with a copy of it, if and
only if** no argument at the place of a null has a type to fill in. -/
theorem hints_kept_iff (original : List (Option C)) (s : Caches C) (cs : List (Call C O)) :
    ((∀ pre, pre <+: cs →
          ((calls r getClass).run ⟨s, original⟩ pre).parameterTypes = original) ∧
        (calls r getClass).outputs ⟨s, original⟩ cs =
          (freshCalls r getClass original).outputs s cs) ↔
      ∀ call ∈ cs, call.Silent original := by
  constructor
  · rintro ⟨hkept, -⟩
    exact (parameterTypes_run_iff r getClass original s cs).mp hkept
  · intro hsilent
    exact ⟨(parameterTypes_run_iff r getClass original s cs).mpr hsilent,
      outputs_eq_fresh r getClass hsilent s⟩

/-- A class with a method m for whole numbers and one for texts. -/
inductive Overloads where
  | target
  | integer
  | string
  deriving DecidableEq

def overload (t : Overloads) : Method Overloads := ⟨.target, "m", [t], false⟩

def overloads : Runtime Overloads where
  getName
    | .target => "Target"
    | .integer => "java.lang.Integer"
    | .string => "java.lang.String"
  getCanonicalName
    | .target => some "Target"
    | .integer => some "java.lang.Integer"
    | .string => some "java.lang.String"
  objectClass := .target
  superclasses _ := []
  getDeclaredField _ _ := .noSuch
  getDeclaredMethod _ _ types :=
    if types = [some .integer] then .member (overload .integer)
    else if types = [some .string] then .member (overload .string)
    else .noSuch
  getDeclaredConstructor _ _ := .noSuch
  getDeclaredMethods _ := [overload .integer, overload .string]
  getDeclaredConstructors _ := []
  isAssignable types parameters := types = parameters.map some
  compareParameterTypes _ _ _ := 0

/-- Two calls with one array: of a number, and of a text. -/
def numberThenText : List (Call Overloads Overloads) :=
  [.callStaticMethod .target "m" [some .integer], .callStaticMethod .target "m" [some .string]]

/-- **The second call resolves the method for the first argument.** -/
theorem second_overload_missed :
    (calls overloads id).outputs ⟨Caches.empty, [none]⟩ numberThenText =
        [.ok (.method (overload .integer)), .ok (.method (overload .integer))] ∧
      (freshCalls overloads id [none]).outputs Caches.empty numberThenText =
        [.ok (.method (overload .integer)), .ok (.method (overload .string))] ∧
      ((calls overloads id).run ⟨Caches.empty, [none]⟩ numberThenText).parameterTypes =
        [some .integer] := by
  refine ⟨rfl, rfl, rfl⟩

end Helpers

end Dynamicloader
