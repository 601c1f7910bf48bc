import Dynamicloader.Common.Memo
import Dynamicloader.Helpers.Reflection
/-!
# Helpers — what the caches answer

The exact lookups, together, are a memo of the uncached searches: its keys
are the texts, each in one of three maps (`step_eq_lookup`). So a sequence
of lookups is answered as without the maps exactly where no two lookups
with one text would be answered differently (`answers_eq_iff`). Two classes
of one name are enough for that to fail (`namesake_answered`).

Where classes have names of their own and no name has a separator in it,
a text determines its lookup and the maps are not noticed
(`answers_eq_of_named`).
-/

namespace Dynamicloader

namespace Helpers

inductive Member (C : Type) where
  | field (f : Field C)
  | method (m : Method C)
  | constructor (k : Constructor C)
  deriving DecidableEq

inductive Lookup (C : Type) where
  | findField (c : C) (fieldName : String)
  | findMethodExact (c : C) (methodName : String) (types : List (Option C))
  | findConstructorExact (c : C) (types : List (Option C))
  deriving DecidableEq

abbrev Answer (C : Type) := Except Failure (Member C)

variable {C : Type} [DecidableEq C] (r : Runtime C)

/-- **The lookups**; the output of each is its answer. -/
def lookups : Machine (Caches C) (Lookup C) (Answer C)
  | s, .findField c fieldName =>
    let (answer, s) := findField r c fieldName s
    (s, [answer.map .field])
  | s, .findMethodExact c methodName types =>
    let (answer, s) := findMethodExact r c methodName types s
    (s, [answer.map .method])
  | s, .findConstructorExact c types =>
    let (answer, s) := findConstructorExact r c types s
    (s, [answer.map .constructor])

/-! ## Without the maps -/

/-- What a search would be answered with. -/
def Found.answer {α : Type} (error : Failure) : Found α → Except Failure α
  | .member m => .ok m
  | .noSuch => .error error
  | .throws t => .error (.other t)

/-- **The uncached lookup** on this class and these types. -/
def uncached : Lookup C → Answer C
  | .findField c fieldName =>
    ((findFieldRecursiveImpl r c fieldName).answer
      (.noSuchFieldError (fullFieldName r c fieldName))).map .field
  | .findMethodExact c methodName types =>
    ((r.getDeclaredMethod c methodName types).answer
      (.noSuchMethodError (fullMethodName r "#exact" c methodName types))).map .method
  | .findConstructorExact c types =>
    ((r.getDeclaredConstructor c types).answer
      (.noSuchMethodError (fullConstructorName r "#exact" c types))).map .constructor

/-- A member is kept, and that there is none. -/
def Answer.kept : Answer C → Bool
  | .error (.other _) => false
  | _ => true

/-! ## The caches as a memo -/

/-- A text in one of the maps. -/
inductive Slot where
  | field (key : String)
  | method (key : String)
  | constructor (key : String)
  deriving DecidableEq

def Lookup.slot : Lookup C → Slot
  | .findField c fieldName => .field (fullFieldName r c fieldName)
  | .findMethodExact c methodName types => .method (fullMethodName r "#exact" c methodName types)
  | .findConstructorExact c types => .constructor (fullConstructorName r "#exact" c types)

/-- What is answered from a value of a map. -/
def stored {α : Type} (error : Failure) : Option α → Except Failure α
  | some m => .ok m
  | none => .error error

def Caches.memo (s : Caches C) : Slot → Option (Answer C)
  | .field key =>
    (s.fieldCache key).map fun v => (stored (.noSuchFieldError key) v).map .field
  | .method key =>
    (s.methodCache key).map fun v => (stored (.noSuchMethodError key) v).map .method
  | .constructor key =>
    (s.constructorCache key).map fun v => (stored (.noSuchMethodError key) v).map .constructor

omit [DecidableEq C] in
theorem memo_fieldCache (s : Caches C) (key : String) (v : Option (Field C)) :
    { s with fieldCache := Function.update s.fieldCache key (some v) }.memo =
      Function.update s.memo (.field key)
        (some ((stored (.noSuchFieldError key) v).map .field)) := by
  funext slot
  cases slot with
  | field key' =>
    by_cases h : key' = key
    · subst h
      simp [Caches.memo]
    · simp [Caches.memo, h]
  | method key' => simp [Caches.memo]
  | constructor key' => simp [Caches.memo]

omit [DecidableEq C] in
theorem memo_methodCache (s : Caches C) (key : String) (v : Option (Method C)) :
    { s with methodCache := Function.update s.methodCache key (some v) }.memo =
      Function.update s.memo (.method key)
        (some ((stored (.noSuchMethodError key) v).map .method)) := by
  funext slot
  cases slot with
  | method key' =>
    by_cases h : key' = key
    · subst h
      simp [Caches.memo]
    · simp [Caches.memo, h]
  | field key' => simp [Caches.memo]
  | constructor key' => simp [Caches.memo]

omit [DecidableEq C] in
theorem memo_constructorCache (s : Caches C) (key : String) (v : Option (Constructor C)) :
    { s with constructorCache := Function.update s.constructorCache key (some v) }.memo =
      Function.update s.memo (.constructor key)
        (some ((stored (.noSuchMethodError key) v).map .constructor)) := by
  funext slot
  cases slot with
  | constructor key' =>
    by_cases h : key' = key
    · subst h
      simp [Caches.memo]
    · simp [Caches.memo, h]
  | field key' => simp [Caches.memo]
  | method key' => simp [Caches.memo]

/-- A lookup in one map: the map answers, or the search does and its answer is put
in the map, or the search throws something else. -/
theorem searchCached_cases {α : Type} (error : String → Failure) (key : String) (search : Found α)
    (cache : NameMap α) :
    (∃ v, cache key = some v ∧
        searchCached error key search cache = (stored (error key) v, cache)) ∨
      (cache key = none ∧ ∃ v, search.answer (error key) = stored (error key) v ∧
        searchCached error key search cache =
          (stored (error key) v, Function.update cache key (some v))) ∨
      (cache key = none ∧ ∃ t, search.answer (error key) = .error (.other t) ∧
        searchCached error key search cache = (.error (.other t), cache)) := by
  unfold searchCached
  cases h : cache key with
  | some v =>
    left
    refine ⟨v, rfl, ?_⟩
    cases v with
    | none => rfl
    | some m => rfl
  | none =>
    right
    cases search with
    | member m => exact Or.inl ⟨rfl, some m, rfl, rfl⟩
    | noSuch => exact Or.inl ⟨rfl, none, rfl, rfl⟩
    | throws t => exact Or.inr ⟨rfl, t, rfl, rfl⟩

omit [DecidableEq C] in
/-- What a map answers is an answer that is kept. -/
theorem kept_stored {α : Type} (wrap : α → Member C) {error : Failure}
    (herror : ∀ t, error ≠ .other t) (v : Option α) :
    Answer.kept ((stored error v).map wrap) = true := by
  cases v with
  | some m => rfl
  | none =>
    cases error with
    | other t => exact absurd rfl (herror t)
    | _ => rfl

variable {r} in
/-- **A lookup in one map is one in the memo.** `put` is the caches with another such
map. -/
theorem searchCached_eq_lookup {α : Type} (put : NameMap α → Caches C) {call : Lookup C}
    {error : String → Failure} {key : String} {search : Found α} {wrap : α → Member C}
    {cache : NameMap α}
    (hsearch : uncached r call = (search.answer (error key)).map wrap)
    (hkept : ∀ v, Answer.kept ((stored (error key) v).map wrap) = true)
    (hget : (put cache).memo (call.slot r) =
      (cache key).map fun v => (stored (error key) v).map wrap)
    (hput : ∀ v, (put (Function.update cache key (some v))).memo =
      Function.update (put cache).memo (call.slot r) (some ((stored (error key) v).map wrap))) :
    ((searchCached error key search cache).1.map wrap,
        (put (searchCached error key search cache).2).memo) =
      Memo.lookup (Lookup.slot r) Answer.kept (uncached r) (put cache).memo call := by
  rcases searchCached_cases error key search cache with
    ⟨v, hkey, heq⟩ | ⟨hkey, v, hv, heq⟩ | ⟨hkey, t, ht, heq⟩
  · rw [heq, Memo.lookup_of_some (by rw [hget, hkey]; rfl)]
  · rw [heq, Memo.lookup_of_none (by rw [hget, hkey]; rfl), hsearch, hv, if_pos (hkept v), hput]
  · rw [heq, Memo.lookup_of_none (by rw [hget, hkey]; rfl), hsearch, ht]
    rfl

/-- **A lookup is one in the memo.** -/
theorem step_eq_lookup (s : Caches C) (call : Lookup C) :
    ∃ answer, (lookups r s call).2 = [answer] ∧
      (answer, (lookups r s call).1.memo) =
        Memo.lookup (Lookup.slot r) Answer.kept (uncached r) s.memo call := by
  cases call with
  | findField c fieldName =>
    exact ⟨_, rfl, searchCached_eq_lookup (fun cache => { s with fieldCache := cache }) rfl
      (kept_stored _ (by simp)) rfl (memo_fieldCache s _)⟩
  | findMethodExact c methodName types =>
    exact ⟨_, rfl, searchCached_eq_lookup (fun cache => { s with methodCache := cache }) rfl
      (kept_stored _ (by simp)) rfl (memo_methodCache s _)⟩
  | findConstructorExact c types =>
    exact ⟨_, rfl, searchCached_eq_lookup (fun cache => { s with constructorCache := cache }) rfl
      (kept_stored _ (by simp)) rfl (memo_constructorCache s _)⟩

/-- **A sequence of lookups is one in the memo.** -/
theorem outputs_eq_memo (s : Caches C) (calls : List (Lookup C)) :
    (lookups r).outputs s calls =
      (Memo.machine (Lookup.slot r) Answer.kept (uncached r)).outputs s.memo calls := by
  induction calls generalizing s with
  | nil => rfl
  | cons call calls ih =>
    obtain ⟨answer, hanswer, hstep⟩ := step_eq_lookup r s call
    rw [Machine.outputs_cons, Machine.outputs_cons, ih, hanswer]
    show _ = [(Memo.lookup (Lookup.slot r) Answer.kept (uncached r) s.memo call).1] ++
      (Memo.machine (Lookup.slot r) Answer.kept (uncached r)).outputs
        (Memo.lookup (Lookup.slot r) Answer.kept (uncached r) s.memo call).2 calls
    rw [← hstep]

theorem outputs_empty (calls : List (Lookup C)) :
    (lookups r).outputs Caches.empty calls =
      (Memo.machine (Lookup.slot r) Answer.kept (uncached r)).outputs (fun _ => none) calls := by
  have hempty : (Caches.empty : Caches C).memo = fun _ => none := by
    funext slot
    cases slot with
    | field key => rfl
    | method key => rfl
    | constructor key => rfl
  rw [outputs_eq_memo, hempty]

/-- **All lookups are answered as without the maps if and only if** no two of them
with the same text in the same map would be answered differently, unless
the first ends in a throwable that is not kept. -/
theorem answers_eq_iff (calls : List (Lookup C)) :
    (lookups r).outputs Caches.empty calls = calls.map (uncached r) ↔
      calls.Pairwise fun call call' =>
        call.slot r = call'.slot r → (uncached r call).kept = true →
          uncached r call = uncached r call' := by
  rw [outputs_empty]
  exact Memo.outputs_eq_map_iff calls

/-- Two classes of one name, from two loaders, each with a field x; neither has a
canonical name. Only a method of the first takes the first as its parameter. -/
def namesakes : Runtime Bool where
  getName _ := "Plugin"
  getCanonicalName _ := none
  objectClass := false
  superclasses _ := []
  getDeclaredField c fieldName := if fieldName = "x" then .member ⟨c, "x"⟩ else .noSuch
  getDeclaredMethod c methodName types :=
    if types = [some c] then .member ⟨c, methodName, [c], false⟩ else .noSuch
  getDeclaredConstructor _ _ := .noSuch
  getDeclaredMethods _ := []
  getDeclaredConstructors _ := []
  isAssignable _ _ := false
  compareParameterTypes _ _ _ := 0

/-- **A lookup on one class is answered for its namesake**, and one with a type that
has no canonical name for another type. -/
theorem namesake_answered :
    (lookups namesakes).outputs Caches.empty [.findField false "x", .findField true "x"] =
        [.ok (.field ⟨false, "x"⟩), .ok (.field ⟨false, "x"⟩)] ∧
      uncached namesakes (.findField true "x") = .ok (.field ⟨true, "x"⟩) ∧
      (lookups namesakes).outputs Caches.empty
          [.findMethodExact false "m" [some true], .findMethodExact false "m" [some false]] =
        [.error (.noSuchMethodError "Plugin#m(null)#exact"),
          .error (.noSuchMethodError "Plugin#m(null)#exact")] ∧
      uncached namesakes (.findMethodExact false "m" [some false]) =
        .ok (.method ⟨false, "m", [false], false⟩) := by
  refine ⟨rfl, rfl, rfl, rfl⟩

/-! ## Names of their own -/

/-- **Names that determine classes**, free of what the texts put between them. -/
structure Named (r : Runtime C) : Prop where
  name : Function.Injective r.getName
  canonicalName : Function.Injective (typeText r)
  hash : ∀ c, '#' ∉ (r.getName c).toList
  bracket : ∀ c, '(' ∉ (r.getName c).toList
  comma : ∀ t, ',' ∉ (typeText r t).toList
  nonempty : ∀ t, (typeText r t).toList ≠ []

/-- A method's name has no bracket. -/
def Lookup.Plain : Lookup C → Prop
  | .findMethodExact _ methodName _ => '(' ∉ methodName.toList
  | _ => True

/-- What stands before the first separator is determined, and what stands behind it. -/
theorem append_cons_inj_of_notMem_left {α : Type*} {a : α} {x y z w : List α} (hx : a ∉ x)
    (hy : a ∉ y) (h : x ++ a :: z = y ++ a :: w) : x = y ∧ z = w := by
  induction x generalizing y with
  | nil =>
    cases y with
    | nil => exact ⟨rfl, (List.cons.inj h).2⟩
    | cons b y =>
      obtain ⟨rfl, -⟩ := List.cons.inj h
      exact absurd List.mem_cons_self hy
  | cons b x ih =>
    cases y with
    | nil =>
      obtain ⟨rfl, -⟩ := List.cons.inj h
      exact absurd List.mem_cons_self hx
    | cons b' y =>
      obtain ⟨rfl, htail⟩ := List.cons.inj h
      obtain ⟨rfl, rfl⟩ := ih (fun hmem => hx (List.mem_cons_of_mem _ hmem))
        (fun hmem => hy (List.mem_cons_of_mem _ hmem)) htail
      exact ⟨rfl, rfl⟩

theorem intercalate_inj {α : Type*} [DecidableEq α] {a : α} {ls ls' : List (List α)}
    (hls : ∀ l ∈ ls, a ∉ l ∧ l ≠ []) (hls' : ∀ l ∈ ls', a ∉ l ∧ l ≠ [])
    (h : [a].intercalate ls = [a].intercalate ls') : ls = ls' := by
  -- a list that is joined to nothing is empty, as no part is
  have hempty : ∀ {ls : List (List α)}, (∀ l ∈ ls, a ∉ l ∧ l ≠ []) →
      [a].intercalate ls = [] → ls = [] := by
    intro ls hls hnil
    by_contra hne
    have hsplit := List.splitOn_intercalate a (fun l hl => (hls l hl).1) hne
    rw [hnil] at hsplit
    exact (hls [] (by rw [← hsplit]; simp)).2 rfl
  by_cases hne : ls = []
  · subst hne
    exact (hempty hls' h.symm).symm
  · by_cases hne' : ls' = []
    · subst hne'
      exact hempty hls h
    · rw [← List.splitOn_intercalate a (fun l hl => (hls l hl).1) hne, h,
        List.splitOn_intercalate a (fun l hl => (hls' l hl).1) hne']

variable {r}

omit [DecidableEq C] in
/-- The text of the parameters determines them. -/
theorem getParametersString_inj (hr : Named r) {types types' : List (Option C)}
    (h : getParametersString r types = getParametersString r types') : types = types' := by
  have hlists := congrArg String.toList h
  simp only [getParametersString, String.toList_append, String.toList_intercalate] at hlists
  have hjoined := List.append_cancel_left (List.append_cancel_right hlists)
  have htexts : ∀ ts : List (Option C), ∀ l ∈ (ts.map (typeText r)).map String.toList,
      ',' ∉ l ∧ l ≠ [] := by
    intro ts l hl
    simp only [List.map_map, List.mem_map, Function.comp_apply] at hl
    obtain ⟨t, -, rfl⟩ := hl
    exact ⟨hr.comma t, hr.nonempty t⟩
  have hmap := intercalate_inj (htexts types) (htexts types') hjoined
  rw [List.map_map, List.map_map] at hmap
  refine List.map_injective_iff.mpr ?_ hmap
  exact fun t t' htt => hr.canonicalName (String.toList_inj.mp htt)

omit [DecidableEq C] in
/-- The same behind a name without a bracket. -/
theorem append_getParametersString_inj (hr : Named r) {x y kind : List Char}
    {types types' : List (Option C)} (hx : '(' ∉ x) (hy : '(' ∉ y)
    (h : x ++ ((getParametersString r types).toList ++ kind) =
      y ++ ((getParametersString r types').toList ++ kind)) : x = y ∧ types = types' := by
  have hopen : ∀ ts : List (Option C), ∃ l, (getParametersString r ts).toList = '(' :: l := by
    intro ts
    simp [getParametersString, String.toList_append]
  obtain ⟨l, hl⟩ := hopen types
  obtain ⟨l', hl'⟩ := hopen types'
  rw [hl, hl'] at h
  obtain ⟨hname, hrest⟩ := append_cons_inj_of_notMem_left hx hy h
  refine ⟨hname, getParametersString_inj hr (String.toList_inj.mp ?_)⟩
  rw [hl, hl', List.append_cancel_right hrest]

omit [DecidableEq C] in
/-- **A text determines its lookup.** -/
theorem slot_inj (hr : Named r) {call call' : Lookup C} (hplain : call.Plain)
    (hplain' : call'.Plain) (h : call.slot r = call'.slot r) : call = call' := by
  cases call with
  | findField c fieldName =>
    cases call' with
    | findField c' fieldName' =>
      have hlists := congrArg String.toList (Slot.field.inj h)
      simp only [fullFieldName, String.toList_append, List.append_assoc] at hlists
      obtain ⟨hname, hfield⟩ := append_cons_inj_of_notMem_left (hr.hash c) (hr.hash c') hlists
      obtain rfl := hr.name (String.toList_inj.mp hname)
      rw [String.toList_inj.mp hfield]
    | findMethodExact c' methodName' types' => cases h
    | findConstructorExact c' types' => cases h
  | findMethodExact c methodName types =>
    cases call' with
    | findField c' fieldName' => cases h
    | findMethodExact c' methodName' types' =>
      have hlists := congrArg String.toList (Slot.method.inj h)
      simp only [fullMethodName, String.toList_append, List.append_assoc] at hlists
      obtain ⟨hname, hrest⟩ := append_cons_inj_of_notMem_left (hr.hash c) (hr.hash c') hlists
      obtain ⟨hmethod, rfl⟩ := append_getParametersString_inj hr hplain hplain' hrest
      obtain rfl := hr.name (String.toList_inj.mp hname)
      rw [String.toList_inj.mp hmethod]
    | findConstructorExact c' types' => cases h
  | findConstructorExact c types =>
    cases call' with
    | findField c' fieldName' => cases h
    | findMethodExact c' methodName' types' => cases h
    | findConstructorExact c' types' =>
      have hlists := congrArg String.toList (Slot.constructor.inj h)
      simp only [fullConstructorName, String.toList_append, List.append_assoc] at hlists
      obtain ⟨hname, rfl⟩ :=
        append_getParametersString_inj hr (hr.bracket c) (hr.bracket c') hlists
      obtain rfl := hr.name (String.toList_inj.mp hname)
      rfl

/-- **The maps are not noticed** where classes have names of their own. -/
theorem answers_eq_of_named (hr : Named r) {calls : List (Lookup C)}
    (hplain : ∀ call ∈ calls, call.Plain) :
    (lookups r).outputs Caches.empty calls = calls.map (uncached r) := by
  rw [outputs_empty, Memo.outputs_eq_map_iff]
  refine List.pairwise_of_forall_mem_list fun call hcall call' hcall' hslot _ => ?_
  rw [slot_inj hr (hplain call hcall) (hplain call' hcall') hslot]

end Helpers

end Dynamicloader
