import Dynamicloader.Service.Model
/-!
# The registry and its store

The registry is flattened to a count and numbered keys. A removal leaves the
keys above the new count behind, and reading stops before them, so what is
written is read back over any older store (`read_write`).

Each call is described once: `addModule` registers a module or leaves the
state, `removeModule` takes one out or leaves the state. Both keep the keys
of the registry distinct and the store equal to it.
-/

namespace Dynamicloader

namespace Service

/-! ## Numbered keys -/

/-- The fields that are stored for each module. -/
def fields : List String := ["pkgName", "processName", "modulePath"]

theorem toString_nat_inj {i j : ℕ} (h : toString i = toString j) : i = j := by
  have hdigits : Nat.toDigits 10 i = Nat.toDigits 10 j := by
    have := congrArg String.toList h
    rwa [Nat.toString_eq_repr, Nat.toString_eq_repr, Nat.toList_repr, Nat.toList_repr] at this
  have := congrArg (Nat.ofDigitChars 10 · 0) hdigits
  simpa only [Nat.ofDigitChars_ten_toDigits] using this

/-- The first two letters of a key tell the field. -/
theorem take_fieldKey {f : String} (hf : f ∈ fields) (i : ℕ) :
    (fieldKey f i).toList.take 2 = f.toList.take 2 := by
  rw [fieldKey, String.toList_append, List.take_append_of_le_length]
  simp only [fields, List.mem_cons, List.not_mem_nil, or_false] at hf
  rcases hf with rfl | rfl | rfl <;> decide

theorem eq_of_take_eq {f g : String} (hf : f ∈ fields) (hg : g ∈ fields)
    (h : f.toList.take 2 = g.toList.take 2) : f = g := by
  simp only [fields, List.mem_cons, List.not_mem_nil, or_false] at hf hg
  rcases hf with rfl | rfl | rfl <;> rcases hg with rfl | rfl | rfl <;> simp_all

theorem fieldKey_inj {f g : String} (hf : f ∈ fields) (hg : g ∈ fields) {i j : ℕ}
    (h : fieldKey f i = fieldKey g j) : f = g ∧ i = j := by
  have hfg : f = g := by
    refine eq_of_take_eq hf hg ?_
    rw [← take_fieldKey hf i, ← take_fieldKey hg j, h]
  subst hfg
  exact ⟨rfl, toString_nat_inj ((String.append_right_inj f).mp h)⟩

theorem appNums_ne_fieldKey {f : String} (hf : f ∈ fields) (i : ℕ) :
    fieldKey f i ≠ "AppNums" := by
  intro h
  have htake := take_fieldKey hf i
  rw [h] at htake
  simp only [fields, List.mem_cons, List.not_mem_nil, or_false] at hf
  rcases hf with rfl | rfl | rfl <;> simp at htake

/-! ## Writing and reading back -/

theorem moduleEdits_key {index : ℕ} {l : List ModuleInfo} :
    ∀ e ∈ moduleEdits index l, ∃ f ∈ fields, ∃ i, index ≤ i ∧ e.1 = fieldKey f i := by
  induction l generalizing index with
  | nil => simp [moduleEdits]
  | cons mi rest ih =>
    intro e he
    simp only [moduleEdits, List.mem_cons] at he
    rcases he with rfl | rfl | rfl | he
    · exact ⟨"pkgName", by simp [fields], index, Nat.le_refl _, rfl⟩
    · exact ⟨"processName", by simp [fields], index, Nat.le_refl _, rfl⟩
    · exact ⟨"modulePath", by simp [fields], index, Nat.le_refl _, rfl⟩
    · obtain ⟨f, hf, i, hi, hkey⟩ := ih e he
      exact ⟨f, hf, i, by omega, hkey⟩

/-- Later modules do not touch the keys of an earlier one. -/
theorem commit_moduleEdits_of_lt (p : Prefs) {index i : ℕ} (hi : i < index)
    (l : List ModuleInfo) {f : String} (hf : f ∈ fields) :
    p.commit (moduleEdits index l) (fieldKey f i) = p (fieldKey f i) := by
  refine p.commit_of_notMem fun e he heq => ?_
  obtain ⟨g, hg, j, hj, hkey⟩ := moduleEdits_key e he
  have := (fieldKey_inj hg hf (hkey.symm.trans heq)).2
  omega

theorem getString_eq {p : Prefs} {key : String} {s : Option String}
    (h : p key = s.map .string) : getString p key = .ok s := by
  cases s <;> simp [getString, h]

theorem readModules_moduleEdits (p : Prefs) (index : ℕ) (l : List ModuleInfo) :
    readModules (p.commit (moduleEdits index l)) index l.length = .ok l := by
  induction l generalizing p index with
  | nil => rfl
  | cons mi rest ih =>
    have hpkg : "pkgName" ∈ fields := by simp [fields]
    have hproc : "processName" ∈ fields := by simp [fields]
    have hpath : "modulePath" ∈ fields := by simp [fields]
    have hne {f g : String} (hf : f ∈ fields) (hg : g ∈ fields) (hfg : f ≠ g) :
        fieldKey f index ≠ fieldKey g index := fun h => hfg (fieldKey_inj hf hg h).1
    simp only [moduleEdits, putString, Store.commit_cons, List.length_cons, readModules]
    rw [getString_eq (s := mi.pkgName), getString_eq (s := mi.processName),
      getString_eq (s := mi.modulePath), ih]
    · rfl
    · rw [commit_moduleEdits_of_lt _ (Nat.lt_succ_self index) rest hpath, Function.update_self]
    · rw [commit_moduleEdits_of_lt _ (Nat.lt_succ_self index) rest hproc,
        Function.update_of_ne (hne hproc hpath (by simp)), Function.update_self]
    · rw [commit_moduleEdits_of_lt _ (Nat.lt_succ_self index) rest hpkg,
        Function.update_of_ne (hne hpkg hpath (by simp)),
        Function.update_of_ne (hne hpkg hproc (by simp)), Function.update_self]

/-- **What is written is read back**, over any older store. -/
theorem read_write (l : List ModuleInfo) (p : Prefs) :
    readSharedPreferences (writeSharedPreferences l p) = .ok l := by
  have hnums : writeSharedPreferences l p "AppNums" = some (.int l.length) := by
    refine p.commit_of_first fun e he heq => ?_
    obtain ⟨f, hf, i, -, hkey⟩ := moduleEdits_key e he
    exact appNums_ne_fieldKey hf i (hkey.symm.trans heq)
  have hget : getInt (writeSharedPreferences l p) "AppNums" (-1) = .ok (l.length : ℤ) := by
    simp [getInt, hnums]
  rw [readSharedPreferences, hget]
  exact readModules_moduleEdits _ 1 l

/-! ## The loops over the registry -/

/-- The key a module is registered under. -/
def ModuleInfo.key (mi : ModuleInfo) : Option String × Option String := (mi.pkgName, mi.processName)

variable {p q m : Option String} {l : List ModuleInfo} {s : State}

theorem isKey_ok {mi : ModuleInfo} {b : Bool} (h : isKey p q mi = .ok b) :
    b = decide (mi.key = (p, q)) := by
  rcases p with _ | p
  · exact absurd h (by simp [isKey, equals, bind, Except.bind])
  · by_cases hp : mi.pkgName = some p
    · rcases q with _ | q
      · simp [isKey, equals, bind, Except.bind, hp] at h
      · have : decide (mi.processName = some q) = b := by
          simpa [isKey, equals, bind, Except.bind, hp] using h
        simp [ModuleInfo.key, hp, ← this]
    · have : false = b := by
        simpa [isKey, equals, bind, Except.bind, hp, pure, Except.pure] using h
      simp [ModuleInfo.key, hp, ← this]

theorem isKey_some (p q : String) (mi : ModuleInfo) :
    isKey (some p) (some q) mi = .ok (decide (mi.key = (some p, some q))) := by
  by_cases hp : mi.pkgName = some p
  · simp [isKey, equals, bind, Except.bind, hp, ModuleInfo.key]
  · simp [isKey, equals, bind, Except.bind, pure, Except.pure, hp, ModuleInfo.key]

theorem firstMatch_cons (test : ModuleInfo → Except Throwable Bool) (mi : ModuleInfo)
    (l : List ModuleInfo) :
    firstMatch test (mi :: l) =
      match test mi with
      | .error e => .error e
      | .ok true => .ok (some mi)
      | .ok false => firstMatch test l := by
  rw [firstMatch]
  rcases test mi with e | b
  · rfl
  · cases b <;> rfl

/-- A loop that ends without exception has found what there is to find. -/
theorem firstMatch_ok {test : ModuleInfo → Except Throwable Bool} {P : ModuleInfo → Bool}
    (htest : ∀ mi b, test mi = .ok b → b = P mi) {r : Option ModuleInfo}
    (h : firstMatch test l = .ok r) : r = l.find? P := by
  induction l with
  | nil => exact (Except.ok.inj h).symm
  | cons mi l ih =>
    rw [firstMatch_cons] at h
    rcases ht : test mi with e | b
    · simp [ht] at h
    · have hP := htest mi b ht
      cases b with
      | true =>
        rw [ht] at h
        rw [List.find?_cons_of_pos hP.symm]
        exact (Except.ok.inj h).symm
      | false =>
        rw [ht] at h
        rw [List.find?_cons_of_neg (by simp [← hP])]
        exact ih h

/-- A loop whose test never throws does not either. -/
theorem firstMatch_total {test : ModuleInfo → Except Throwable Bool} {P : ModuleInfo → Bool}
    (htest : ∀ mi ∈ l, test mi = .ok (P mi)) : firstMatch test l = .ok (l.find? P) := by
  induction l with
  | nil => rfl
  | cons mi l ih =>
    rw [List.forall_mem_cons] at htest
    rw [firstMatch_cons, htest.1]
    cases hP : P mi with
    | true => rw [List.find?_cons_of_pos hP]
    | false =>
      rw [List.find?_cons_of_neg (by simp [hP])]
      exact ih htest.2

/-- What the registry holds for a key. -/
def registered (p q : Option String) (l : List ModuleInfo) : Option ModuleInfo :=
  l.find? fun mi => decide (mi.key = (p, q))

theorem firstMatch_isKey {r : Option ModuleInfo} (h : firstMatch (isKey p q) l = .ok r) :
    r = registered p q l :=
  firstMatch_ok (fun _ _ => isKey_ok) h

theorem firstMatch_isKey_some (p q : String) (l : List ModuleInfo) :
    firstMatch (isKey (some p) (some q)) l = .ok (registered (some p) (some q) l) :=
  firstMatch_total fun mi _ => isKey_some p q mi

theorem registered_eq_none : registered p q l = none ↔ ∀ mi ∈ l, mi.key ≠ (p, q) := by
  simp [registered]

theorem registered_eq_some {mi : ModuleInfo} (h : registered p q l = some mi) :
    mi ∈ l ∧ mi.key = (p, q) :=
  ⟨List.mem_of_find?_eq_some h, by simpa using List.find?_some h⟩

theorem registered_of_mem {mi : ModuleInfo} (hmem : mi ∈ l) (hkey : mi.key = (p, q)) :
    ∃ mi', registered p q l = some mi' := by
  rw [← Option.isSome_iff_exists, registered, List.find?_isSome]
  exact ⟨mi, hmem, by simpa using hkey⟩

theorem isModule_ok {mi : ModuleInfo} {b : Bool} (h : isModule p q m mi = .ok b) :
    b = decide (mi = ⟨p, q, m⟩) := by
  rcases hkey : isKey p q mi with e | b'
  · simp [isModule, hkey, bind, Except.bind] at h
  · have hb' := isKey_ok hkey
    cases b' with
    | false =>
      have hne : mi ≠ ⟨p, q, m⟩ := by
        rintro rfl
        simp [ModuleInfo.key] at hb'
      have hb : false = b := by
        simpa [isModule, hkey, bind, Except.bind, pure, Except.pure] using h
      simp [← hb, hne]
    | true =>
      have hk : mi.key = (p, q) := by simpa using hb'.symm
      rcases m with _ | m
      · simp [isModule, hkey, bind, Except.bind, equals] at h
      · have hb : decide (mi.modulePath = some m) = b := by
          simpa [isModule, hkey, bind, Except.bind, equals] using h
        have hiff : mi.modulePath = some m ↔ mi = ⟨p, q, some m⟩ := by
          obtain ⟨rfl, rfl⟩ := Prod.mk.inj hk
          exact ⟨fun h => by rw [← h], fun h => by rw [h]⟩
        rw [← hb]
        exact decide_eq_decide.mpr hiff

theorem isModule_some (p q m : String) (mi : ModuleInfo) :
    isModule (some p) (some q) (some m) mi =
      .ok (decide (mi = ⟨some p, some q, some m⟩)) := by
  have hok : ∃ b, isModule (some p) (some q) (some m) mi = .ok b := by
    rw [isModule, isKey_some]
    cases decide (mi.key = (some p, some q)) with
    | false => exact ⟨false, rfl⟩
    | true => exact ⟨_, rfl⟩
  obtain ⟨b, hb⟩ := hok
  rw [hb, isModule_ok hb]

/-- A match was tested without exception. -/
theorem firstMatch_test {test : ModuleInfo → Except Throwable Bool} {l : List ModuleInfo}
    {mi : ModuleInfo} (h : firstMatch test l = .ok (some mi)) : mi ∈ l ∧ test mi = .ok true := by
  induction l with
  | nil => simp [firstMatch] at h
  | cons x l ih =>
    rw [firstMatch_cons] at h
    rcases hx : test x with e | _ | _
    · simp [hx] at h
    · rw [hx] at h
      obtain ⟨hmem, htest⟩ := ih h
      exact ⟨List.mem_cons_of_mem _ hmem, htest⟩
    · rw [hx] at h
      obtain rfl := Option.some.inj (Except.ok.inj h)
      exact ⟨List.mem_cons_self, hx⟩

theorem isKey_ne_none {mi : ModuleInfo} (h : isKey p q mi = .ok true) : p ≠ none ∧ q ≠ none := by
  have hkey : mi.key = (p, q) := by simpa using (isKey_ok h).symm
  obtain ⟨rfl, rfl⟩ := Prod.mk.inj hkey
  refine ⟨fun hp => ?_, fun hq => ?_⟩
  · simp [isKey, hp, equals, bind, Except.bind] at h
  · rcases hp : mi.pkgName with _ | a
    · simp [isKey, hp, equals, bind, Except.bind] at h
    · simp [isKey, hp, hq, equals, bind, Except.bind] at h

/-- A module that `checkModuleExist` reports is registered, and neither name
is null. -/
theorem checkModuleExist_mem (h : checkModuleExist p q m s = .ok 1) :
    p ≠ none ∧ q ≠ none ∧ ⟨p, q, m⟩ ∈ s.moduleList := by
  rcases hr : firstMatch (isModule p q m) s.moduleList with e | _ | mi
  · simp [checkModuleExist, hr, bind, Except.bind] at h
  · simp [checkModuleExist, hr, bind, Except.bind, pure, Except.pure] at h
  · obtain ⟨hmem, htest⟩ := firstMatch_test hr
    have hmi : mi = ⟨p, q, m⟩ := by simpa using (isModule_ok htest).symm
    subst hmi
    have hkey : isKey p q ⟨p, q, m⟩ = .ok true := by
      rcases hk : isKey p q ⟨p, q, m⟩ with e | _ | _
      · simp [isModule, hk, bind, Except.bind] at htest
      · simp [isModule, hk, bind, Except.bind, pure, Except.pure] at htest
      · rfl
    obtain ⟨hp, hq⟩ := isKey_ne_none hkey
    exact ⟨hp, hq, hmem⟩

theorem checkModuleExist_of_mem {p q m : String}
    (h : ⟨some p, some q, some m⟩ ∈ s.moduleList) :
    checkModuleExist (some p) (some q) (some m) s = .ok 1 := by
  have hfind : (s.moduleList.find? fun mi => decide (mi = ⟨some p, some q, some m⟩)).isSome := by
    rw [List.find?_isSome]
    exact ⟨_, h, by simp⟩
  have hfirst : firstMatch (isModule (some p) (some q) (some m)) s.moduleList =
      .ok (s.moduleList.find? fun mi => decide (mi = ⟨some p, some q, some m⟩)) :=
    firstMatch_total fun mi _ => isModule_some p q m mi
  simp only [checkModuleExist, hfirst, bind, Except.bind, hfind, pure, Except.pure, ↓reduceIte]

/-! ## The calls -/

/-- The call comes from a permitted caller and meets no entry for its key. -/
def Registers (caller : Caller) (p q : Option String) (s : State) : Prop :=
  verifyCallerPerm caller = .ok true ∧ firstMatch (isKey p q) s.moduleList = .ok none

/-- `mi` is put into the registry. -/
def State.register (s : State) (mi : ModuleInfo) : State :=
  { s with
    moduleList := s.moduleList ++ [mi]
    curAddModule := some mi
    queue := s.queue ++ [.checkProcessHadStartedBeforeAddmodule]
    prefs := writeSharedPreferences (s.moduleList ++ [mi]) s.prefs }

/-- `mi` is taken out of the registry. -/
def State.unregister (s : State) (mi : ModuleInfo) : State :=
  { s with
    moduleList := s.moduleList.erase mi
    prefs := writeSharedPreferences (s.moduleList.erase mi) s.prefs }

theorem addModule_of_registers {caller : Caller} (h : Registers caller p q s) :
    addModule caller p q m s = ((preloadDex m).map fun _ => 0, s.register ⟨p, q, m⟩) := by
  simp only [addModule, h.1, h.2, State.register]

/-- **What `addModule` can do.** -/
theorem addModule_cases (caller : Caller) (p q m : Option String) (s : State) :
    Registers caller p q s ∧ (addModule caller p q m s).2 = s.register ⟨p, q, m⟩ ∨
      ¬ Registers caller p q s ∧ (addModule caller p q m s).2 = s := by
  by_cases h : Registers caller p q s
  · exact Or.inl ⟨h, by rw [addModule_of_registers h]⟩
  · refine Or.inr ⟨h, ?_⟩
    unfold addModule
    rcases hperm : verifyCallerPerm caller with e | _ | _
    · rfl
    · rfl
    · rcases hfirst : firstMatch (isKey p q) s.moduleList with e | _ | mi
      · rfl
      · exact absurd ⟨hperm, hfirst⟩ h
      · rfl

/-- **What `removeModule` can do.** -/
theorem removeModule_cases (caller : Caller) (p q : Option String) (s : State) :
    (∃ mi, registered p q s.moduleList = some mi ∧
      (removeModule caller p q s) = (.ok 0, s.unregister mi)) ∨
    (removeModule caller p q s).2 = s ∧
      ((removeModule caller p q s).1 = .ok 0 → registered p q s.moduleList = none) := by
  unfold removeModule
  rcases verifyCallerPerm caller with e | _ | _
  · exact Or.inr ⟨rfl, fun h => by simp at h⟩
  · exact Or.inr ⟨rfl, fun h => by simp at h⟩
  · rcases hfirst : firstMatch (isKey p q) s.moduleList with e | _ | mi
    · exact Or.inr ⟨rfl, fun h => by simp at h⟩
    · exact Or.inr ⟨rfl, fun _ => (firstMatch_isKey hfirst).symm⟩
    · exact Or.inl ⟨mi, (firstMatch_isKey hfirst).symm, rfl⟩

end Service

end Dynamicloader
