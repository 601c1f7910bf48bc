import Dynamicloader.Art.Leaves
/-!
# A hook lasts

Whatever happens in the runtime, one operation at a time, a method that has been
hooked leads to the handler with the information of the one hook that took effect
(`hook_lasts`).

Between the two halves of a hook this may go wrong: a native function that
another thread registers there takes the place of the information.
-/

namespace Dynamicloader

namespace Art

variable {n k : ℕ} {Info : Type}

/-- What a call of the method comes to: the handler, with what the hook left
for it. -/
structure Trapped (n : ℕ) (m : ArtMethod k Info) (info : XposedHookInfo Info) : Prop where
  quickCode : m.entryPointFromQuickCompiledCode = some .proxyInvokeHandler
  interpreter : m.entryPointFromInterpreter = .toCompiledCode
  jni : m.entryPointFromJni = .hookInfo info
  reflected : info.reflectedMethod.artMethod = info.originalMethod
  clone : n ≤ info.originalMethod

/-- The hooks of a method that took effect. -/
def installed (p : Fin n) : Out Info → Option Info
  | .hooking q additionalInfo .hooked => if q = p then some additionalInfo else none
  | _ => none

/-- The information a hooked method has. -/
def hookOf (s : Runtime k Info) (p : Ptr) : Option Info :=
  (s.methods[p]?).bind fun m =>
    if m.isXposedHookedMethod then m.getXposedHookInfo.map (·.additionalInfo) else none

/-- What is true of a runtime and of the hooks there have been. -/
structure Hooked (D : Dex n k) (s : Runtime k Info) (log : List (Out Info)) : Prop where
  kept : Kept D s
  found : ∀ (p : Fin n) (m : ArtMethod k Info), s.methods[(p : ℕ)]? = some m →
    m.isXposedHookedMethod = true → ∃ info, m.entryPointFromJni = .hookInfo info ∧
      info.reflectedMethod.artMethod = info.originalMethod ∧ info.originalMethod < s.methods.length
  hooks : ∀ p : Fin n, log.filterMap (installed p) = (hookOf s p).toList

namespace Hooked

variable {D : Dex n k} {s s' : Runtime k Info} {log out : List (Out Info)}

theorem leaves (h : Hooked D s log) (hs : Leaves s s')
    (hout : ∀ p : Fin n, out.filterMap (installed p) = []) : Hooked D s' (log ++ out) where
  kept := h.kept.leaves hs
  found p m' hm' hh := by
    obtain ⟨m, hm, hstays⟩ := hs.exists_from hm'
    rw [hstays.isXposedHookedMethod] at hh
    obtain ⟨m'', hm'', -, hsame⟩ := hs.methods p m hm
    obtain rfl := Option.some.inj (hm'.symm.trans hm'')
    obtain rfl := hsame hh
    rw [hs.length]
    exact h.found p _ hm hh
  hooks p := by
    obtain ⟨m, hm, -⟩ := h.kept.declared p
    obtain ⟨m', hm', hstays, hsame⟩ := hs.methods p m hm
    rw [List.filterMap_append, hout, List.append_nil, h.hooks, hookOf, hookOf, hm, hm',
      Option.bind_some, Option.bind_some, hstays.isXposedHookedMethod]
    by_cases hh : m.isXposedHookedMethod = true
    · rw [hsame hh]
    · rw [if_neg hh, if_neg hh]

theorem withThreads (h : Hooked D s log) (threadList : List (List Frame)) :
    Hooked D { s with threadList := threadList } log :=
  ⟨h.kept.withThreads threadList, h.found, h.hooks⟩

variable {p : Fin n} {m : ArtMethod k Info} (additionalInfo : Info)

theorem install (h : Hooked D s log) (hm : s.methods[(p : ℕ)]? = some m)
    (hstatus : s.status m.declaringClass ≠ .absent) (hhooked : m.isXposedHookedMethod = false) :
    Hooked D (s.install p m additionalInfo) (log ++ [Out.hooking p additionalInfo .hooked]) where
  kept := by
    obtain ⟨x, hx, hclass, -⟩ := h.kept.declared p
    obtain rfl := Option.some.inj (hm.symm.trans hx)
    exact (h.kept.prepare hm hhooked additionalInfo).intercept (hclass ▸ hstatus)
  found q x hx hh := by
    rw [Runtime.length_install]
    by_cases hq : q = p
    · subst hq
      obtain rfl := Option.some.inj
        (hx.symm.trans (Runtime.getElem?_install_self additionalInfo hm))
      exact ⟨_, rfl, rfl, Nat.lt_succ_self _⟩
    · have hne : (q : ℕ) ≠ p := fun heq => hq (Fin.ext heq)
      obtain ⟨y, hy, -⟩ := h.kept.declared q
      obtain rfl := Option.some.inj
        (hx.symm.trans (Runtime.getElem?_install_of_ne additionalInfo hne hy))
      obtain ⟨info, hjni, hreflected, hlt⟩ := h.found q _ hy hh
      exact ⟨info, hjni, hreflected, Nat.lt_succ_of_lt hlt⟩
  hooks q := by
    rw [List.filterMap_append, h.hooks]
    by_cases hq : q = p
    · subst hq
      have hnew : hookOf (s.install q m additionalInfo) q = some additionalInfo := by
        rw [hookOf, Runtime.getElem?_install_self additionalInfo hm, Option.bind_some,
          ArtMethod.hooked, if_pos (ArtMethod.isXposedHookedMethod_intercepted _)]
        rfl
      have hold : hookOf s q = none := by
        rw [hookOf, hm, Option.bind_some, if_neg (by simp [hhooked])]
      rw [hnew, hold]
      simp [installed]
    · have hne : (q : ℕ) ≠ p := fun heq => hq (Fin.ext heq)
      obtain ⟨x, hx, -⟩ := h.kept.declared q
      have hsame : hookOf (s.install p m additionalInfo) q = hookOf s q := by
        rw [hookOf, hookOf, Runtime.getElem?_install_of_ne additionalInfo hne hx, hx]
      rw [hsame]
      simp [installed, hne.symm]

/-- A hook that does not take effect changes nothing. -/
theorem hook (h : Hooked D s log) {p : Ptr} (hloaded : s.isLoaded p = true)
    {x : Runtime k Info × Runtime.Hooking} (hx : s.enableXposedHook p additionalInfo = some x) :
    Hooked D x.1 (log ++ [Out.hooking p additionalInfo x.2]) := by
  obtain ⟨m, hm, hstatus⟩ := Runtime.exists_of_isLoaded hloaded
  obtain ⟨y, hy, rfl⟩ := Option.map_eq_some_iff.mp hx
  rcases Runtime.enableUntilResumeAll_cases additionalInfo hm with
    ⟨-, heq⟩ | ⟨-, -, heq⟩ | ⟨hhooked, hclone, heq⟩
  all_goals obtain rfl := Option.some.inj (heq.symm.trans hy)
  · exact h.leaves (.refl s) fun q => rfl
  · exact h.leaves (.refl s) fun q => rfl
  · -- only a declared method is not a clone
    by_cases hlt : p < n
    · obtain ⟨q, rfl⟩ : ∃ q : Fin n, (q : ℕ) = p := ⟨⟨p, hlt⟩, rfl⟩
      exact h.install additionalInfo hm hstatus hhooked
    · have := (h.kept.clones p m (Nat.le_of_not_lt hlt) hm).2
      exact absurd (this.symm.trans hclone) (by simp)

theorem step (h : Hooked D s log) {op : Op n k Info} {x : Runtime k Info × List (Out Info)}
    (hx : s.step D op = some x) : Hooked D x.1 (log ++ x.2) := by
  cases effect_step h.kept hx with
  | leaves hs hout =>
    refine h.leaves hs fun p => List.filterMap_eq_nil_iff.mpr fun y hy => ?_
    obtain ⟨r, rfl⟩ := hout y hy
    rfl
  | hook _ hloaded henable => exact h.hook _ hloaded henable
  | @call thread p _ =>
    obtain ⟨threadList, heq⟩ := call_eq s thread p
    rw [List.append_nil, heq]
    exact h.withThreads threadList
  | leave thread =>
    rw [List.append_nil]
    exact h.withThreads _

end Hooked

theorem hooked_boot (D : Dex n k) (forcedInterpretOnly : Bool) (threads : ℕ) :
    Hooked D (boot D forcedInterpretOnly threads : Runtime k Info) [] := by
  have hplain (p : Fin n) :
      ((D.declared p).unlinked : ArtMethod k Info).isXposedHookedMethod = false :=
    (D.declared p).has_unlinked (by decide)
  refine ⟨kept_boot D forcedInterpretOnly threads, fun p m hm hh => ?_, fun p => ?_⟩
  · obtain rfl := Option.some.inj ((getElem?_boot D forcedInterpretOnly threads p).symm.trans hm)
    exact absurd (hh.symm.trans (hplain p)) (by simp)
  · rw [hookOf, getElem?_boot, Option.bind_some, hplain]
    rfl

theorem hooked_run (D : Dex n k) (forcedInterpretOnly : Bool) (threads : ℕ)
    (ops : List (Op n k Info)) {s : Runtime k Info}
    (hs : (Runtime.machine D).run (some (boot D forcedInterpretOnly threads)) ops = some s) :
    Hooked D s ((Runtime.machine D).outputs (some (boot D forcedInterpretOnly threads)) ops) := by
  have hboot : ∀ s : Runtime k Info, some (boot D forcedInterpretOnly threads) = some s →
      Hooked D s [] := by
    intro s hs
    obtain rfl := Option.some.inj hs
    exact hooked_boot D forcedInterpretOnly threads
  refine Machine.run_outputs_invariant (M := Runtime.machine D)
    (J := fun o log => ∀ s, o = some s → Hooked D s log) ?_ hboot ops s hs
  intro o op log hJ s' hs'
  cases o with
  | none => cases hs'
  | some s =>
    obtain ⟨x, hx, rfl⟩ := Option.map_eq_some_iff.mp hs'
    rw [Runtime.machine, hx]
    exact (hJ s rfl).step hx

/-- **A hook lasts.** In every run of a runtime, one operation at a time, a
declared method is hooked if and only if one hook of it has taken effect, and
never more than one does. From then on, whatever else is done, compiled code that
calls the method enters the handler, the interpreter goes to compiled code, and
the handler finds what this one hook left, with a clone that is not hooked
itself. -/
theorem hook_lasts (D : Dex n k) (forcedInterpretOnly : Bool) (threads : ℕ)
    (ops : List (Op n k Info)) {s : Runtime k Info}
    (hs : (Runtime.machine D).run (some (boot D forcedInterpretOnly threads)) ops = some s)
    (p : Fin n) :
    let outs := (Runtime.machine D).outputs (some (boot D forcedInterpretOnly threads)) ops
    let hooks := outs.filterMap (installed p)
    ∃ m, s.methods[(p : ℕ)]? = some m ∧
      ((m.isXposedHookedMethod = false ∧ hooks = []) ∨
        (m.isXposedHookedMethod = true ∧ ∃ info, Trapped n m info ∧
          hooks = [info.additionalInfo] ∧ ∃ clone, s.methods[info.originalMethod]? = some clone ∧
            clone.isXposedOriginalMethod = true ∧ clone.isXposedHookedMethod = false)) := by
  intro outs hooks
  have h := hooked_run D forcedInterpretOnly threads ops hs
  obtain ⟨m, hm, -, -, hhooked⟩ := h.kept.declared p
  have hinfos : hooks = (hookOf s p).toList := h.hooks p
  rw [hookOf, hm, Option.bind_some] at hinfos
  refine ⟨m, hm, ?_⟩
  by_cases hh : m.isXposedHookedMethod = true
  · obtain ⟨-, hquick, hinterpreter⟩ := hhooked hh
    obtain ⟨info, hjni, hreflected, hlt⟩ := h.found p m hm hh
    have hle := h.kept.infos p m info hm hjni
    have hclone := List.getElem?_eq_getElem hlt
    obtain ⟨hplain, horiginal⟩ := h.kept.clones _ _ hle hclone
    rw [if_pos hh, ArtMethod.getXposedHookInfo, hjni] at hinfos
    exact .inr ⟨hh, info, ⟨hquick, hinterpreter, hjni, hreflected, hle⟩, hinfos, _, hclone,
      horiginal, hplain⟩
  · rw [if_neg hh] at hinfos
    exact .inl ⟨Bool.eq_false_iff.mpr hh, hinfos⟩

/-- The method runs when it is hooked, is called again, and is hooked once more. -/
def hookedWhileRunning (p : Fin n) (c : Fin k) : List (Op n k ℕ) :=
  [.loadClass c, .call 0 p, .hook p 7, .call 0 p, .hook p 8]

theorem hook_lasts_first : ∃ s m, (Runtime.machine oneNative).run (some (boot oneNative false 1))
    (hookedWhileRunning 0 0) = some s ∧ s.methods[0]? = some m ∧ ∃ info, Trapped 1 m info ∧
      info.additionalInfo = 7 := by
  obtain ⟨s, hs⟩ : ∃ s, (Runtime.machine oneNative).run (some (boot oneNative false 1))
      (hookedWhileRunning 0 0) = some s := ⟨_, rfl⟩
  have hhooks : ((Runtime.machine oneNative).outputs (some (boot oneNative false 1))
      (hookedWhileRunning 0 0)).filterMap (installed (0 : Fin 1)) = [7] := rfl
  obtain ⟨m, hm, h⟩ := hook_lasts oneNative false 1 (hookedWhileRunning 0 0) hs 0
  rcases h with ⟨-, hnone⟩ | ⟨-, info, htrapped, hone, -⟩
  · cases hhooks.symm.trans hnone
  · exact ⟨s, m, hs, hm, info, htrapped, (List.cons.inj (hhooks.symm.trans hone)).1.symm⟩

end Art

end Dynamicloader
