import Dynamicloader.Proxy.Order
/-!
# The query

`checkModuleExist` through the proxy is the service's query where a retry
thread makes it, and a removal where the service is bound. The two agree
only where the removal removes nothing and says so as the query does.
-/

namespace Dynamicloader

namespace Proxy

open Service (Caller Throwable registered)

variable {caller : Caller} {x y : State} {s : Service.State} {p q m : Option String}

/-! ## Through a thread -/

/-- The connection comes and goes, and the thread of call `n` wakes or ends. -/
def Event.retries (n : ℕ) : Event → Prop
  | .onServiceConnected => True
  | .onServiceDisconnected => True
  | .wake k _ => k = n
  | .abandon k => k = n
  | _ => False

/-- The service is as it was, and call `n` is the query. -/
def Querying (p q m : Option String) (n : ℕ) (s : Service.State) (x : State) : Prop :=
  x.service = s ∧ ∃ (l₁ : List Call) (c : Call) (l₂ : List Call), x.calls = l₁ ++ c :: l₂ ∧ l₁.length = n ∧
    c.op = .checkModuleExist p q m

theorem splitAt_of_append {l₁ l₂ : List Call} {c : Call} {n : ℕ} (hl : x.calls = l₁ ++ c :: l₂)
    (hn : l₁.length = n) : x.calls.splitAt n = (l₁, c :: l₂) := by
  rw [List.splitAt_eq, hl, ← hn, List.take_left, List.drop_left]

/-- A query leaves the service as it is, however its transaction ends. -/
theorem awake_query (caller : Caller) {c : Call} (hc : c.op = .checkModuleExist p q m) (connected : Bool)
    (t : Transaction) (s : Service.State) :
    (c.awake caller connected t s).2 = s ∧
      (c.awake caller connected t s).1.op = .checkModuleExist p q m := by
  cases connected with
  | false => exact ⟨rfl, hc⟩
  | true => cases t <;> exact ⟨by simp [Call.awake, transact, hc, Operation.serve],
      by simp [Call.awake, transact, Call.again, hc]⟩

theorem Querying.step {n : ℕ} (h : Querying p q m n s x) {e : Event} (he : e.retries n) :
    Querying p q m n s (step caller x e).1 := by
  obtain ⟨hs, l₁, c, l₂, hl, hn, hc⟩ := h
  cases e with
  | onServiceConnected => exact ⟨hs, l₁, c, l₂, hl, hn, hc⟩
  | onServiceDisconnected => exact ⟨hs, l₁, c, l₂, hl, hn, hc⟩
  | wake k t =>
    obtain rfl : k = n := he
    simp only [Proxy.step, wake, splitAt_of_append hl hn]
    split
    · obtain ⟨hserv, hop⟩ := awake_query caller hc x.connected t x.service
      exact ⟨hserv.trans hs, l₁, _, l₂, rfl, hn, hop⟩
    · exact ⟨hs, l₁, c, l₂, hl, hn, hc⟩
  | abandon k =>
    obtain rfl : k = n := he
    simp only [Proxy.step, abandon, splitAt_of_append hl hn]
    exact ⟨hs, l₁, _, l₂, rfl, hn, hc⟩
  | _ => exact absurd he id

/-- **A query made through a thread changes nothing.** -/
theorem retry_query_frame (hx : x.connected = false) (t : Transaction) {es : List Event}
    (hes : ∀ e ∈ es, e.retries x.calls.length) :
    ((step caller).run (checkModuleExist caller p q m t x).2 es).service = x.service := by
  have hinit : Querying p q m x.calls.length x.service (checkModuleExist caller p q m t x).2 := by
    rw [checkModuleExist, request, hx]
    exact ⟨rfl, x.calls, _, [], rfl, rfl, rfl⟩
  have hstep : ∀ (y : State) (e : Event), e.retries x.calls.length →
      Querying p q m x.calls.length x.service y →
      Querying p q m x.calls.length x.service (step caller y e).1 := fun _ _ he h => h.step he
  exact (Machine.run_invariant hstep hes hinit).1

/-! ## Through the binder -/

/-- Where the loop over the keys finds nothing, the loop of the query ends in
the same way. -/
theorem firstMatch_isModule (l : List Service.ModuleInfo)
    (h : ∀ mi, Service.firstMatch (Service.isKey p q) l ≠ .ok (some mi)) :
    Service.firstMatch (Service.isModule p q m) l = Service.firstMatch (Service.isKey p q) l := by
  induction l with
  | nil => rfl
  | cons mi l ih =>
    rw [Service.firstMatch_cons] at h
    rw [Service.firstMatch_cons, Service.firstMatch_cons, Service.isModule]
    rcases hk : Service.isKey p q mi with e | _ | _
    · rfl
    · rw [hk] at h
      exact ih h
    · rw [hk] at h
      exact absurd rfl (h mi)

theorem checkModuleExist_ne_neg : Service.checkModuleExist p q m s ≠ .ok (-1) := by
  rw [Service.checkModuleExist]
  rcases Service.firstMatch (Service.isModule p q m) s.moduleList with e | r
  · simp [bind, Except.bind]
  · simp only [bind, Except.bind, pure, Except.pure, ne_eq, Except.ok.injEq]
    split <;> decide

/-- A removal that finds its module changes the registry. -/
theorem registry_unregister_ne {mi : Service.ModuleInfo}
    (h : registered p q s.moduleList = some mi) : registry (s.unregister mi) ≠ registry s := by
  intro heq
  have hlist : s.moduleList.erase mi = s.moduleList := (Prod.mk.inj heq).1
  have hmem := (Service.registered_eq_some h).1
  have hlen := congrArg List.length hlist
  rw [List.length_erase_of_mem hmem] at hlen
  have := List.length_pos_of_mem hmem
  omega

/-- The removal answers as the query does, and removes nothing. -/
def AnswersAlike (caller : Caller) (p q m : Option String) (s : Service.State) : Prop :=
  (Service.verifyCallerPerm caller = .ok true ∧
      ∀ mi, Service.firstMatch (Service.isKey p q) s.moduleList ≠ .ok (some mi)) ∨
    ∃ e, Service.verifyCallerPerm caller = .error e ∧ Service.checkModuleExist p q m s = .error e

theorem removeModule_query_iff :
    ((Service.removeModule caller p q s).1 = Service.checkModuleExist p q m s ∧
      registry (Service.removeModule caller p q s).2 = registry s) ↔
    AnswersAlike caller p q m s := by
  rw [AnswersAlike, Service.removeModule]
  rcases hperm : Service.verifyCallerPerm caller with e | _ | _
  · -- the permission check throws
    simp [eq_comm]
  · have hneg := (@checkModuleExist_ne_neg s p q m).symm
    simp [hneg]
  · have hcheck := @firstMatch_isModule p q m s.moduleList
    rcases hfirst : Service.firstMatch (Service.isKey p q) s.moduleList with e | _ | mi
    · rw [hfirst] at hcheck
      simp [Service.checkModuleExist, hcheck, bind, Except.bind]
    · rw [hfirst] at hcheck
      simp [Service.checkModuleExist, hcheck, bind, Except.bind, pure, Except.pure]
    · have hreg := (Service.firstMatch_isKey hfirst).symm
      have hne := registry_unregister_ne hreg
      simp only [Service.State.unregister] at hne
      simp [hne]

/-- **When the proxy's query is one.** For every state of the service: through
a thread it never changes the registry, and where the service is bound it
leaves the registry alone, whatever becomes of the transaction, and answers
as the service does exactly when the removal it asks for finds nothing and is
permitted, or is stopped by the exception that stops the query. -/
theorem checkModuleExist_queries_iff (caller : Caller) (p q m : Option String)
    (s : Service.State) :
    (∀ x : State, x.service = s →
      (x.connected = true →
        (checkModuleExist caller p q m .answered x).1 = Service.checkModuleExist p q m s ∧
          ∀ t, registry (checkModuleExist caller p q m t x).2.service = registry s) ∧
      (x.connected = false → ∀ t es, (∀ e ∈ es, e.retries x.calls.length) →
        registry ((step caller).run (checkModuleExist caller p q m t x).2 es).service =
          registry s)) ↔
    AnswersAlike caller p q m s := by
  have hbound (x : State) (hx : x.connected = true) :
      (checkModuleExist caller p q m .answered x).1 =
        (Service.removeModule caller p q x.service).1 := by
    simp [checkModuleExist, request, hx, transact, Operation.serve]
  have hservice (x : State) (hx : x.connected = true) (t : Transaction) :
      (checkModuleExist caller p q m t x).2.service =
        if t = .lost then x.service else (Service.removeModule caller p q x.service).2 := by
    rw [checkModuleExist, request, if_pos hx]
    exact transact_service _ t _
  constructor
  · intro h
    obtain ⟨hans, hregistry⟩ := (h { service := s, connected := true } rfl).1 rfl
    have hregistry := hregistry .answered
    rw [hbound _ rfl] at hans
    rw [hservice _ rfl] at hregistry
    exact removeModule_query_iff.mp ⟨hans, hregistry⟩
  · rintro h x rfl
    obtain ⟨hans, hregistry⟩ := removeModule_query_iff.mpr h
    refine ⟨fun hx => ⟨(hbound x hx).trans hans, fun t => ?_⟩, fun hx t es hes => ?_⟩
    · rw [hservice x hx]
      split
      · rfl
      · exact hregistry
    · rw [retry_query_frame hx t hes]

/-- Asked for a module that is registered, the proxy removes it and answers
that there is none. -/
theorem checkModuleExist_removes :
    let s := (Service.addModule Service.systemCaller (some "a") (some "b") (some "/c.jar")
      Service.initial).2
    let r := checkModuleExist Service.systemCaller (some "a") (some "b") (some "/c.jar") .answered
      { service := s, connected := true }
    Service.checkModuleExist (some "a") (some "b") (some "/c.jar") s = .ok 1 ∧
      r.1 = .ok 0 ∧ s.moduleList = [⟨some "a", some "b", some "/c.jar"⟩] ∧
      r.2.service.moduleList = [] :=
  ⟨rfl, rfl, rfl, rfl⟩

end Proxy

end Dynamicloader
