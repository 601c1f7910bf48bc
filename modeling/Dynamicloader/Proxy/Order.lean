import Dynamicloader.Proxy.Model
import Dynamicloader.Service.Removal
/-!
# The order of the calls

A call that waits in its thread is overtaken by every later call that finds
the service bound, and the threads wake in any order. The registry is then
not the one the client asked for.

As long as no call reaches the service while an earlier one still waits,
the calls are handled in the order in which they were made: `InOrder` holds
along the run, with the registry that the handled calls lead to. A call can
be handled twice, when the reply of a retry is lost; the second time it
changes nothing.
-/

namespace Dynamicloader

namespace Proxy

open Service (Caller Durable registered)

variable {caller : Caller} {x : State} {s s' s₀ : Service.State}

/-- The registry, in memory and as stored. -/
def registry (s : Service.State) : List Service.ModuleInfo × Service.Prefs :=
  (s.moduleList, s.prefs)

namespace Operation

/-- `addModule` and `removeModule`. -/
def changes : Operation → Bool
  | .checkModuleExist _ _ _ => false
  | _ => true

/-- The service behind an operation. -/
def apply (caller : Caller) (s : Service.State) (op : Operation) : Service.State :=
  (op.serve caller s).2

theorem apply_of_not_changes {op : Operation} (h : op.changes = false) : op.apply caller s = s := by
  cases op with
  | checkModuleExist p q m => rfl
  | _ => simp [changes] at h

theorem durable_apply (hs : Durable s) (op : Operation) : Durable (op.apply caller s) := by
  cases op with
  | addModule p q m => exact hs.effect (Service.step_effect "" s (.addModule caller p q m))
  | removeModule p q => exact hs.effect (Service.step_effect "" s (.removeModule caller p q))
  | checkModuleExist p q m => exact hs

/-- What an operation does to the registry is decided by the registry. -/
theorem registry_apply_congr (h : registry s = registry s') (op : Operation) :
    registry (op.apply caller s) = registry (op.apply caller s') := by
  obtain ⟨hlist, hprefs⟩ := Prod.mk.inj h
  cases op with
  | addModule p q m =>
    simp only [apply, serve, Service.addModule, hlist]
    split
    · exact h
    · exact h
    · split
      · exact h
      · simp only [registry, hprefs]
      · exact h
  | removeModule p q =>
    simp only [apply, serve, Service.removeModule, hlist]
    split
    · exact h
    · exact h
    · split
      · exact h
      · exact h
      · simp only [registry, hprefs]
  | checkModuleExist p q m => exact h

/-- **A second time changes nothing.** -/
theorem registry_apply_twice (hs : Durable s) (op : Operation) :
    registry (op.apply caller (op.apply caller s)) = registry (op.apply caller s) := by
  cases op with
  | addModule p q m =>
    simp only [apply, serve]
    rcases Service.addModule_cases caller p q m s with ⟨-, heq⟩ | ⟨hnot, heq⟩
    · -- the entry just made is found
      rw [heq]
      rcases Service.addModule_cases caller p q m (s.register ⟨p, q, m⟩) with ⟨hreg, -⟩ | ⟨-, heq'⟩
      · have hnone := Service.registered_eq_none.mp (Service.firstMatch_isKey hreg.2).symm
        exact absurd rfl (hnone ⟨p, q, m⟩ (by simp [Service.State.register]))
      · rw [heq']
    · rw [heq, heq]
  | removeModule p q =>
    simp only [apply, serve]
    rcases Service.removeModule_cases caller p q s with ⟨mi, hreg, heq⟩ | ⟨heq, -⟩
    · have hunlisted := Service.removeModule_unlisted hs (congrArg Prod.fst heq)
      rcases Service.removeModule_cases caller p q (Service.removeModule caller p q s).2 with
        ⟨mi', hreg', -⟩ | ⟨heq', -⟩
      · obtain ⟨hmem, hkey⟩ := Service.registered_eq_some hreg'
        exact absurd hkey (hunlisted mi' hmem)
      · rw [heq']
    · rw [heq, heq]
  | checkModuleExist p q m => rfl

end Operation

/-- The calls that ask for a change, in the order they were made. -/
def State.issued (x : State) : List Operation := (x.calls.map Call.op).filter Operation.changes

/-- Of them, those the service has handled. -/
def done (calls : List Call) : List Operation :=
  (calls.filter fun c => c.op.changes && c.handled).map Call.op

theorem done_append (l₁ l₂ : List Call) : done (l₁ ++ l₂) = done l₁ ++ done l₂ := by
  simp only [done, List.filter_append, List.map_append]

theorem done_cons (c : Call) (l : List Call) :
    done (c :: l) = (if c.op.changes && c.handled then [c.op] else []) ++ done l := by
  simp only [done, List.filter_cons]
  split <;> rfl

/-- When every change has been handled, nothing is left out. -/
theorem done_eq_issued (h : ∀ c ∈ x.calls, c.op.changes → c.handled) :
    done x.calls = x.issued := by
  rw [State.issued, List.filter_map, done]
  congr 1
  refine List.filter_congr fun c hc => ?_
  rcases hch : c.op.changes
  · simp [hch]
  · simp [hch, h c hc hch]

/-! ## What the client asked for -/

/-- The `addModule` or `removeModule` call an event is. -/
def Event.change : Event → Option Operation
  | .addModule p q m _ => some (.addModule p q m)
  | .removeModule p q _ => some (.removeModule p q)
  | _ => none

theorem issued_request (direct op : Operation) (t : Transaction) :
    (request caller direct op t x).2.issued = x.issued ++ [op].filter Operation.changes := by
  rw [request]
  split <;> simp only [State.issued, List.map_append, List.map_cons, List.map_nil,
    List.filter_append]

theorem op_awake (c : Call) (connected : Bool) (t : Transaction) (s : Service.State) :
    (c.awake caller connected t s).1.op = c.op := by
  cases connected with
  | false => rfl
  | true => cases t <;> rfl

/-- The calls around the one whose thread is meant. -/
theorem calls_of_drop {n : ℕ} {c : Call} {l₂ : List Call} (h : x.calls.drop n = c :: l₂) :
    x.calls = x.calls.take n ++ c :: l₂ := by
  rw [← h, List.take_append_drop]

/-- One call is replaced by one of the same operation. -/
theorem issued_update {l₁ l₂ : List Call} {c c' : Call} (hl : x.calls = l₁ ++ c :: l₂)
    (hop : c'.op = c.op) (s : Service.State) :
    State.issued { x with service := s, calls := l₁ ++ c' :: l₂ } = x.issued := by
  simp only [State.issued, hl, List.map_append, List.map_cons, hop]

theorem issued_wake (n : ℕ) (t : Transaction) : (wake caller n t x).issued = x.issued := by
  rw [wake, List.splitAt_eq]
  rcases hdrop : x.calls.drop n with _ | ⟨c, l₂⟩
  · rfl
  have hl := calls_of_drop hdrop
  simp only
  split
  · exact issued_update hl (op_awake c x.connected t x.service) _
  · rfl

theorem issued_abandon (n : ℕ) : (abandon n x).issued = x.issued := by
  rw [abandon, List.splitAt_eq]
  rcases hdrop : x.calls.drop n with _ | ⟨c, l₂⟩
  · rfl
  have hl := calls_of_drop hdrop
  have hop : ({ c with waiting := false } : Call).op = c.op := rfl
  exact issued_update hl hop x.service

theorem issued_step (x : State) (e : Event) :
    (step caller x e).1.issued = x.issued ++ e.change.toList := by
  cases e with
  | addModule p q m t => exact issued_request _ _ t
  | removeModule p q t => exact issued_request _ _ t
  | checkModuleExist p q m t => exact issued_request _ _ t
  | wake n t => exact (issued_wake n t).trans (List.append_nil _).symm
  | abandon n => exact (issued_abandon n).trans (List.append_nil _).symm
  | _ => exact (List.append_nil _).symm

/-- **The record is what the client did**: the changes issued in a run are its
`addModule` and `removeModule` events, in their order. -/
theorem issued_run (x : State) (es : List Event) :
    ((step caller).run x es).issued = x.issued ++ es.filterMap Event.change := by
  induction es generalizing x with
  | nil => rw [Machine.run_nil, List.filterMap_nil, List.append_nil]
  | cons e es ih =>
    rw [Machine.run_cons, ih, issued_step, List.append_assoc, List.filterMap_cons]
    rcases e.change with _ | op <;> rfl

/-! ## Runs that keep the order -/

/-- No change among these calls waits in its thread. -/
def NoneWaits (calls : List Call) : Prop := ∀ c ∈ calls, c.op.changes → c.waiting = false

/-- **The event does not overtake a call.** A call that reaches the service
finds no earlier change waiting. The removal that `checkModuleExist` asks
for finds nothing to remove. -/
def Event.KeepsOrder (caller : Caller) (x : State) : Event → Prop
  | .addModule _ _ _ t => x.connected → t ≠ .lost → NoneWaits x.calls
  | .removeModule _ _ t => x.connected → t ≠ .lost → NoneWaits x.calls
  | .checkModuleExist p q _ t => x.connected → t ≠ .lost →
    ¬ (Service.verifyCallerPerm caller = .ok true ∧
      ∃ mi, Service.firstMatch (Service.isKey p q) x.service.moduleList = .ok (some mi))
  | .wake n t => x.connected → t ≠ .lost →
    ∀ c ∈ x.calls[n]?, c.waiting → c.op.changes → NoneWaits (x.calls.take n)
  | _ => True

/-- **The calls handled so far were handled in order**, from `s₀` on: they
lead to the registry, and no change waits before one that was handled. -/
structure InOrder (caller : Caller) (s₀ : Service.State) (x : State) : Prop where
  durable : Durable x.service
  registry_eq : registry x.service =
    registry ((done x.calls).foldl (Operation.apply caller) s₀)
  behind : x.calls.Pairwise fun c d =>
    c.op.changes → c.waiting → d.op.changes → d.handled = false

theorem durable_foldl (hs : Durable s₀) (ops : List Operation) :
    Durable (ops.foldl (Operation.apply caller) s₀) := by
  induction ops generalizing s₀ with
  | nil => exact hs
  | cons op ops ih => exact ih (Operation.durable_apply hs op)

theorem transact_service (op : Operation) (t : Transaction) (s : Service.State) :
    (transact caller op t s).2 = if t = .lost then s else op.apply caller s := by
  cases t <;> rfl

/-- A call that is not a change, or has not reached the service. -/
theorem InOrder.append_idle (h : InOrder caller s₀ x) {c : Call}
    (hc : c.op.changes → c.handled = false) : InOrder caller s₀ { x with calls := x.calls ++ [c] } := by
  have hdone : done [c] = [] := by
    rcases hch : c.op.changes
    · simp [done, hch]
    · simp [done, hch, hc hch]
  refine ⟨h.durable, ?_, ?_⟩
  · rw [done_append, hdone, List.append_nil]
    exact h.registry_eq
  · rw [List.pairwise_append]
    refine ⟨h.behind, List.pairwise_singleton _ _, fun d _ c' hc' _ _ hch => ?_⟩
    rw [List.mem_singleton.mp hc'] at hch ⊢
    exact hc hch

/-- A change that is handled when it is made. -/
theorem InOrder.append_handled (h : InOrder caller s₀ x) {op : Operation} (hop : op.changes)
    (hnone : NoneWaits x.calls) :
    InOrder caller s₀ { x with
      service := op.apply caller x.service
      calls := x.calls ++ [{ op := op, handled := true }] } := by
  refine ⟨Operation.durable_apply h.durable op, ?_, ?_⟩
  · have hdone : done [{ op := op, handled := true }] = [op] := by simp [done, hop]
    rw [done_append, hdone, List.foldl_append]
    exact Operation.registry_apply_congr h.registry_eq op
  · rw [List.pairwise_append]
    refine ⟨h.behind, List.pairwise_singleton _ _, fun d hd _ _ hch hwait => ?_⟩
    rw [hnone d hd hch] at hwait
    exact absurd hwait Bool.false_ne_true

theorem InOrder.request (h : InOrder caller s₀ x) {op : Operation} {t : Transaction}
    (hop : op.changes) (hkeeps : x.connected → t ≠ .lost → NoneWaits x.calls) :
    InOrder caller s₀ (request caller op op t x).2 := by
  rw [Proxy.request]
  split
  · rename_i hconn
    simp only [transact_service]
    by_cases ht : t = .lost
    · simp only [ht, ↓reduceIte]
      exact h.append_idle fun _ => by simp
    · simp only [ht, ↓reduceIte, ne_eq, not_false_eq_true, decide_true]
      exact h.append_handled hop (hkeeps hconn ht)
  · exact h.append_idle fun _ => rfl

/-- The removal a query asks for finds nothing. -/
theorem removeModule_eq_of_not {p q : Option String}
    (h : ¬ (Service.verifyCallerPerm caller = .ok true ∧
      ∃ mi, Service.firstMatch (Service.isKey p q) s.moduleList = .ok (some mi))) :
    (Service.removeModule caller p q s).2 = s := by
  unfold Service.removeModule
  rcases hperm : Service.verifyCallerPerm caller with e | _ | _
  · rfl
  · rfl
  · rcases hfirst : Service.firstMatch (Service.isKey p q) s.moduleList with e | _ | mi
    · rfl
    · rfl
    · exact absurd ⟨hperm, mi, hfirst⟩ h

theorem InOrder.query (h : InOrder caller s₀ x) {p q m : Option String} {t : Transaction}
    (hkeeps : x.connected → t ≠ .lost →
      ¬ (Service.verifyCallerPerm caller = .ok true ∧
        ∃ mi, Service.firstMatch (Service.isKey p q) x.service.moduleList = .ok (some mi))) :
    InOrder caller s₀ (checkModuleExist caller p q m t x).2 := by
  rw [checkModuleExist, Proxy.request]
  have hidle (c : Call) (hc : c.op = .checkModuleExist p q m) :
      InOrder caller s₀ { x with calls := x.calls ++ [c] } :=
    h.append_idle fun hch => by simp [hc, Operation.changes] at hch
  split
  · rename_i hconn
    have hservice : (transact caller (.removeModule p q) t x.service).2 = x.service := by
      rw [transact_service]
      split
      · rfl
      · rename_i ht
        exact removeModule_eq_of_not (hkeeps hconn ht)
    simp only [hservice]
    exact hidle _ rfl
  · exact hidle _ rfl

/-! ## The threads -/

/-- One call of the list is replaced by one of the same operation. The order
is kept if it does not become handled, and does not start to wait. -/
theorem InOrder.update_idle (h : InOrder caller s₀ x) {l₁ l₂ : List Call} {c c' : Call}
    (hl : x.calls = l₁ ++ c :: l₂) (hop : c'.op = c.op)
    (hc : c.op.changes → c'.handled = c.handled ∧ (c'.waiting → c.waiting)) :
    InOrder caller s₀ { x with calls := l₁ ++ c' :: l₂ } := by
  have hdone : done (l₁ ++ c' :: l₂) = done x.calls := by
    rw [hl, done_append, done_append, done_cons, done_cons, hop]
    rcases hch : c.op.changes
    · simp
    · simp [(hc hch).1]
  have hbehind := h.behind
  rw [hl, List.pairwise_append, List.pairwise_cons] at hbehind
  obtain ⟨h₁, ⟨hcl, h₂⟩, hcross⟩ := hbehind
  refine ⟨h.durable, by rw [hdone]; exact h.registry_eq, ?_⟩
  rw [List.pairwise_append, List.pairwise_cons]
  refine ⟨h₁, ⟨fun d hd hch hwait => ?_, h₂⟩, fun d hd e he => ?_⟩
  · rw [hop] at hch
    exact hcl d hd hch ((hc hch).2 hwait)
  · rcases List.mem_cons.mp he with rfl | he
    · intro hch hwait hch'
      rw [hop] at hch'
      rw [(hc hch').1]
      exact hcross d hd c List.mem_cons_self hch hwait hch'
    · exact hcross d hd e (List.mem_cons_of_mem _ he)

/-- A change that waits is handled, and no change before it waits. The ones
behind it have not been handled, because it was waiting. -/
theorem InOrder.update_handled (h : InOrder caller s₀ x) (hs₀ : Durable s₀) {l₁ l₂ : List Call}
    {c c' : Call} (hl : x.calls = l₁ ++ c :: l₂) (hop : c'.op = c.op) (hch : c.op.changes)
    (hwait : c.waiting) (hnone : NoneWaits l₁) (hc : c'.handled = true) :
    InOrder caller s₀ { x with
      service := c.op.apply caller x.service
      calls := l₁ ++ c' :: l₂ } := by
  have hbehind := h.behind
  rw [hl, List.pairwise_append, List.pairwise_cons] at hbehind
  obtain ⟨h₁, ⟨hcl, h₂⟩, hcross⟩ := hbehind
  have hl₂ : done l₂ = [] := by
    rw [done, List.map_eq_nil_iff, List.filter_eq_nil_iff]
    intro d hd hboth
    rw [Bool.and_eq_true] at hboth
    rw [hcl d hd hch hwait hboth.1] at hboth
    exact absurd hboth.2 Bool.false_ne_true
  have hregistry := h.registry_eq
  rw [hl, done_append, done_cons, hl₂, List.append_nil, hch, Bool.true_and] at hregistry
  refine ⟨Operation.durable_apply h.durable _, ?_, ?_⟩
  · rw [done_append, done_cons, hl₂, hop, hch, hc, List.append_nil, Bool.true_and, if_pos rfl,
      List.foldl_append]
    rcases hbefore : c.handled
    · rw [hbefore, if_neg Bool.false_ne_true, List.append_nil] at hregistry
      exact Operation.registry_apply_congr hregistry c.op
    · -- the reply of an earlier try was lost
      rw [hbefore, if_pos rfl, List.foldl_append] at hregistry
      exact (Operation.registry_apply_congr hregistry c.op).trans
        (Operation.registry_apply_twice (durable_foldl hs₀ _) c.op)
  · rw [List.pairwise_append, List.pairwise_cons]
    refine ⟨h₁, ⟨fun d hd _ _ => hcl d hd hch hwait, h₂⟩, fun d hd e he => ?_⟩
    rcases List.mem_cons.mp he with rfl | he
    · intro hch' hwait'
      rw [hnone d hd hch'] at hwait'
      exact absurd hwait' Bool.false_ne_true
    · exact hcross d hd e (List.mem_cons_of_mem _ he)

theorem InOrder.wake (h : InOrder caller s₀ x) (hs₀ : Durable s₀) {n : ℕ} {t : Transaction}
    (hkeeps : (Event.wake n t).KeepsOrder caller x) : InOrder caller s₀ (wake caller n t x) := by
  rw [Proxy.wake, List.splitAt_eq]
  rcases hdrop : x.calls.drop n with _ | ⟨c, l₂⟩
  · exact h
  have hl := calls_of_drop hdrop
  have hget : x.calls[n]? = some c := by
    rw [← List.head?_drop, hdrop]
    rfl
  simp only
  split
  · rename_i hwait
    rw [Call.awake]
    split
    · rename_i hconn
      by_cases ht : t = .lost
      · subst ht
        simp only [transact]
        refine h.update_idle hl rfl fun _ => ⟨by simp, fun _ => hwait⟩
      · -- the transaction has been handled, whether or not its reply comes back
        have hservice : (transact caller c.op t x.service).2 = c.op.apply caller x.service := by
          rw [transact_service, if_neg ht]
        have hupdate (c' : Call) (hop : c'.op = c.op) (hc : c'.handled = true) :
            InOrder caller s₀ { x with
              service := c.op.apply caller x.service
              calls := x.calls.take n ++ c' :: l₂ } := by
          by_cases hch : c.op.changes
          · exact h.update_handled hs₀ hl hop hch hwait (hkeeps hconn ht c hget hwait hch) hc
          · rw [Operation.apply_of_not_changes (Bool.eq_false_iff.mpr hch)]
            exact h.update_idle hl hop fun hch' => absurd hch' hch
        rcases hr : transact caller c.op t x.service with ⟨r, s'⟩
        rw [hr] at hservice
        subst hservice
        rcases r with _ | r
        · exact hupdate _ rfl (by simp [ht])
        · exact hupdate _ rfl rfl
    · exact h.update_idle hl rfl fun _ => ⟨rfl, fun _ => hwait⟩
  · exact h

theorem InOrder.abandon (h : InOrder caller s₀ x) (n : ℕ) : InOrder caller s₀ (abandon n x) := by
  rw [Proxy.abandon, List.splitAt_eq]
  rcases hdrop : x.calls.drop n with _ | ⟨c, l₂⟩
  · exact h
  have hl := calls_of_drop hdrop
  exact h.update_idle hl rfl fun _ => ⟨rfl, fun hwait => by simp at hwait⟩

/-- **An event that keeps the order.** -/
theorem InOrder.step (h : InOrder caller s₀ x) (hs₀ : Durable s₀) (e : Event)
    (he : e.KeepsOrder caller x) : InOrder caller s₀ (step caller x e).1 := by
  cases e with
  | onServiceConnected => exact ⟨h.durable, h.registry_eq, h.behind⟩
  | onServiceDisconnected => exact ⟨h.durable, h.registry_eq, h.behind⟩
  | addModule p q m t => exact h.request rfl he
  | removeModule p q t => exact h.request rfl he
  | checkModuleExist p q m t => exact h.query he
  | wake n t => exact h.wake hs₀ he
  | abandon n => exact h.abandon n
  | restart =>
    have hstart : registry (Service.start x.service.prefs) = registry x.service :=
      Prod.ext h.durable.start_moduleList rfl
    have hdurable : Durable (Service.start x.service.prefs) :=
      h.durable.effect (Service.step_effect "" x.service .restart)
    exact ⟨hdurable, hstart.trans h.registry_eq, h.behind⟩

/-- **The calls take effect in the order in which they were made**, in every
run in which no call reaches the service while an earlier one waits: the
calls issued are the `addModule` and `removeModule` events of the run, and
once all have been handled, the registry is the one they lead to. -/
theorem calls_in_order {es : List Event} (hs : Durable x.service) (hx : x.calls = [])
    (hes : (step caller).Along (fun x e => e.KeepsOrder caller x) x es)
    (hall : ∀ c ∈ ((step caller).run x es).calls, c.op.changes → c.handled) :
    ((step caller).run x es).issued = es.filterMap Event.change ∧
      registry ((step caller).run x es).service =
        registry (((step caller).run x es).issued.foldl (Operation.apply caller) x.service) := by
  have hinit : InOrder caller x.service x := by
    refine ⟨hs, ?_, ?_⟩
    · rw [hx]
      rfl
    · rw [hx]
      exact List.Pairwise.nil
  have h := Machine.run_along (fun y e he hy => InOrder.step hy hs e he) hes hinit
  refine ⟨?_, by rw [h.registry_eq, done_eq_issued hall]⟩
  rw [issued_run, State.issued, hx]
  rfl

/-- A registration made before the service is bound, and a removal made
after: the removal is handled first, and the module stays registered. -/
theorem calls_overtaken :
    let x := (step Service.systemCaller).run { service := Service.initial }
      [.addModule (some "a") (some "b") (some "/c.jar") .answered, .onServiceConnected,
        .removeModule (some "a") (some "b") .answered, .wake 0 .answered]
    (∀ c ∈ x.calls, c.op.changes → c.handled) ∧
      x.service.moduleList = [⟨some "a", some "b", some "/c.jar"⟩] ∧
      (x.issued.foldl (Operation.apply Service.systemCaller) Service.initial).moduleList = [] := by
  intro x
  have hcalls : x.calls =
      [{ op := .addModule (some "a") (some "b") (some "/c.jar"), handled := true },
        { op := .removeModule (some "a") (some "b"), handled := true }] := rfl
  refine ⟨fun c hc _ => ?_, rfl, rfl⟩
  rw [hcalls] at hc
  rcases List.mem_cons.mp hc with rfl | hc
  · rfl
  · rw [List.mem_singleton.mp hc]

/-- The same calls, the second made after the first has been handled. -/
theorem calls_in_order_bound :
    let x := (step Service.systemCaller).run { service := Service.initial }
      [.addModule (some "a") (some "b") (some "/c.jar") .answered, .onServiceConnected,
        .wake 0 .answered, .removeModule (some "a") (some "b") .answered]
    x.issued = [.addModule (some "a") (some "b") (some "/c.jar"),
        .removeModule (some "a") (some "b")] ∧
      registry x.service =
        registry (x.issued.foldl (Operation.apply Service.systemCaller) Service.initial) := by
  intro x
  have hcalls : x.calls =
      [{ op := .addModule (some "a") (some "b") (some "/c.jar"), handled := true },
        { op := .removeModule (some "a") (some "b"), handled := true }] := rfl
  refine calls_in_order Service.durable_initial rfl ⟨?_, trivial, ?_, ?_, trivial⟩ fun c hc _ => ?_
  · intro hconn
    exact absurd hconn Bool.false_ne_true
  · intro _ _ c _ _ _ d hd
    exact absurd hd List.not_mem_nil
  · intro _ _ c hc _
    rw [List.mem_singleton.mp hc]
    rfl
  · change c ∈ x.calls at hc
    rw [hcalls] at hc
    rcases List.mem_cons.mp hc with rfl | hc
    · rfl
    · rw [List.mem_singleton.mp hc]

end Proxy

end Dynamicloader
