import Dynamicloader.Zygote.Sequential
/-!
# One client at a time

The service with its mutex and its condition variable is the sequential one,
whatever the schedule and however the sleepers are woken: the log of every run
is a log of the sequential service (`clients_take_turns`). So no request is
lost, answered twice or answered to another client, and the chunks of two
readers never mix.

`Sim` says where the sequential service is, from the points of the threads
and the page. Only the points between `waitForIdle` and `makeIdle` matter,
and only one client is at one of them.
-/

namespace Dynamicloader

namespace Zygote

open Monitor

variable {n : ℕ}

/-! ## Where the mutex is held -/

/-- The points between lock and unlock. -/
def Point.inside : Point → Bool
  | .starting | .started | .loop | .answered => true
  | .idleTest _ | .body _ | .calling _ | .responseTest _ | .leaving _ | .unlocking _ => true
  | _ => false

/-- The points behind a wait. -/
def Point.parks : Point → Bool
  | .loop | .idleTest _ | .responseTest _ => true
  | _ => false

/-- The points of a turn. -/
def Point.turn : Point → Bool
  | .body _ | .calling _ | .responseTest _ => true
  | _ => false

/-- The points of a client that is away from the service: behind `makeIdle`
it only reads the page, and `readFile` reads no `result` there. -/
def Point.away : Point → Bool
  | .out | .waitForIdle _ | .after _ | .errnoSet .. => true
  | .valueRead (.read ..) _ => false
  | .valueRead .. => true
  | _ => false

theorem Point.inside_of_away {l : Point} (h : l.away = true) : l.inside = false := by
  cases l with
  | out | waitForIdle f | after r | errnoSet r e | valueRead r e => rfl
  | _ => cases h

theorem Point.turn_of_away {l : Point} (h : l.away = true) : l.turn = false := by
  cases l with
  | out | waitForIdle f | after r | errnoSet r e | valueRead r e => rfl
  | _ => cases h

/-! ## What the code can do -/

/-- **The instructions that leave the page alone.** -/
inductive Goes (m : MemBasedState) : Point → Instr MemBasedState Point (Log n) → Prop where
  | looper : Goes m .looper (.lock .starting)
  | started : Goes m .started (.signal .loop)
  | loop (hstate : m.state ≠ .serviceAction) : Goes m .loop (.wait .loop)
  | answered : Goes m .answered (.signal .loop)
  | waitForIdle (f : Function) : Goes m (.waitForIdle f) (.lock (.idleTest f))
  | idleTest (f : Function) (hstate : m.state ≠ .idle) :
      Goes m (.idleTest f) (.wait (.idleTest f))
  | calling (l : Local) : Goes m (.calling l) (.signal (.responseTest l))
  | responseTest (l : Local) (hstate : m.state ≠ .serverResponse) :
      Goes m (.responseTest l) (.wait (.responseTest l))
  | leaving (r : Final) : Goes m (.leaving r) (.signal (.unlocking r))
  | unlocking (r : Final) : Goes m (.unlocking r) (.unlock (.after r))

/-- **The actions on the page.** -/
inductive Acts (files : Files) (m : MemBasedState) :
    Option (Fin n) → Point → MemBasedState → Point → List (Log n) → Prop where
  | starting : Acts files m none .starting { m with state := .idle } .started []
  | serve (hstate : m.state = .serviceAction) :
      Acts files m none .loop { serve files m with state := .serverResponse } .answered
        [.served files m.request (serve files m).reply]
  | began (i : Fin n) (f : Function) (hstate : m.state = .idle) :
      Acts files m (some i) (.idleTest f) m (.body (.start f)) [.began i f]
  | callService (i : Fin n) (l : Local) (call : Call) (hask : l.ask = some call) :
      Acts files m (some i) (.body l) (callService call m) (.calling l) []
  | resume (i : Fin n) (l : Local) (hstate : m.state = .serverResponse) :
      Acts files m (some i) (.responseTest l) m (.body (l.resume m.reply)) []
  | makeIdle (i : Fin n) (r : Final) :
      Acts files m (some i) (.body (.done r)) (makeIdle r m) (.leaving r)
        [.ended i r (makeIdle r m).reply]
  | outside (i : Fin n) (l l' : Point) (out : List (Log n)) (hl : l.away = true)
      (hl' : l'.away = true) (hout : out = [] ∨ ∃ e, out = [e] ∧ e.private = true) :
      Acts files m (some i) l m l' out

/-- Behind `makeIdle` the page is only read. -/
theorem conclude_cases (i : Fin n) (m : MemBasedState) (l : Point) :
    conclude i m l = .stop ∨ ∃ l' out, conclude i m l = .act m l' out ∧ l.away = true ∧
      l'.away = true ∧ (out = [] ∨ ∃ e, out = [e] ∧ e.private = true) := by
  have hread : ∀ (l' : Point) (out : List (Log n)), l.away = true → l'.away = true →
      (out = [] ∨ ∃ e, out = [e] ∧ e.private = true) → conclude i m l = .act m l' out →
      conclude i m l = .stop ∨ ∃ l' out, conclude i m l = .act m l' out ∧ l.away = true ∧
        l'.away = true ∧ (out = [] ∨ ∃ e, out = [e] ∧ e.private = true) :=
    fun l' out hl hl' hout h => .inr ⟨l', out, h, hl, hl', hout⟩
  cases l with
  | after r => cases r <;> exact hread _ _ rfl rfl (.inl rfl) rfl
  | errnoSet r errno =>
    cases r with
    | read result bytesRead busy =>
      exact hread _ _ rfl rfl (.inr ⟨_, rfl, rfl⟩) rfl
    | access | stat st =>
      by_cases herror : m.error = 0
      · exact hread _ _ rfl rfl (.inl rfl) (if_neg (not_not.mpr herror))
      · exact hread _ _ rfl rfl (.inr ⟨_, rfl, rfl⟩) (if_pos herror)
  | valueRead r errno =>
    cases r with
    | read result bytesRead busy => exact .inl rfl
    | access | stat st => exact hread _ _ rfl rfl (.inr ⟨_, rfl, rfl⟩) rfl
  | looper | starting | started | loop | answered | out => exact .inl rfl
  | waitForIdle f | idleTest f => exact .inl rfl
  | body l | calling l | responseTest l => exact .inl rfl
  | leaving r | unlocking r => exact .inl rfl

theorem goes_of_looper {c : Choice} {m : MemBasedState} {l l' : Point}
    (h : (looper (n := n) c m l).quiet = some l') : Goes (n := n) m l (looper c m l) := by
  unfold looper at h ⊢
  split at h
  · exact .looper
  · cases h
  · exact .started
  · split at h
    · rename_i hstate
      exact (if_pos hstate).symm ▸ .loop hstate
    · cases h
  · exact .answered
  · cases h

theorem goes_of_client {i : Fin n} {c : Choice} {m : MemBasedState} {l l' : Point}
    (h : (client i c m l).quiet = some l') : Goes m l (client i c m l) := by
  unfold client at h ⊢
  split at h
  · split at h <;> cases h
  · exact .waitForIdle _
  · split at h
    · rename_i hstate
      exact (if_pos hstate).symm ▸ .idleTest _ hstate
    · cases h
  · cases h
  · split at h <;> cases h
  · exact .calling _
  · split at h
    · rename_i hstate
      exact (if_pos hstate).symm ▸ .responseTest _ hstate
    · cases h
  · exact .leaving _
  · exact .unlocking _
  · rcases conclude_cases i m l with hstop | ⟨l'', out, hact, -⟩
    · rw [hstop] at h
      cases h
    · rw [hact] at h
      cases h

theorem goes_of_code {t : Option (Fin n)} {c : Choice} {m : MemBasedState} {l l' : Point}
    {ins : Instr MemBasedState Point (Log n)} (h : code n t c m l = ins)
    (hquiet : ins.quiet = some l') : Goes m l ins := by
  subst h
  cases t with
  | none => exact goes_of_looper hquiet
  | some i => exact goes_of_client hquiet

theorem acts_of_looper {c : Choice} {m m' : MemBasedState} {l l' : Point} {out : List (Log n)}
    (h : looper c m l = .act m' l' out) : Acts c.files m none l m' l' out := by
  unfold looper at h
  split at h
  · cases h
  · cases h
    exact .starting
  · cases h
  · split at h
    · cases h
    · rename_i hstate
      cases h
      exact .serve (not_not.mp hstate)
  · cases h
  · cases h

theorem acts_of_client {i : Fin n} {c : Choice} {m m' : MemBasedState} {l l' : Point}
    {out : List (Log n)} (h : client i c m l = .act m' l' out) :
    Acts c.files m (some i) l m' l' out := by
  unfold client at h
  split at h
  · split at h
    · cases h
      exact .outside i _ _ _ rfl rfl (.inl rfl)
    · cases h
      exact .outside i _ _ _ rfl rfl (.inr ⟨_, rfl, rfl⟩)
  · cases h
  · split at h
    · cases h
    · rename_i hstate
      cases h
      exact .began i _ (not_not.mp hstate)
  · cases h
    exact .makeIdle i _
  · split at h
    · rename_i hask
      cases h
      exact .callService i _ _ hask
    · cases h
  · cases h
  · split at h
    · cases h
    · rename_i hstate
      cases h
      exact .resume i _ (not_not.mp hstate)
  · cases h
  · cases h
  · rcases conclude_cases i m l with hstop | ⟨l'', out', hact, hl, hl', hout⟩
    · rw [hstop] at h
      cases h
    · rw [hact] at h
      cases h
      exact .outside i _ _ _ hl hl' hout

theorem acts_of_code {t : Option (Fin n)} {c : Choice} {m m' : MemBasedState} {l l' : Point}
    {out : List (Log n)} (h : code n t c m l = .act m' l' out) : Acts c.files m t l m' l' out := by
  cases t with
  | none => exact acts_of_looper h
  | some i => exact acts_of_client h

/-- Server and clients keep to the rules of the mutex. -/
theorem code_disciplined (n : ℕ) :
    Disciplined (code n) (fun l => l.inside = true) (fun l => l.parks = true) where
  parks_inside {l} h := by
    cases l with
    | loop | idleTest f | responseTest l => rfl
    | _ => cases h
  lock h := by cases goes_of_code h rfl <;> rfl
  unlock h := by
    cases goes_of_code h rfl
    exact ⟨rfl, Bool.false_ne_true⟩
  wait h := by cases goes_of_code h rfl <;> exact ⟨rfl, rfl⟩
  signal h := by cases goes_of_code h rfl <;> exact Iff.rfl
  act {t c m l m' l' out} h := by
    have hacts := acts_of_code h
    cases hacts with
    | outside i l l' out hl hl' => simp [Point.inside_of_away hl, Point.inside_of_away hl']
    | _ => exact Iff.rfl

/-! ## The service takes the turns of the sequential one -/

/-- Where the client whose turn it is has got, by its point and the page: it
has the mutex, its request is in the page, or the answer is. -/
inductive Phase (m : MemBasedState) (page : Reply) (l : Local) : Point → Prop where
  | body (hstate : m.state = .idle ∨ m.state = .serverResponse) (hpage : m.reply = page) :
      Phase m page l (.body l)
  | asked (p : Point) (call : Call) (hp : p = .calling l ∨ p = .responseTest l)
      (hask : l.ask = some call) (hm : m = callService call { init with data := page.data }) :
      Phase m page l p
  | answered (p : Point) (l₀ : Local) (hp : p = .calling l₀ ∨ p = .responseTest l₀)
      (hstate : m.state = .serverResponse) (hl : l = l₀.resume m.reply) (hpage : m.reply = page) :
      Phase m page l p

/-- `looper` has not come to its loop yet. -/
def Point.booting : Point → Bool
  | .looper | .starting => true
  | _ => false

/-- **The service `s` is where the sequential one is at `t`.** -/
structure Sim (s : Config (Option (Fin n)) MemBasedState Point) (t : Turn n) : Prop where
  held : Held (fun l : Point => l.inside = true) (fun l => l.parks = true) s
  booting : (s.ctl none).point.booting = true → s.mem.state = .notRunning
  alone : ∀ i, (s.ctl (some i)).point.turn = true → ∃ l, t.current = some (i, l)
  idle : t.current = none →
    (s.mem.state = .notRunning ∨ s.mem.state = .idle) ∧ s.mem.reply = t.page
  turn : ∀ i l, t.current = some (i, l) → Phase s.mem t.page l (s.ctl (some i)).point

theorem sim_boot (n : ℕ) : Sim (boot n) ⟨init.reply, none⟩ where
  held i := by
    cases i with
    | none | some i => exact iff_of_false Bool.false_ne_true (Option.some_ne_none _).symm
  booting _ := rfl
  alone i h := by cases h
  idle _ := ⟨.inl rfl, rfl⟩
  turn i l h := by cases h

/-- During a turn the page is in no other state. -/
theorem Phase.state {m : MemBasedState} {page : Reply} {l : Local} {p : Point}
    (h : Phase m page l p) : m.state ≠ .notRunning := by
  cases h with
  | body hstate hpage => rcases hstate with h | h <;> simp [h]
  | asked p call hp hask hm => simp [hm, callService]
  | answered p l₀ hp hstate hl hpage => simp [hstate]

/-- A client in its turn is at a point of it. -/
theorem Phase.turn {m : MemBasedState} {page : Reply} {l : Local} {p : Point}
    (h : Phase m page l p) : p.turn = true := by
  cases h with
  | body hstate hpage => rfl
  | asked p call hp hask hm => rcases hp with rfl | rfl <;> rfl
  | answered p l₀ hp hstate hl hpage => rcases hp with rfl | rfl <;> rfl

/-- A quiet move keeps the place in the turn. -/
theorem Goes.phase {m : MemBasedState} {p p' : Point} {ins : Instr MemBasedState Point (Log n)}
    (h : Goes m p ins) (hquiet : ins.quiet = some p') {page : Reply} {l : Local}
    (hphase : Phase m page l p) : Phase m page l p' := by
  cases h with
  | calling l₀ =>
    cases Option.some.inj hquiet
    cases hphase with
    | asked _ call hp hask hm =>
      have hl : l₀ = l := by simpa using hp
      exact .asked _ call (.inr (by rw [hl])) hask hm
    | answered _ l₁ hp hstate hl hpage =>
      have hl₁ : l₀ = l₁ := by simpa using hp
      exact .answered _ l₁ (.inr (by rw [hl₁])) hstate hl hpage
  | responseTest l₀ hstate =>
    cases Option.some.inj hquiet
    exact hphase
  | _ => cases hphase.turn

theorem Goes.turn {m : MemBasedState} {p p' : Point} {ins : Instr MemBasedState Point (Log n)}
    (h : Goes m p ins) (hquiet : ins.quiet = some p') (hturn : p'.turn = true) :
    p.turn = true := by
  cases h <;> cases Option.some.inj hquiet <;> first | rfl | exact hturn

theorem Goes.booting {m : MemBasedState} {p p' : Point}
    {ins : Instr MemBasedState Point (Log n)} (h : Goes m p ins) (hquiet : ins.quiet = some p')
    (hboot : p'.booting = true) : p.booting = true := by
  cases h <;> cases Option.some.inj hquiet <;> first | rfl | exact hboot

section Steps

variable {s s' : Config (Option (Fin n)) MemBasedState Point} {t : Turn n}

/-- The points of the turn and the page are all there is to it. -/
theorem Sim.of_points (h : Sim s t)
    (hheld : Held (fun l : Point => l.inside = true) (fun l => l.parks = true) s')
    (hmem : s'.mem = s.mem)
    (hboot : (s'.ctl none).point.booting = true → (s.ctl none).point.booting = true)
    (hturn : ∀ i, (s'.ctl (some i)).point.turn = true → (s.ctl (some i)).point.turn = true)
    (hphase : ∀ i page l, Phase s.mem page l (s.ctl (some i)).point →
      Phase s.mem page l (s'.ctl (some i)).point) : Sim s' t where
  held := hheld
  booting hb := hmem ▸ h.booting (hboot hb)
  alone i hi := h.alone i (hturn i hi)
  idle hnone := hmem ▸ h.idle hnone
  turn i l hcur := hmem ▸ hphase i t.page l (h.turn i l hcur)

/-- A quiet step leaves the turn where it is. -/
theorem Sim.quiet (h : Sim s t)
    (hheld : Held (fun l : Point => l.inside = true) (fun l => l.parks = true) s')
    (hmem : s'.mem = s.mem) (hpoints : ∀ j, (s'.ctl j).point = (s.ctl j).point ∨
      ∃ ins, Goes (n := n) s.mem (s.ctl j).point ins ∧ ins.quiet = some (s'.ctl j).point) :
    Sim s' t := by
  refine h.of_points hheld hmem ?_ ?_ ?_
  · intro hboot
    rcases hpoints none with heq | ⟨ins, hgoes, hquiet⟩
    · rwa [heq] at hboot
    · exact hgoes.booting hquiet hboot
  · intro i hturn
    rcases hpoints (some i) with heq | ⟨ins, hgoes, hquiet⟩
    · rwa [heq] at hturn
    · exact hgoes.turn hquiet hturn
  · intro i page l hphase
    rcases hpoints (some i) with heq | ⟨ins, hgoes, hquiet⟩
    · rwa [heq]
    · exact hgoes.phase hquiet hphase

/-- Nobody has a turn while `looper` starts. -/
theorem Sim.current_of_notRunning (h : Sim s t) (hstate : s.mem.state = .notRunning) :
    t.current = none := by
  cases hcur : t.current with
  | none => rfl
  | some x => exact absurd hstate (h.turn x.1 x.2 hcur).state

theorem Sim.starting (h : Sim s t) (hl : s.ctl none = .ready .starting)
    (hheld : Held (fun l : Point => l.inside = true) (fun l => l.parks = true)
      ({ s with mem := { s.mem with state := .idle } }.put none (.ready .started))) :
    Sim ({ s with mem := { s.mem with state := .idle } }.put none (.ready .started)) t := by
  have hnone : t.current = none := h.current_of_notRunning (h.booting (by rw [hl]; rfl))
  refine ⟨hheld, ?_, ?_, ?_, ?_⟩
  · intro hboot
    rw [ctl_put_self] at hboot
    cases hboot
  · intro i hturn
    rw [ctl_put_of_ne _ _ (by simp)] at hturn
    exact h.alone i hturn
  · intro _
    exact ⟨.inr rfl, (h.idle hnone).2⟩
  · intro i l hcur
    rw [hnone] at hcur
    cases hcur

/-- **The server answers the client whose turn it is.** -/
theorem Sim.serve (h : Sim s t) (files : Files) (hstate : s.mem.state = .serviceAction)
    (hheld : Held (fun l : Point => l.inside = true) (fun l => l.parks = true)
      ({ s with mem := { serve files s.mem with state := .serverResponse } }.put none
        (.ready .answered))) :
    ∃ t', Sim ({ s with mem := { serve files s.mem with state := .serverResponse } }.put none
        (.ready .answered)) t' ∧
      Serves t (.served files s.mem.request (Zygote.serve files s.mem).reply) t' := by
  obtain ⟨page, current⟩ := t
  cases current with
  | none =>
    rcases (h.idle rfl).1 with hs | hs <;> rw [hs] at hstate <;> cases hstate
  | some x =>
    obtain ⟨i, l⟩ := x
    have hphase := h.turn i l rfl
    generalize hpoint : (s.ctl (some i)).point = p at hphase
    cases hphase with
    | body hs hpage => rcases hs with hs | hs <;> rw [hs] at hstate <;> cases hstate
    | answered p l₀ hp hs hl hpage =>
      rw [hs] at hstate
      cases hstate
    | asked p call hp hask hm =>
      have hreply : (Zygote.serve files s.mem).reply = call.answer files page.data := by
        rw [hm]; rfl
      have hreq : s.mem.request = call.request page.data := by rw [hm]; rfl
      refine ⟨⟨call.answer files page.data, some (i, l.resume (call.answer files page.data))⟩,
        ⟨hheld, ?_, ?_, ?_, ?_⟩, ?_⟩
      · intro hboot
        rw [ctl_put_self] at hboot
        cases hboot
      · intro k hturn
        rw [ctl_put_of_ne _ _ (by simp)] at hturn
        obtain ⟨l', hcur⟩ := h.alone k hturn
        cases hcur
        exact ⟨_, rfl⟩
      · intro hnone
        cases hnone
      · intro k l' hcur
        cases hcur
        rw [ctl_put_of_ne _ _ (by simp), hpoint]
        exact .answered _ l hp rfl (by rw [← hreply]; rfl) hreply
      · rw [hreply, hreq]
        exact .served i l call files page hask

/-- A client acts in its own turn, or takes or leaves it. -/
theorem Sim.own (h : Sim s t) {i : Fin n} {m : MemBasedState} {l' : Point} {t' : Turn n}
    (hheld : Held (fun l : Point => l.inside = true) (fun l => l.parks = true)
      ({ s with mem := m }.put (some i) (.ready l')))
    (hrun : s.mem.state ≠ .notRunning) (hbefore : ∀ k l, t.current = some (k, l) → k = i)
    (hafter : ∀ k l, t'.current = some (k, l) → k = i ∧ Phase m t'.page l l')
    (hturn : l'.turn = true → ∃ l, t'.current = some (i, l))
    (hidle : t'.current = none → (m.state = .notRunning ∨ m.state = .idle) ∧ m.reply = t'.page) :
    Sim ({ s with mem := m }.put (some i) (.ready l')) t' where
  held := hheld
  booting hboot := by
    rw [ctl_put_of_ne _ _ (by simp)] at hboot
    exact absurd (h.booting hboot) hrun
  alone k hk := by
    by_cases hki : k = i
    · subst hki
      rw [ctl_put_self] at hk
      exact hturn hk
    · rw [ctl_put_of_ne _ _ (by simpa using hki)] at hk
      obtain ⟨l, hcur⟩ := h.alone k hk
      exact absurd (hbefore k l hcur) hki
  idle := hidle
  turn k l hcur := by
    obtain ⟨rfl, hphase⟩ := hafter k l hcur
    rw [ctl_put_self]
    exact hphase

/-- **The service is nobody's while it is idle and not in a client's hands.** -/
theorem Sim.current_of_idleTest (h : Sim s t) {i : Fin n} {f : Function}
    (hl : s.ctl (some i) = .ready (.idleTest f)) (hstate : s.mem.state = .idle) :
    t.current = none := by
  cases hcur : t.current with
  | none => rfl
  | some x =>
    obtain ⟨k, l⟩ := x
    have hphase := h.turn k l hcur
    generalize hpoint : (s.ctl (some k)).point = p at hphase
    cases hphase with
    | asked p call hp hask hm =>
      rw [hm] at hstate
      cases hstate
    | answered p l₀ hp hs hl₀ hpage =>
      rw [hs] at hstate
      cases hstate
    | body hs hpage =>
      -- the two would both have the mutex
      have hk := h.held.ready_of_not_parks (i := some k) (by rw [hpoint]; exact Bool.false_ne_true)
      rw [hpoint] at hk
      have heq := h.held.unique hl hk rfl rfl
      rw [← heq, hl] at hk
      cases hk

/-- A client at a point of a turn has it. -/
theorem Sim.phase_of_ready (h : Sim s t) {i : Fin n} {p : Point}
    (hl : s.ctl (some i) = .ready p) (hp : p.turn = true) :
    ∃ l, t.current = some (i, l) ∧ Phase s.mem t.page l p := by
  obtain ⟨l, hcur⟩ := h.alone i (by rw [hl]; exact hp)
  have hphase := h.turn i l hcur
  rw [hl] at hphase
  exact ⟨l, hcur, hphase⟩

/-- **An action is an event of the sequential service**, or one it does not
see. -/
theorem Sim.act (h : Sim s t) {j : Option (Fin n)} {l l' : Point} {files : Files}
    {m : MemBasedState} {out : List (Log n)} (hl : s.ctl j = .ready l)
    (hacts : Acts files s.mem j l m l' out)
    (hheld : Held (fun l : Point => l.inside = true) (fun l => l.parks = true)
      ({ s with mem := m }.put j (.ready l'))) :
    ∃ t', Sim ({ s with mem := m }.put j (.ready l')) t' ∧
      ((out = [] ∧ t' = t) ∨ ∃ e, out = [e] ∧ Serves t e t') := by
  cases hacts with
  | starting => exact ⟨t, h.starting hl hheld, .inl ⟨rfl, rfl⟩⟩
  | serve hstate =>
    obtain ⟨t', hsim, hserves⟩ := h.serve files hstate hheld
    exact ⟨t', hsim, .inr ⟨_, rfl, hserves⟩⟩
  | began i f hstate =>
    have hnone := h.current_of_idleTest hl hstate
    refine ⟨⟨t.page, some (i, .start f)⟩, h.own hheld (by simp [hstate]) ?_ ?_ ?_ ?_,
      .inr ⟨_, rfl, ?_⟩⟩
    · simp [hnone]
    · rintro k l ⟨⟩
      exact ⟨rfl, .body (.inl hstate) (h.idle hnone).2⟩
    · exact fun _ => ⟨_, rfl⟩
    · rintro ⟨⟩
    · obtain ⟨page, current⟩ := t
      cases hnone
      exact .began i f page
  | callService i l call hask =>
    obtain ⟨l₁, hcur, hphase⟩ := h.phase_of_ready hl rfl
    cases hphase with
    | asked _ _ hp => simp at hp
    | answered _ _ hp => simp at hp
    | body hs hpage =>
      refine ⟨t, h.own hheld ?_ ?_ ?_ ?_ ?_, .inl ⟨rfl, rfl⟩⟩
      · rcases hs with hs | hs <;> simp [hs]
      · intro k l' hk
        rw [hcur] at hk
        cases hk
        rfl
      · intro k l' hk
        rw [hcur] at hk
        cases hk
        refine ⟨rfl, .asked _ call (.inl rfl) hask ?_⟩
        rw [← hpage]
        rfl
      · exact fun _ => ⟨_, hcur⟩
      · rw [hcur]
        rintro ⟨⟩
  | resume i l hstate =>
    obtain ⟨l₁, hcur, hphase⟩ := h.phase_of_ready hl rfl
    cases hphase with
    | asked _ call hp hask hm =>
      rw [hm] at hstate
      cases hstate
    | answered _ l₀ hp hs hl₁ hpage =>
      obtain rfl : l = l₀ := by simpa using hp
      refine ⟨t, h.own hheld (by simp [hs]) ?_ ?_ ?_ ?_, .inl ⟨rfl, rfl⟩⟩
      · intro k l' hk
        rw [hcur] at hk
        cases hk
        rfl
      · intro k l' hk
        rw [hcur] at hk
        cases hk
        rw [hl₁]
        exact ⟨rfl, .body (.inr hs) hpage⟩
      · exact fun _ => ⟨_, hcur⟩
      · rw [hcur]
        rintro ⟨⟩
  | makeIdle i r =>
    obtain ⟨l₁, hcur, hphase⟩ := h.phase_of_ready hl rfl
    cases hphase with
    | asked _ _ hp => simp at hp
    | answered _ _ hp => simp at hp
    | body hs hpage =>
      refine ⟨⟨(makeIdle r s.mem).reply, none⟩, h.own hheld ?_ ?_ ?_ ?_ ?_, .inr ⟨_, rfl, ?_⟩⟩
      · rcases hs with hs | hs <;> simp [hs]
      · intro k l' hk
        rw [hcur] at hk
        cases hk
        rfl
      · rintro k l' ⟨⟩
      · rintro ⟨⟩
      · exact fun _ => ⟨.inr rfl, rfl⟩
      · obtain ⟨page, current⟩ := t
        cases hcur
        cases hpage
        exact .ended i r s.mem
  | outside i l l' out hin hin' hout =>
    have hsim : Sim (s.put (some i) (.ready l')) t := by
      refine h.of_points hheld rfl (fun hb => ?_) (fun k hk => ?_) fun k page l₁ hphase => ?_
      · rwa [ctl_put_of_ne _ _ (by simp)] at hb
      · by_cases hki : k = i
        · subst hki
          rw [ctl_put_self, Ctl.point_ready, Point.turn_of_away hin'] at hk
          cases hk
        · rwa [ctl_put_of_ne _ _ (by simpa using hki)] at hk
      · by_cases hki : k = i
        · subst hki
          have hturn := hphase.turn
          rw [hl, Ctl.point_ready, Point.turn_of_away hin] at hturn
          cases hturn
        · rwa [ctl_put_of_ne _ _ (by simpa using hki)]
    refine ⟨t, hsim, hout.imp (fun ho => ⟨ho, rfl⟩) ?_⟩
    rintro ⟨e, rfl, he⟩
    refine ⟨e, rfl, ?_⟩
    cases e with
    | returned k v => exact .returned t k v
    | refused k errno => exact .refused t k errno
    | began | served | ended => cases he

/-- **A step of the service is at most one event of the sequential one.** -/
theorem Sim.step (h : Sim s t) (e : Event (Option (Fin n)) Choice) :
    ∃ t', Sim (service n s e).1 t' ∧ (((service n s e).2 = [] ∧ t' = t) ∨
      ∃ x, (service n s e).2 = [x] ∧ Serves t x t') := by
  have hmoves := moves_machine (code n) s e
  have hheld := h.held.moves (code_disciplined n) hmoves
  rcases hmoves.cases_points with ⟨hmem, hout, hpoints⟩ | ⟨i, c, l, l', m, hl, hcode, heq⟩
  · refine ⟨t, h.quiet hheld hmem fun j => ?_, .inl ⟨hout, rfl⟩⟩
    rcases hpoints with hsame | ⟨i, c, hother, hquiet⟩
    · exact .inl (hsame j)
    · by_cases hj : j = i
      · subst hj
        exact .inr ⟨_, goes_of_code rfl hquiet, hquiet⟩
      · exact .inl (hother j hj)
  · rw [heq] at hheld
    rw [service, heq]
    exact h.act hl (acts_of_code hcode) hheld

end Steps

/-- The log of a run is a log of the sequential service. -/
theorem servesAll_outputs (n : ℕ) (es : List (Event (Option (Fin n)) Choice)) :
    ∃ t, ServesAll ⟨init.reply, none⟩ ((service n).outputs (boot n) es) t := by
  have hboot : ∃ t, Sim (boot n) t ∧ ServesAll ⟨init.reply, none⟩ [] t := ⟨_, sim_boot n, rfl⟩
  have hrun := Machine.run_outputs_invariant (M := service n)
    (J := fun s log => ∃ t, Sim s t ∧ ServesAll ⟨init.reply, none⟩ log t) ?_ hboot es
  · obtain ⟨t, -, hlog⟩ := hrun
    exact ⟨t, hlog⟩
  · rintro s e log ⟨t, hsim, hlog⟩
    obtain ⟨t', hsim', ⟨hout, rfl⟩ | ⟨x, hout, hserves⟩⟩ := hsim.step e
    · rw [hout, List.append_nil]
      exact ⟨t', hsim', hlog⟩
    · rw [hout]
      exact ⟨t', hsim', servesAll_append.mpr ⟨t, hlog, t', hserves, rfl⟩⟩

/-- **The clients take turns.** In every run, with any number of clients, any
schedule and any wake-ups, what the server and the clients do with the page is
one turn after the other: a client begins, the server serves the requests of
its function one by one, from the page as that client left it, the client goes
on with exactly these answers, and it ends before the next one begins. -/
theorem clients_take_turns (n : ℕ) (es : List (Event (Option (Fin n)) Choice)) :
    Turns init.reply (shared ((service n).outputs (boot n) es)) := by
  obtain ⟨t, hlog⟩ := servesAll_outputs n es
  exact turns_of_servesAll.1 init.reply hlog

end Zygote

end Dynamicloader
