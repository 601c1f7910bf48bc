import Dynamicloader.Zygote.Serial
/-!
# Who is woken

All sleepers wait on one condition variable, and a change of the page wakes
one of them. With one client that is enough: whoever sleeps although what it
waits for has come is about to be woken (`Alert`), and a function that has
begun can always go on. With two it is not: the server's answer can wake the
client that waits for its turn, which goes back to sleep, and then all sleep
(`client_goes_on_iff`).
-/

namespace Dynamicloader

namespace Zygote

open Monitor

variable {n : ℕ} {s t : Config (Option (Fin n)) MemBasedState Point}

/-! ## Where the threads are -/

def Point.ofServer : Point → Bool
  | .looper | .starting | .started | .loop | .answered => true
  | _ => false

def Point.ofClient (l : Point) : Bool := l.away || (l.inside && !l.ofServer)

theorem Point.not_parks_of_booting {l : Point} (h : l.booting = true) : ¬ l.parks = true := by
  cases l with
  | looper | starting => exact Bool.false_ne_true
  | _ => cases h

/-- Server and clients are in their own code, and the page is not running
until `looper` is. -/
structure Placed (s : Config (Option (Fin n)) MemBasedState Point) : Prop where
  server : (s.ctl none).point.ofServer = true
  client : ∀ i, (s.ctl (some i)).point.ofClient = true
  boots : s.mem.state = .notRunning → (s.ctl none).point.booting = true

theorem placed_boot (n : ℕ) : Placed (boot n) := ⟨rfl, fun _ => rfl, fun _ => rfl⟩

theorem Goes.ofServer {m : MemBasedState} {p p' : Point}
    {ins : Instr MemBasedState Point (Log n)} (h : Goes m p ins) (hquiet : ins.quiet = some p') :
    p'.ofServer = p.ofServer := by
  cases h <;> cases Option.some.inj hquiet <;> rfl

theorem Goes.ofClient {m : MemBasedState} {p p' : Point}
    {ins : Instr MemBasedState Point (Log n)} (h : Goes m p ins) (hquiet : ins.quiet = some p')
    (hp : p.ofClient = true) : p'.ofClient = true := by
  cases h <;> cases Option.some.inj hquiet <;> first | rfl | exact hp

theorem Goes.booting_of {m : MemBasedState} {p p' : Point}
    {ins : Instr MemBasedState Point (Log n)} (h : Goes m p ins) (hquiet : ins.quiet = some p')
    (hp : p.booting = true) : p'.booting = true := by
  cases h <;> cases Option.some.inj hquiet <;> first | rfl | cases hp

theorem Acts.ofServer {files : Files} {m m' : MemBasedState} {l l' : Point} {out : List (Log n)}
    (h : Acts files m none l m' l' out) : l'.ofServer = true ∧ m'.state ≠ .notRunning := by
  cases h with
  | starting => exact ⟨rfl, State.noConfusion⟩
  | serve hstate => exact ⟨rfl, State.noConfusion⟩

theorem Acts.ofClient {files : Files} {i : Fin n} {m m' : MemBasedState} {l l' : Point}
    {out : List (Log n)} (h : Acts files m (some i) l m' l' out) :
    l'.ofClient = true ∧ (m'.state = .notRunning → m.state = .notRunning) := by
  cases h with
  | began i f hstate => exact ⟨rfl, id⟩
  | callService i l call hask => exact ⟨rfl, State.noConfusion⟩
  | resume i l hstate => exact ⟨rfl, id⟩
  | makeIdle i r => exact ⟨rfl, State.noConfusion⟩
  | outside i l l' out hl hl' hout => exact ⟨by rw [Point.ofClient, hl']; rfl, id⟩

theorem Placed.moves {e : Event (Option (Fin n)) Choice} {out : List (Log n)} (h : Placed s)
    (hmoves : Moves (code n) s e t out) : Placed t := by
  rcases hmoves.cases_points with ⟨hmem, -, hpoints⟩ | ⟨j, c, l, l', m, hl, hcode, rfl⟩
  · have hgoes : ∀ k, (t.ctl k).point = (s.ctl k).point ∨
        ∃ ins, Goes (n := n) s.mem (s.ctl k).point ins ∧ ins.quiet = some (t.ctl k).point := by
      intro k
      rcases hpoints with hsame | ⟨i, c, hother, hquiet⟩
      · exact .inl (hsame k)
      · by_cases hk : k = i
        · subst hk
          exact .inr ⟨_, goes_of_code rfl hquiet, hquiet⟩
        · exact .inl (hother k hk)
    refine ⟨?_, fun i => ?_, fun hstate => ?_⟩
    · rcases hgoes none with heq | ⟨ins, hgo, hquiet⟩
      · rw [heq, h.server]
      · rw [hgo.ofServer hquiet, h.server]
    · rcases hgoes (some i) with heq | ⟨ins, hgo, hquiet⟩
      · rw [heq, h.client]
      · exact hgo.ofClient hquiet (h.client i)
    · rw [hmem] at hstate
      rcases hgoes none with heq | ⟨ins, hgo, hquiet⟩
      · rw [heq, h.boots hstate]
      · exact hgo.booting_of hquiet (h.boots hstate)
  · have hacts := acts_of_code hcode
    cases j with
    | none =>
      obtain ⟨hserver, hstate⟩ := hacts.ofServer
      refine ⟨?_, fun i => ?_, fun hs => absurd hs hstate⟩
      · rw [ctl_put_self]
        exact hserver
      · rw [ctl_put_of_ne _ _ (by simp)]
        exact h.client i
    | some k =>
      obtain ⟨hclient, hstate⟩ := hacts.ofClient
      refine ⟨?_, fun i => ?_, fun hs => ?_⟩
      · rw [ctl_put_of_ne _ _ (by simp)]
        exact h.server
      · by_cases hik : i = k
        · subst hik
          rw [ctl_put_self]
          exact hclient
        · rw [ctl_put_of_ne _ _ (by simpa using hik)]
          exact h.client i
      · rw [ctl_put_of_ne _ _ (by simp)]
        exact h.boots (hstate hs)

/-! ## Nobody oversleeps -/

/-- What a thread in a wait waits for. -/
def Point.awaits : Point → Option State
  | .loop => some .serviceAction
  | .idleTest _ => some .idle
  | .responseTest _ => some .serverResponse
  | _ => none

/-- The thread sleeps although what it waits for has come. -/
def Overdue (s : Config (Option (Fin n)) MemBasedState Point) (j : Option (Fin n)) : Prop :=
  ∃ l, s.ctl j = .asleep l ∧ l.awaits = some s.mem.state

/-- The points of a signal. -/
def Point.signals : Point → Bool
  | .started | .answered | .calling _ | .leaving _ => true
  | _ => false

/-- A thread runs that is about to signal. -/
def Signalled (s : Config (Option (Fin n)) MemBasedState Point) : Prop :=
  ∃ j l, s.ctl j = .ready l ∧ l.signals = true

/-- **Whoever oversleeps is about to be woken.** -/
def Alert (s : Config (Option (Fin n)) MemBasedState Point) : Prop :=
  ∀ j, Overdue s j → Signalled s

/-- A thread other than the one that moved. -/
theorem Alert.put (h : Alert s) {i : Option (Fin n)}
    {u : Config (Option (Fin n)) MemBasedState Point} {x : Ctl Point} (hctl : u.ctl = s.ctl) (hstate : u.mem.state = s.mem.state)
    (hold : ∀ l, s.ctl i = .ready l → l.signals = false)
    (hnew : ∀ l, x = .asleep l → l.awaits ≠ some s.mem.state) : Alert (u.put i x) := by
  rintro j ⟨l, hj, hawaits⟩
  rw [mem_put, hstate] at hawaits
  have hji : j ≠ i := by
    rintro rfl
    rw [ctl_put_self] at hj
    exact hnew l hj hawaits
  rw [ctl_put_of_ne _ _ hji, hctl] at hj
  obtain ⟨k, l', hk, hsignals⟩ := h j ⟨l, hj, hawaits⟩
  have hki : k ≠ i := by
    rintro rfl
    rw [hold l' hk] at hsignals
    cases hsignals
  exact ⟨k, l', by rw [ctl_put_of_ne _ _ hki, hctl, hk], hsignals⟩

theorem Goes.signals {m : MemBasedState} {p : Point} {ins : Instr MemBasedState Point (Log n)}
    (h : Goes m p ins) : (∃ p', ins = .signal p') ∨ p.signals = false := by
  cases h with
  | started | answered | calling | leaving => exact .inl ⟨_, rfl⟩
  | _ => exact .inr rfl

theorem Goes.awaits {m : MemBasedState} {p p' : Point}
    (h : Goes (n := n) m p (.wait p')) : p'.awaits ≠ some m.state := by
  intro hawaits
  cases h with
  | loop hstate | idleTest f hstate | responseTest l hstate =>
    exact hstate (Option.some.inj hawaits).symm

/-- An action leaves the state of the page, or a signal follows. -/
theorem Acts.signals {files : Files} {j : Option (Fin n)} {m m' : MemBasedState} {l l' : Point}
    {out : List (Log n)} (h : Acts files m j l m' l' out) :
    (m'.state = m.state ∧ l.signals = false) ∨ l'.signals = true := by
  cases h with
  | starting | serve | callService | makeIdle => exact .inr rfl
  | began | resume => exact .inl ⟨rfl, rfl⟩
  | outside i l l' out hl hl' hout =>
    refine .inl ⟨rfl, ?_⟩
    cases l with
    | started | answered | calling | leaving => cases hl
    | _ => rfl

/-- There are no three threads. -/
theorem no_three (hn : n ≤ 1) {a b c : Option (Fin n)} (hab : a ≠ b) (hac : a ≠ c)
    (hbc : b ≠ c) : False := by
  have hsub : ∀ i j : Fin n, i = j := fun i j => Fin.ext (by omega)
  cases a with
  | none =>
    cases b with
    | none => exact hab rfl
    | some b =>
      cases c with
      | none => exact hac rfl
      | some c => exact hbc (congrArg some (hsub b c))
  | some a =>
    cases b with
    | none =>
      cases c with
      | none => exact hbc rfl
      | some c => exact hac (congrArg some (hsub a c))
    | some b => exact hab (congrArg some (hsub a b))

/-- **With one client, a step keeps everybody alert.** -/
theorem Alert.moves (hn : n ≤ 1) {e : Event (Option (Fin n)) Choice} {out : List (Log n)}
    (h : Alert s) (hmoves : Moves (code n) s e t out) : Alert t := by
  have hquiet : ∀ {i c l} {ins : Instr MemBasedState Point (Log n)} {l' : Point},
      s.ctl i = .ready l → code n i c s.mem l = ins → ins.quiet = some l' →
      (∀ p, ins ≠ .signal p) → ∀ l₁, s.ctl i = .ready l₁ → l₁.signals = false := by
    intro i c l ins l' hl hcode hq hsig l₁ hl₁
    rw [hl] at hl₁
    cases hl₁
    exact (goes_of_code hcode hq).signals.resolve_left fun ⟨p, hp⟩ => hsig p hp
  cases hmoves with
  | stay e => exact h
  | wake i l hl => exact h.put rfl rfl (by simp [hl]) (by simp)
  | relock i pick c l hl hfree => exact h.put rfl rfl (by simp [hl]) (by simp)
  | lock i pick c l l' hl hfree hcode =>
    exact h.put rfl rfl (hquiet hl hcode rfl (by simp)) (by simp)
  | unlock i pick c l l' hl hcode =>
    exact h.put rfl rfl (hquiet hl hcode rfl (by simp)) (by simp)
  | wait i pick c l l' hl hcode =>
    refine h.put rfl rfl (hquiet hl hcode rfl (by simp)) ?_
    rintro l₁ ⟨⟩
    exact (goes_of_code hcode rfl).awaits
  | signal i pick c l l' hl hcode hpick =>
    rintro j ⟨l₁, hj, -⟩
    -- a sleeper the signal did not pick would be a third thread
    have hji : j ≠ i := by
      rintro rfl
      rw [ctl_put_self] at hj
      cases hj
    rw [ctl_put_of_ne _ _ hji] at hj
    obtain ⟨hasleep, hjpick⟩ := asleep_of_ctl_wake hj
    have hsleeps : (s.ctl pick).sleeps = true := by
      refine hpick.resolve_right fun hnone => ?_
      have hwakes := hnone j
      rw [hasleep] at hwakes
      cases hwakes
    have hipick : i ≠ pick := by
      rintro rfl
      rw [hl] at hsleeps
      cases hsleeps
    exact (no_three hn hji hjpick hipick).elim
  | act i pick c l l' m out hl hcode =>
    have hacts := acts_of_code hcode
    rcases hacts.signals with ⟨hstate, hl₀⟩ | hl'
    · refine h.put rfl hstate ?_ (by simp)
      intro l₁ hl₁
      rw [hl] at hl₁
      cases hl₁
      exact hl₀
    · exact fun _ _ => ⟨i, l', ctl_put_self .., hl'⟩

/-! ## With one client -/

/-- Files of which there are none. -/
def noFiles : Files where
  access _ _ := some ENOENT
  stat _ := .error ENOENT
  fopen _ := .error ENOENT

instance : Inhabited Choice := ⟨⟨noFiles, .accessFile [] 0⟩⟩

/-- Without wake-ups for no reason, the client can come to another point. -/
def GoesOn (s : Config (Option (Fin n)) MemBasedState Point) (i : Fin n) : Prop :=
  ∃ t, Leads (code n) s t ∧ t.ctl (some i) ≠ s.ctl (some i)

theorem GoesOn.of_leads {i : Fin n} (h : Leads (code n) s t)
    (hctl : t.ctl (some i) = s.ctl (some i)) (ht : GoesOn t i) : GoesOn s i := by
  obtain ⟨u, hu, hne⟩ := ht
  exact ⟨u, h.trans hu, hctl ▸ hne⟩

theorem Placed.signal (h : Placed s) {j : Option (Fin n)} {l : Point} (hl : s.ctl j = .ready l)
    (hsignals : l.signals = true) (c : Choice) : ∃ l', code n j c s.mem l = .signal l' := by
  cases j with
  | none =>
    have hserver := h.server
    rw [hl] at hserver
    cases l with
    | started | answered => exact ⟨_, rfl⟩
    | calling l | leaving r => cases hserver
    | _ => cases hsignals
  | some i =>
    have hclient := h.client i
    rw [hl] at hclient
    cases l with
    | calling l | leaving r => exact ⟨_, rfl⟩
    | started | answered => cases hclient
    | _ => cases hsignals

/-- A signal can be the sleeping client's. -/
theorem goesOn_of_signal {i : Fin n} {j : Option (Fin n)} {c : Choice} {l l₁ l₂ : Point}
    (hi : s.ctl (some i) = .asleep l) (hj : s.ctl j = .ready l₁)
    (hcode : code n j c s.mem l₁ = .signal l₂) : GoesOn s i := by
  have hne : some i ≠ j := by
    rintro rfl
    rw [hi] at hj
    cases hj
  refine ⟨_, leads_signal (some i) hj hcode (.inl (by rw [hi]; rfl)), ?_⟩
  rw [ctl_put_of_ne _ _ hne, ctl_wake_self hi, hi]
  simp

theorem goesOn_of_signalled (h : Placed s) {i : Fin n} {l : Point}
    (hi : s.ctl (some i) = .asleep l) (hsignalled : Signalled s) : GoesOn s i := by
  obtain ⟨j, l₁, hj, hsignals⟩ := hsignalled
  obtain ⟨l₂, hcode⟩ := h.signal hj hsignals default
  exact goesOn_of_signal hi hj hcode

/-- The server can give the mutex up, and the client stands still meanwhile. -/
def Frees (s : Config (Option (Fin n)) MemBasedState Point) (i : Fin n) : Prop :=
  ∃ t, Leads (code n) s t ∧ t.owner = none ∧ t.ctl (some i) = s.ctl (some i)

theorem Frees.of_leads {i : Fin n} (h : Leads (code n) s t)
    (hctl : t.ctl (some i) = s.ctl (some i)) (ht : Frees t i) : Frees s i := by
  obtain ⟨u, hu, howner, hu'⟩ := ht
  exact ⟨u, h.trans hu, howner, hu'.trans hctl⟩

theorem frees_of_wait {i : Fin n} (hl : s.ctl none = .ready .loop)
    (hstate : s.mem.state ≠ .serviceAction) : Frees s i := by
  have hcode : code n none default s.mem .loop = .wait .loop := if_pos hstate
  exact ⟨_, leads_wait hl hcode, rfl, ctl_put_of_ne _ _ (by simp)⟩

/-- Its signal reaches nobody. -/
theorem leads_of_signal (hn : n ≤ 1) {i : Fin n} {l : Point} (hl : s.ctl none = .ready l)
    (hcode : code n none default s.mem l = .signal .loop)
    (hi : (s.ctl (some i)).sleeps = false) :
    Leads (code n) s (s.put none (.ready .loop)) := by
  have hserver : (s.ctl none).sleeps = false := by rw [hl]; rfl
  have hnobody : ∀ j, (s.ctl j).sleeps = false := by
    intro j
    cases j with
    | none => exact hserver
    | some k =>
      obtain rfl : k = i := Fin.ext (by omega)
      exact hi
  have hleads : Leads (code n) s _ := leads_signal none hl hcode (.inr hnobody)
  rwa [wake_of_awake hserver] at hleads

theorem frees_of_loop (hn : n ≤ 1) {i : Fin n} (hl : s.ctl none = .ready .loop)
    (hi : (s.ctl (some i)).sleeps = false) : Frees s i := by
  by_cases hstate : s.mem.state = .serviceAction
  · have hact : code n none default s.mem .loop = .act _ .answered _ :=
      if_neg (not_not.mpr hstate)
    refine .of_leads (leads_act hl hact) (ctl_put_of_ne _ _ (by simp)) ?_
    refine .of_leads (leads_of_signal hn (ctl_put_self ..) rfl
      (by rwa [ctl_put_of_ne _ _ (by simp)])) (ctl_put_of_ne _ _ (by simp)) ?_
    exact frees_of_wait (ctl_put_self ..) State.noConfusion
  · exact frees_of_wait hl hstate

/-- **The server gives the mutex up.** -/
theorem frees_of_server (hn : n ≤ 1) (h : Placed s) {i : Fin n} {l : Point}
    (hl : s.ctl none = .ready l) (hinside : l.inside = true)
    (hi : (s.ctl (some i)).sleeps = false) : Frees s i := by
  have hsignal : ∀ {u : Config (Option (Fin n)) MemBasedState Point} {p : Point},
      u.ctl none = .ready p → code n none default u.mem p = .signal .loop →
      (u.ctl (some i)).sleeps = false → Frees u i := by
    intro u p hp hcode hu
    refine .of_leads (leads_of_signal hn hp hcode hu) (ctl_put_of_ne _ _ (by simp)) ?_
    exact frees_of_loop hn (ctl_put_self ..) (by rwa [ctl_put_of_ne _ _ (by simp)])
  have hserver := h.server
  rw [hl] at hserver
  cases l with
  | starting =>
    refine .of_leads (leads_act (c := default) hl rfl) (ctl_put_of_ne _ _ (by simp)) ?_
    exact hsignal (ctl_put_self ..) rfl (by rwa [ctl_put_of_ne _ _ (by simp)])
  | started | answered => exact hsignal hl rfl hi
  | loop => exact frees_of_loop hn hl hi
  | looper => cases hinside
  | _ => cases hserver

/-- The mutex is free, the client's or the server's, and then it can come to
be free. -/
theorem frees_or_mine (hn : n ≤ 1) {u : Turn n} (hsim : Sim s u) (hplaced : Placed s) {i : Fin n}
    (hi : (s.ctl (some i)).sleeps = false) : Frees s i ∨ s.owner = some (some i) := by
  cases howner : s.owner with
  | none => exact .inl ⟨s, .refl s, howner, rfl⟩
  | some j =>
    cases j with
    | none =>
      obtain ⟨l, hl, hinside⟩ := hsim.held.ready_of_owner howner
      exact .inl (frees_of_server hn hplaced hl hinside hi)
    | some k =>
      obtain rfl : k = i := Fin.ext (by omega)
      exact .inr rfl

/-- Only the server can sleep while the client runs. -/
theorem server_sleeps_or_nobody (hn : n ≤ 1) {i : Fin n} (hi : (s.ctl (some i)).sleeps = false) :
    (s.ctl none).sleeps = true ∨ ∀ j, (s.ctl j).sleeps = false := by
  cases hserver : (s.ctl none).sleeps with
  | true => exact .inl rfl
  | false =>
    refine .inr fun j => ?_
    cases j with
    | none => exact hserver
    | some k =>
      obtain rfl : k = i := Fin.ext (by omega)
      exact hi

/-- A client that runs goes on. -/
theorem goesOn_of_ready (hn : n ≤ 1) {u : Turn n} (hsim : Sim s u) (hplaced : Placed s)
    {i : Fin n} {l : Point} (hl : s.ctl (some i) = .ready l) (hout : l ≠ .out) : GoesOn s i := by
  have hnext : ∀ {l' : Point} {v : Config (Option (Fin n)) MemBasedState Point},
      Leads (code n) s (v.put (some i) (.ready l')) → l' ≠ l → GoesOn s i := by
    intro l' v hleads hne
    refine ⟨_, hleads, ?_⟩
    rw [ctl_put_self, hl]
    simpa using hne
  have hsleep : ∀ {l' : Point} {v : Config (Option (Fin n)) MemBasedState Point},
      Leads (code n) s (v.put (some i) (.asleep l')) → GoesOn s i := by
    intro l' v hleads
    refine ⟨_, hleads, ?_⟩
    rw [ctl_put_self, hl]
    simp
  have hclient := hplaced.client i
  rw [hl] at hclient
  cases l with
  | waitForIdle f =>
    rcases frees_or_mine hn hsim hplaced (by rw [hl]; rfl) with ⟨t, ht, hfree, hctl⟩ | hmine
    · refine .of_leads ht hctl ⟨_, leads_lock (c := default) (hctl.trans hl) rfl hfree, ?_⟩
      rw [ctl_put_self, hctl, hl]
      simp
    · have hfit := hsim.held (some i)
      rw [hl] at hfit
      cases hfit.mpr hmine
  | idleTest f =>
    by_cases hstate : s.mem.state = .idle
    · have hcode : code n (some i) default s.mem (.idleTest f) = .act s.mem (.body (.start f)) _ :=
        if_neg (not_not.mpr hstate)
      exact hnext (leads_act hl hcode) (by simp)
    · have hcode : code n (some i) default s.mem (.idleTest f) = .wait (.idleTest f) :=
        if_pos hstate
      exact hsleep (leads_wait hl hcode)
  | body l =>
    cases l with
    | done r => exact hnext (leads_act (c := default) hl rfl) (by simp)
    | start f | reading b o z => exact hnext (leads_act (c := default) hl rfl) (by simp)
  | calling l =>
    have hpick := server_sleeps_or_nobody hn (i := i) (by rw [hl]; rfl)
    exact hnext (leads_signal (c := default) none hl rfl hpick) (by simp)
  | responseTest l =>
    by_cases hstate : s.mem.state = .serverResponse
    · have hcode : code n (some i) default s.mem (.responseTest l) =
          .act s.mem (.body (l.resume s.mem.reply)) [] := if_neg (not_not.mpr hstate)
      exact hnext (leads_act hl hcode) (by simp)
    · have hcode : code n (some i) default s.mem (.responseTest l) = .wait (.responseTest l) :=
        if_pos hstate
      exact hsleep (leads_wait hl hcode)
  | leaving r =>
    have hpick := server_sleeps_or_nobody hn (i := i) (by rw [hl]; rfl)
    exact hnext (leads_signal (c := default) none hl rfl hpick) (by simp)
  | unlocking r => exact hnext (leads_unlock (c := default) hl rfl) (by simp)
  | after r =>
    cases r with
    | access | stat st | read b k busy =>
      exact hnext (leads_act (c := default) hl rfl) (by simp)
  | errnoSet r e =>
    cases r with
    | read b k busy => exact hnext (leads_act (c := default) hl rfl) (by simp)
    | access =>
      by_cases herror : s.mem.error = 0
      · have hcode : code n (some i) default s.mem (.errnoSet .access e) =
            .act s.mem (.valueRead .access e) [] := if_neg (not_not.mpr herror)
        exact hnext (leads_act hl hcode) (by simp)
      · have hcode : code n (some i) default s.mem (.errnoSet .access e) = .act s.mem .out _ :=
          if_pos herror
        exact hnext (leads_act hl hcode) (by simp)
    | stat st =>
      by_cases herror : s.mem.error = 0
      · have hcode : code n (some i) default s.mem (.errnoSet (.stat st) e) =
            .act s.mem (.valueRead (.stat st) e) [] := if_neg (not_not.mpr herror)
        exact hnext (leads_act hl hcode) (by simp)
      · have hcode : code n (some i) default s.mem (.errnoSet (.stat st) e) = .act s.mem .out _ :=
          if_pos herror
        exact hnext (leads_act hl hcode) (by simp)
  | valueRead r e =>
    cases r with
    | access | stat st => exact hnext (leads_act (c := default) hl rfl) (by simp)
    | read b k busy => cases hclient
  | out => exact absurd rfl hout
  | looper | starting | started | loop | answered => cases hclient

/-- A woken client goes on as soon as the mutex is free. -/
theorem goesOn_of_woken (hn : n ≤ 1) {u : Turn n} (hsim : Sim s u) (hplaced : Placed s)
    {i : Fin n} {l : Point} (hl : s.ctl (some i) = .woken l) : GoesOn s i := by
  rcases frees_or_mine hn hsim hplaced (by rw [hl]; rfl) with ⟨t, ht, hfree, hctl⟩ | hmine
  · refine .of_leads ht hctl ⟨_, leads_relock default (hctl.trans hl) hfree, ?_⟩
    rw [ctl_put_self, hctl, hl]
    simp
  · have hfit := hsim.held (some i)
    rw [hl] at hfit
    exact absurd hmine hfit.2

/-- While the client sleeps, the mutex is the server's or free. -/
theorem owner_of_asleep (hn : n ≤ 1) {u : Turn n} (hsim : Sim s u) {i : Fin n} {l : Point}
    (hl : s.ctl (some i) = .asleep l) (hserver : ∀ l, s.ctl none = .ready l → l.inside = false) :
    s.owner = none := by
  cases howner : s.owner with
  | none => rfl
  | some j =>
    obtain ⟨l', hl', hinside⟩ := hsim.held.ready_of_owner howner
    cases j with
    | none =>
      rw [hserver l' hl'] at hinside
      cases hinside
    | some k =>
      obtain rfl : k = i := Fin.ext (by omega)
      rw [hl] at hl'
      cases hl'

/-- A client that waits for its turn is woken when `looper` starts. -/
theorem goesOn_of_idleTest (hn : n ≤ 1) {u : Turn n} (hsim : Sim s u) (hplaced : Placed s)
    {i : Fin n} {f : Function} (hl : s.ctl (some i) = .asleep (.idleTest f))
    (hstate : s.mem.state ≠ .idle) : GoesOn s i := by
  have hnone : u.current = none := by
    cases hcur : u.current with
    | none => rfl
    | some x =>
      obtain ⟨k, l⟩ := x
      obtain rfl : k = i := Fin.ext (by omega)
      have hturn := (hsim.turn k l hcur).turn
      rw [hl] at hturn
      cases hturn
  have hboot := hplaced.boots ((hsim.idle hnone).1.resolve_right hstate)
  have hstart : ∀ {v : Config (Option (Fin n)) MemBasedState Point},
      v.ctl none = .ready .starting → v.ctl (some i) = .asleep (.idleTest f) → GoesOn v i := by
    intro v hv hvi
    refine .of_leads (leads_act (c := default) hv rfl) (ctl_put_of_ne _ _ (by simp)) ?_
    exact goesOn_of_signal (c := default) ((ctl_put_of_ne _ _ (by simp)).trans hvi)
      (ctl_put_self ..) rfl
  have hready := hsim.held.ready_of_not_parks (i := none) (Point.not_parks_of_booting hboot)
  cases hpoint : (s.ctl none).point with
  | looper =>
    rw [hpoint] at hready
    have howner := owner_of_asleep hn hsim hl (fun l hl' => by
      rw [hready] at hl'
      cases hl'
      rfl)
    refine .of_leads (leads_lock (c := default) hready rfl howner)
      (ctl_put_of_ne _ _ (by simp)) ?_
    exact hstart (ctl_put_self ..) ((ctl_put_of_ne _ _ (by simp)).trans hl)
  | starting =>
    rw [hpoint] at hready
    exact hstart hready hl
  | _ =>
    rw [hpoint] at hboot
    cases hboot

/-- A client that waits for its answer is woken with it. -/
theorem goesOn_of_responseTest (hn : n ≤ 1) {u : Turn n} (hsim : Sim s u) (hplaced : Placed s)
    (halert : Alert s) {i : Fin n} {l : Local} (hl : s.ctl (some i) = .asleep (.responseTest l))
    (hstate : s.mem.state ≠ .serverResponse) : GoesOn s i := by
  have haction : s.mem.state = .serviceAction := by
    obtain ⟨l₁, hcur⟩ := hsim.alone i (by rw [hl]; rfl)
    have hphase := hsim.turn i l₁ hcur
    rw [hl] at hphase
    cases hphase with
    | asked p call hp hask hm => rw [hm]; rfl
    | answered p l₀ hp hs hl₀ hpage => exact absurd hs hstate
  have hloop : ∀ {v : Config (Option (Fin n)) MemBasedState Point}, v.ctl none = .ready .loop →
      v.mem.state = .serviceAction → v.ctl (some i) = .asleep (.responseTest l) →
      GoesOn v i := by
    intro v hv hvs hvi
    have hact : code n none default v.mem .loop = .act _ .answered _ := if_neg (not_not.mpr hvs)
    refine .of_leads (leads_act hv hact) (ctl_put_of_ne _ _ (by simp)) ?_
    exact goesOn_of_signal (c := default) ((ctl_put_of_ne _ _ (by simp)).trans hvi)
      (ctl_put_self ..) rfl
  have hserver := hplaced.server
  have hfit := hsim.held none
  cases hnone : s.ctl none with
  | asleep p =>
    rw [hnone] at hserver hfit
    obtain rfl : p = .loop := by
      cases p with
      | loop => rfl
      | idleTest | responseTest => cases hserver
      | _ => cases hfit.1
    exact goesOn_of_signalled hplaced hl (halert none ⟨_, hnone, by rw [haction]; rfl⟩)
  | woken p =>
    rw [hnone] at hserver hfit
    obtain rfl : p = .loop := by
      cases p with
      | loop => rfl
      | idleTest | responseTest => cases hserver
      | _ => cases hfit.1
    have howner := owner_of_asleep hn hsim hl (fun l hl' => by
      rw [hnone] at hl'
      cases hl')
    refine .of_leads (leads_relock default hnone howner) (ctl_put_of_ne _ _ (by simp)) ?_
    exact hloop (ctl_put_self ..) haction ((ctl_put_of_ne _ _ (by simp)).trans hl)
  | ready p =>
    rw [hnone] at hserver
    cases p with
    | loop => exact hloop hnone haction hl
    | started | answered => exact goesOn_of_signal (c := default) hl hnone rfl
    | looper | starting =>
      have hboot := hsim.booting (by rw [hnone]; rfl)
      rw [hboot] at haction
      cases haction
    | _ => cases hserver

/-- **With one client, a function that has begun can go on.** -/
theorem goesOn (hn : n ≤ 1) {u : Turn n} (hsim : Sim s u) (hplaced : Placed s) (halert : Alert s)
    {i : Fin n} (hcall : s.ctl (some i) ≠ .ready .out) : GoesOn s i := by
  cases hctl : s.ctl (some i) with
  | ready l =>
    refine goesOn_of_ready hn hsim hplaced hctl ?_
    rintro rfl
    exact hcall hctl
  | woken l => exact goesOn_of_woken hn hsim hplaced hctl
  | asleep l =>
    by_cases hover : l.awaits = some s.mem.state
    · exact goesOn_of_signalled hplaced hctl (halert _ ⟨l, hctl, hover⟩)
    · have hfit := hsim.held (some i)
      have hclient := hplaced.client i
      rw [hctl] at hfit hclient
      cases l with
      | idleTest f =>
        exact goesOn_of_idleTest hn hsim hplaced hctl fun hs => hover (by rw [hs]; rfl)
      | responseTest l =>
        exact goesOn_of_responseTest hn hsim hplaced halert hctl fun hs => hover (by rw [hs]; rfl)
      | loop => cases hclient
      | _ => cases hfit.1

/-! ## With two clients -/

/-- The points of a client that has not got the service. -/
def Point.queues : Point → Bool
  | .out | .waitForIdle _ | .idleTest _ => true
  | _ => false

/-- The answer is there, and neither the server nor the client it is for is
awake; all others have to wait. -/
structure Stuck (i : Fin n) (l : Local) (s : Config (Option (Fin n)) MemBasedState Point) :
    Prop where
  state : s.mem.state = .serverResponse
  server : s.ctl none = .asleep .loop
  client : s.ctl (some i) = .asleep (.responseTest l)
  others : ∀ k, k ≠ i → (s.ctl (some k)).point.queues = true

/-- Meanwhile the others leave the page alone, go from one such point to
another, and do not signal. -/
theorem queues_of_code {k : Fin n} {c : Choice} {m : MemBasedState} {p : Point}
    (hp : p.queues = true) (hstate : m.state = .serverResponse) :
    ∃ p', p'.queues = true ∧ (code n (some k) c m p = .lock p' ∨ code n (some k) c m p = .wait p' ∨
      ∃ out, code n (some k) c m p = .act m p' out) := by
  cases p with
  | out =>
    cases hcheck : c.call.check with
    | some f =>
      exact ⟨.waitForIdle f, rfl, .inr (.inr ⟨[], by simp only [code, client, hcheck]⟩)⟩
    | none =>
      exact ⟨.out, rfl,
        .inr (.inr ⟨[.refused k ENAMETOOLONG], by simp only [code, client, hcheck]⟩)⟩
  | waitForIdle f => exact ⟨.idleTest f, rfl, .inl rfl⟩
  | idleTest f => exact ⟨.idleTest f, rfl, .inr (.inl (if_pos (by simp [hstate])))⟩
  | _ => cases hp

/-- **A stuck service stays so**, but for a wake-up for no reason. -/
theorem Stuck.step {i : Fin n} {l : Local} (h : Stuck i l s)
    {e : Event (Option (Fin n)) Choice} (he : e.proper = true) :
    Stuck i l (service n s e).1 := by
  have hready : ∀ {j p}, s.ctl j = .ready p → ∃ k, j = some k ∧ p.queues = true := by
    intro j p hj
    cases j with
    | none =>
      rw [h.server] at hj
      cases hj
    | some k =>
      have hki : k ≠ i := by
        rintro rfl
        rw [h.client] at hj
        cases hj
      have hk := h.others k hki
      rw [hj] at hk
      exact ⟨k, rfl, hk⟩
  have hsignal : ∀ j c p p', s.ctl j = .ready p → code n j c s.mem p ≠ .signal p' := by
    intro j c p p' hj hcode
    obtain ⟨k, rfl, hp⟩ := hready hj
    obtain ⟨q, -, h' | h' | ⟨out, h'⟩⟩ := queues_of_code (k := k) (c := c) hp h.state <;>
      rw [h'] at hcode <;> cases hcode
  have hserver := asleep_of_proper he h.server hsignal
  have hclient := asleep_of_proper he h.client hsignal
  rcases (moves_machine (code n) s e).cases_points with
    ⟨hmem, -, hpoints⟩ | ⟨j, c, p, p', m, hj, hcode, heq⟩
  · refine ⟨(congrArg MemBasedState.state hmem).trans h.state, hserver, hclient, fun k hk => ?_⟩
    rcases hpoints with hsame | ⟨j, c, hother, hquiet⟩
    · exact (congrArg Point.queues (hsame (some k))).trans (h.others k hk)
    · by_cases hj : some k = j
      · subst hj
        obtain ⟨q, hq, h' | h' | ⟨out, h'⟩⟩ :=
          queues_of_code (k := k) (c := c) (h.others k hk) h.state
        · rw [h'] at hquiet
          exact (Option.some.inj hquiet) ▸ hq
        · rw [h'] at hquiet
          exact (Option.some.inj hquiet) ▸ hq
        · rw [h'] at hquiet
          cases hquiet
      · exact (congrArg Point.queues (hother (some k) hj)).trans (h.others k hk)
  · obtain ⟨k₀, rfl, hp⟩ := hready hj
    obtain ⟨q, hq, h' | h' | ⟨out, h'⟩⟩ := queues_of_code (k := k₀) (c := c) hp h.state
    · rw [h'] at hcode
      cases hcode
    · rw [h'] at hcode
      cases hcode
    · rw [h'] at hcode
      cases hcode
      refine ⟨(congrArg (fun u => u.mem.state) heq).trans h.state, hserver, hclient, fun k hk => ?_⟩
      rw [service, heq]
      by_cases hkk : k = k₀
      · subst hkk
        rw [ctl_put_self]
        exact hq
      · rw [ctl_put_of_ne _ _ (by simpa using hkk)]
        exact h.others k hk

theorem Stuck.not_goesOn {i : Fin n} {l : Local} (h : Stuck i l s) : ¬ GoesOn s i := by
  rintro ⟨t, ⟨es, hes, rfl⟩, hne⟩
  have hstuck : Stuck i l ((service n).run s es) :=
    Machine.run_invariant (M := service n) (I := Stuck i l) (fun u e he hu => hu.step he) hes h
  exact hne (hstuck.client.trans h.client.symm)

/-! ### How it comes about -/

/-- The entries of a log for other numbers of the clients. -/
def Log.map {n' : ℕ} (g : Fin n → Fin n') : Log n → Log n'
  | .began i f => .began (g i) f
  | .served files req r => .served files req r
  | .ended i r page => .ended (g i) r page
  | .returned i v => .returned (g i) v
  | .refused i errno => .refused (g i) errno

/-- The code is the same for every client. -/
theorem code_map {n' : ℕ} (g : Fin n → Fin n') (j : Option (Fin n)) (c : Choice)
    (m : MemBasedState) (l : Point) :
    code n' (j.map g) c m l = (code n j c m l).map (Log.map g) := by
  cases j with
  | none =>
    show looper c m l = (looper c m l).map (Log.map g)
    unfold looper
    split <;> (try split) <;> rfl
  | some i =>
    show client (g i) c m l = (client i c m l).map (Log.map g)
    unfold client
    split <;> (try split) <;> (try rfl)
    unfold conclude
    split <;> (try split) <;> rfl

/-- The first client asks, the second comes to wait for its turn, and the
server's answer wakes the second. -/
def missedAnswer : List (Event (Option (Fin 2)) Choice) :=
  let server := Event.run none none default
  let first := Event.run (some 0) none default
  let second := Event.run (some 1) none default
  [server, server, server, server] ++ [first, first, first, first, first, first] ++
    [second, second, second] ++ [server, server, Event.run none (some 1) default, server] ++
    [second, second]

theorem stuck_missedAnswer :
    Stuck 0 (.start (.accessFile ⟨[], by decide⟩ 0)) ((service 2).run (boot 2) missedAnswer) where
  state := by decide
  server := by decide
  client := by decide
  others := by decide

/-- **The service with more clients**, of which the others do nothing. -/
theorem extends_boot {n' : ℕ} (g : Fin n → Fin n') :
    Extends (Option.map g) .out (boot n) (boot n') where
  owner := rfl
  ctl j := by cases j <;> rfl
  rest k hk := by
    cases k with
    | none => exact absurd rfl (hk none)
    | some k => rfl
  mem := rfl

theorem Stuck.extends {n' : ℕ} {g : Fin n → Fin n'} {i : Fin n} {l : Local}
    {u : Config (Option (Fin n')) MemBasedState Point} (h : Stuck i l s)
    (hext : Extends (Option.map g) .out s u) : Stuck (g i) l u where
  state := by rw [hext.mem, h.state]
  server := (hext.ctl none).trans h.server
  client := (hext.ctl (some i)).trans h.client
  others k hk := by
    by_cases hex : ∃ k', g k' = k
    · obtain ⟨k', rfl⟩ := hex
      have hk' : k' ≠ i := fun he => hk (congrArg g he)
      rw [show some (g k') = Option.map g (some k') from rfl, hext.ctl]
      exact h.others k' hk'
    · rw [hext.rest (some k)]
      · rfl
      · rintro (_ | k') hk'
        · cases hk'
        · exact hex ⟨k', Option.some.inj hk'⟩

/-! ## The two together -/

/-- What is kept along every run. -/
theorem invariants_run (n : ℕ) (es : List (Event (Option (Fin n)) Choice)) :
    (∃ u, Sim ((service n).run (boot n) es) u) ∧ Placed ((service n).run (boot n) es) ∧
      (n ≤ 1 → Alert ((service n).run (boot n) es)) := by
  have hstep : ∀ s e, True → ((∃ u, Sim s u) ∧ Placed s ∧ (n ≤ 1 → Alert s)) →
      (∃ u, Sim (service n s e).1 u) ∧ Placed (service n s e).1 ∧
        (n ≤ 1 → Alert (service n s e).1) := by
    rintro s e - ⟨⟨u, hsim⟩, hplaced, halert⟩
    obtain ⟨u', hsim', -⟩ := hsim.step e
    have hmoves := moves_machine (code n) s e
    exact ⟨⟨u', hsim'⟩, hplaced.moves hmoves, fun hn => (halert hn).moves hn hmoves⟩
  refine Machine.run_invariant (M := service n)
    (I := fun s => (∃ u, Sim s u) ∧ Placed s ∧ (n ≤ 1 → Alert s)) hstep (fun _ _ => trivial) ?_
  refine ⟨⟨_, sim_boot n⟩, placed_boot n, fun _ j hj => ?_⟩
  obtain ⟨l, hl, -⟩ := hj
  cases j <;> cases hl

/-- **A function that has begun can go on, in every state of every run, if and
only if there is at most one client.** With more, the one signal of an answer
can be spent on a client that waits for its turn, and unless a sleeper is
woken for no reason, the function that waits for the answer stays where it is. -/
theorem client_goes_on_iff (n : ℕ) :
    (∀ (es : List (Event (Option (Fin n)) Choice)) (i : Fin n),
      ((service n).run (boot n) es).ctl (some i) ≠ .ready .out →
        GoesOn ((service n).run (boot n) es) i) ↔ n ≤ 1 := by
  constructor
  · intro h
    by_contra hn
    have hinj : Function.Injective (Fin.castLE (show 2 ≤ n by omega)) := Fin.castLE_injective _
    obtain ⟨hext, -⟩ := (extends_boot (Fin.castLE (show 2 ≤ n by omega))).run
      (Option.map_injective hinj) (code_map _) missedAnswer
    have hstuck := stuck_missedAnswer.extends hext
    refine hstuck.not_goesOn (h _ _ ?_)
    rw [show (service n).run (boot n) _ = (machine (code n)).run (boot n) _ from rfl,
      hstuck.client]
    simp
  · intro hn es i hcall
    obtain ⟨⟨u, hsim⟩, hplaced, halert⟩ := invariants_run n es
    exact goesOn hn hsim hplaced (halert hn) hcall

end Zygote

end Dynamicloader
