import Dynamicloader.Zygote.Progress
/-!
# What a function returns

`errno` and the value of a function are read from the page when the mutex is
released already. With one client nobody touches the page meanwhile, and a
function returns what was there when it left the service; with two, the next
client can have had an answer in the same place (`returns_own_iff`).
-/

namespace Dynamicloader

namespace Zygote

open Monitor

variable {n : ℕ}

/-- What a function has to return, from the page as it left it. -/
def Final.value : Final → Reply → Returned
  | .access, page => .access page.error (if page.error ≠ 0 then -1 else page.data.access.result)
  | .stat st, page => .stat page.error (if page.error ≠ 0 then -1 else page.data.stat.result) st
  | .read result bytesRead _, page =>
    .read page.error (if page.error ≠ 0 then none else result) bytesRead

/-- The client's turn that has ended last, with the page as it left it. -/
def lastEnded (i : Fin n) (log : List (Log n)) : Option (Final × Reply) :=
  (log.filterMap fun
    | .ended j r page => if j = i then some (r, page) else none
    | _ => none).getLast?

/-- Every function in the log returns what it has to. -/
def ReturnsOwn (log : List (Log n)) : Prop :=
  ∀ pre post i v, log = pre ++ Log.returned i v :: post →
    (lastEnded i pre).map (fun x => x.1.value x.2) = some v

/-! ## With one client -/

theorem lastEnded_ended (i : Fin n) (log : List (Log n)) (r : Final) (page : Reply) :
    lastEnded i (log ++ [Log.ended i r page]) = some (r, page) := by
  rw [lastEnded, List.filterMap_append]
  simp

/-- Other entries do not matter. -/
theorem lastEnded_snoc {i : Fin n} {log : List (Log n)} {e : Log n}
    (h : ∀ r page, e ≠ .ended i r page) : lastEnded i (log ++ [e]) = lastEnded i log := by
  rw [lastEnded, List.filterMap_append, lastEnded]
  cases e with
  | ended j r page =>
    have hj : j ≠ i := by
      rintro rfl
      exact h r page rfl
    simp [hj]
  | began | served | returned | refused => simp

theorem ReturnsOwn.snoc {log : List (Log n)} {e : Log n} (h : ReturnsOwn log)
    (he : ∀ i v, e = .returned i v → (lastEnded i log).map (fun x => x.1.value x.2) = some v) :
    ReturnsOwn (log ++ [e]) := by
  intro pre post i v heq
  rcases List.eq_nil_or_concat post with rfl | ⟨post', x, rfl⟩
  · obtain ⟨rfl, hlast⟩ := List.append_inj' heq rfl
    exact he i v (List.singleton_inj.mp hlast)
  · rw [List.concat_eq_append, ← List.cons_append, ← List.append_assoc] at heq
    exact h pre post' i v (List.append_inj' heq rfl).1

/-- A client behind its turn: the page is as it left it, and what it has read
of it is what is there. -/
def Behind (m : MemBasedState) (last : Option (Final × Reply)) : Point → Prop
  | .leaving r | .unlocking r | .after r => last = some (r, m.reply)
  | .errnoSet (.read result k busy) _ => ∃ result₀, last = some (.read result₀ k busy, m.reply) ∧
      result = if m.error ≠ 0 then none else result₀
  | .errnoSet r e => last = some (r, m.reply) ∧ e = m.error
  | .valueRead r e => last = some (r, m.reply) ∧ e = m.error ∧ m.error = 0
  | _ => True

theorem behind_of_turn {m : MemBasedState} {last : Option (Final × Reply)} {p : Point}
    (h : p.turn = true) : Behind m last p := by
  cases p with
  | body l | calling l | responseTest l => trivial
  | _ => cases h

/-- Only what is read of the page matters. -/
theorem behind_congr {m m' : MemBasedState} (h : m'.reply = m.reply)
    {last : Option (Final × Reply)} {p : Point} : Behind m' last p ↔ Behind m last p := by
  have herror : m'.error = m.error := congrArg Reply.error h
  unfold Behind
  split <;> simp only [h, herror]

theorem Goes.behind {m : MemBasedState} {p p' : Point} {ins : Instr MemBasedState Point (Log n)}
    (h : Goes m p ins) (hquiet : ins.quiet = some p') {last : Option (Final × Reply)}
    (hp : Behind m last p) : Behind m last p' := by
  cases h with
  | leaving r | unlocking r =>
    cases Option.some.inj hquiet
    exact hp
  | _ =>
    cases Option.some.inj hquiet
    trivial

/-- **The reads behind `makeIdle`** go on with what is there, and end with what
the function has to return. -/
theorem behind_of_conclude {i : Fin n} {m m' : MemBasedState} {p p' : Point}
    {out : List (Log n)} {last : Option (Final × Reply)} (hp : Behind m last p)
    (h : conclude i m p = .act m' p' out) :
    m' = m ∧ Behind m last p' ∧ (out = [] ∨ ∃ v, out = [.returned i v] ∧
      last.map (fun x => x.1.value x.2) = some v) := by
  unfold conclude at h
  split at h
  · cases h
    exact ⟨rfl, ⟨_, hp, rfl⟩, .inl rfl⟩
  · rename_i r hr
    cases h
    refine ⟨rfl, ?_, .inl rfl⟩
    cases r with
    | read b k busy => exact absurd rfl (hr b k busy)
    | access | stat st => exact ⟨hp, rfl⟩
  · cases h
    obtain ⟨result₀, rfl, rfl⟩ := hp
    exact ⟨rfl, trivial, .inr ⟨_, rfl, rfl⟩⟩
  · obtain ⟨rfl, rfl⟩ := hp
    split at h
    · rename_i herror
      cases h
      refine ⟨rfl, trivial, .inr ⟨_, rfl, ?_⟩⟩
      simp [Final.value, MemBasedState.reply, herror]
    · rename_i herror
      cases h
      exact ⟨rfl, ⟨rfl, rfl, not_not.mp herror⟩, .inl rfl⟩
  · obtain ⟨rfl, rfl⟩ := hp
    split at h
    · rename_i herror
      cases h
      refine ⟨rfl, trivial, .inr ⟨_, rfl, ?_⟩⟩
      simp [Final.value, MemBasedState.reply, herror]
    · rename_i herror
      cases h
      exact ⟨rfl, ⟨rfl, rfl, not_not.mp herror⟩, .inl rfl⟩
  · obtain ⟨rfl, rfl, herror⟩ := hp
    cases h
    refine ⟨rfl, trivial, .inr ⟨_, rfl, ?_⟩⟩
    simp [Final.value, MemBasedState.reply, herror]
  · obtain ⟨rfl, rfl, herror⟩ := hp
    cases h
    refine ⟨rfl, trivial, .inr ⟨_, rfl, ?_⟩⟩
    simp [Final.value, MemBasedState.reply, herror]
  · cases h

/-- What is kept along a run with one client. -/
def Kept (s : Config (Option (Fin n)) MemBasedState Point) (log : List (Log n)) : Prop :=
  (∃ u, Sim s u) ∧ ReturnsOwn log ∧ ∀ i, Behind s.mem (lastEnded i log) (s.ctl (some i)).point

/-- During a turn, with one client, no other is behind one. -/
theorem behind_of_current (hn : n ≤ 1) {s : Config (Option (Fin n)) MemBasedState Point}
    {u : Turn n} (hsim : Sim s u) (hcur : u.current ≠ none) (m : MemBasedState)
    (last : Option (Final × Reply)) (i : Fin n) : Behind m last (s.ctl (some i)).point := by
  obtain ⟨⟨k, l⟩, hk⟩ := Option.ne_none_iff_exists'.mp hcur
  obtain rfl : k = i := Fin.ext (by omega)
  exact behind_of_turn (hsim.turn k l hk).turn

/-- A client away from the service goes on with what is there. -/
theorem behind_of_away {i : Fin n} {c : Choice} {m m' : MemBasedState} {p p' : Point}
    {out : List (Log n)} {last : Option (Final × Reply)} (hp : Behind m last p)
    (haway : p.away = true) (h : code n (some i) c m p = .act m' p' out) :
    Behind m last p' ∧ (out = [] ∨ ∃ e, out = [e] ∧ (∀ r page, e ≠ .ended i r page) ∧
      ∀ j v, e = .returned j v → j = i ∧ last.map (fun x => x.1.value x.2) = some v) := by
  have hconclude : conclude i m p = .act m' p' out → Behind m last p' ∧ (out = [] ∨
      ∃ e, out = [e] ∧ (∀ r page, e ≠ .ended i r page) ∧
        ∀ j v, e = .returned j v → j = i ∧ last.map (fun x => x.1.value x.2) = some v) := by
    intro hc
    obtain ⟨-, hp', hout⟩ := behind_of_conclude hp hc
    refine ⟨hp', hout.imp_right ?_⟩
    rintro ⟨v, rfl, hv⟩
    refine ⟨_, rfl, by simp, ?_⟩
    rintro j w ⟨⟩
    exact ⟨rfl, hv⟩
  cases p with
  | out =>
    cases hcheck : c.call.check with
    | some f =>
      simp only [code, client, hcheck] at h
      cases h
      exact ⟨trivial, .inl rfl⟩
    | none =>
      simp only [code, client, hcheck] at h
      cases h
      exact ⟨trivial, .inr ⟨_, rfl, by simp, by simp⟩⟩
  | waitForIdle f => cases h
  | after r | errnoSet r e | valueRead r e => exact hconclude h
  | _ => cases haway

/-- **An action keeps what the clients have yet to return.** -/
theorem kept_act (hn : n ≤ 1) {s : Config (Option (Fin n)) MemBasedState Point} {u : Turn n}
    {log out : List (Log n)} {j : Option (Fin n)} {c : Choice} {p p' : Point} {m : MemBasedState}
    (hsim : Sim s u) (hown : ReturnsOwn log)
    (hbehind : ∀ i, Behind s.mem (lastEnded i log) (s.ctl (some i)).point)
    (hj : s.ctl j = .ready p) (hcode : code n j c s.mem p = .act m p' out) :
    ReturnsOwn (log ++ out) ∧ ∀ i, Behind m (lastEnded i (log ++ out))
      (({ s with mem := m }.put j (.ready p')).ctl (some i)).point := by
  have hmine : ∀ {k : Fin n} {last : Fin n → Option (Final × Reply)}, Behind m (last k) p' →
      ∀ i, Behind m (last i)
        (({ s with mem := m }.put (some k) (.ready p')).ctl (some i)).point := by
    intro k last hk i
    obtain rfl : i = k := Fin.ext (by omega)
    rw [ctl_put_self]
    exact hk
  cases acts_of_code hcode with
  | starting =>
    rw [List.append_nil]
    refine ⟨hown, fun i => ?_⟩
    rw [ctl_put_of_ne _ _ (by simp)]
    exact (behind_congr rfl).mpr (hbehind i)
  | serve hstate =>
    have hcur : u.current ≠ none := by
      intro hnone
      rcases (hsim.idle hnone).1 with hs | hs <;> rw [hs] at hstate <;> cases hstate
    refine ⟨hown.snoc (by simp), fun i => ?_⟩
    rw [ctl_put_of_ne _ _ (by simp)]
    exact behind_of_current hn hsim hcur _ _ i
  | began k f hstate => exact ⟨hown.snoc (by simp), hmine trivial⟩
  | callService k l call hask =>
    rw [List.append_nil]
    exact ⟨hown, hmine trivial⟩
  | resume k l hstate =>
    rw [List.append_nil]
    exact ⟨hown, hmine trivial⟩
  | makeIdle k r =>
    exact ⟨hown.snoc (by simp), hmine (lastEnded_ended k log r _)⟩
  | outside k l l' out hl hl' hout =>
    have hk := hbehind k
    rw [hj] at hk
    obtain ⟨hp', rfl | ⟨e, rfl, hnot, hret⟩⟩ := behind_of_away hk hl hcode
    · rw [List.append_nil]
      exact ⟨hown, hmine hp'⟩
    · refine ⟨hown.snoc fun i v he => ?_, hmine ?_⟩
      · obtain ⟨rfl, hv⟩ := hret i v he
        exact hv
      · rw [lastEnded_snoc hnot]
        exact hp'

theorem Kept.step (hn : n ≤ 1) {s : Config (Option (Fin n)) MemBasedState Point}
    {log : List (Log n)} (h : Kept s log) (e : Event (Option (Fin n)) Choice) :
    Kept (service n s e).1 (log ++ (service n s e).2) := by
  obtain ⟨⟨u, hsim⟩, hown, hbehind⟩ := h
  obtain ⟨u', hsim', -⟩ := hsim.step e
  have hmoves : Moves (code n) s e (service n s e).1 (service n s e).2 := moves_machine (code n) s e
  generalize service n s e = r at hmoves hsim'
  obtain ⟨t, out⟩ := r
  refine ⟨⟨u', hsim'⟩, ?_⟩
  rcases hmoves.cases_points with ⟨hmem, hout, hpoints⟩ | ⟨j, c, p, p', m, hj, hcode, heq⟩
  · obtain rfl : out = [] := hout
    obtain hmem : t.mem = s.mem := hmem
    rw [List.append_nil]
    refine ⟨hown, fun i => ?_⟩
    rw [hmem]
    rcases hpoints with hsame | ⟨k, c, hother, hquiet⟩
    · exact (hsame (some i)).symm ▸ hbehind i
    · by_cases hk : some i = k
      · subst hk
        exact (goes_of_code rfl hquiet).behind hquiet (hbehind i)
      · exact (hother (some i) hk).symm ▸ hbehind i
  · obtain rfl : t = _ := heq
    exact kept_act hn hsim hown hbehind hj hcode

/-! ## With two clients -/

/-- Files that may all be read. -/
def openFiles : Files where
  access _ _ := none
  stat _ := .error ENOENT
  fopen _ := .error ENOENT

/-- The first client has its answer and leaves, the second gets another one,
and then the first reads the page. -/
def lateRead (i j : Fin n) : List (Event (Option (Fin n)) Choice) :=
  let server := Event.run none none default
  let first := Event.run (some i) none default
  let second := Event.run (some j) none default
  [server, server, server, server] ++ [first, first, first, first, first, first] ++
    [server, Event.run none none ⟨openFiles, .accessFile [] 0⟩, Event.run none (some i) default,
      server] ++
    [first, first, first, first, first] ++ [second, second, second, second, second, second] ++
    [server, server, Event.run none (some j) default, server] ++ [second, second, second] ++
    [first, first]

theorem not_returnsOwn_lateRead : ∃ pre post v,
    (service 2).outputs (boot 2) (lateRead 0 1) = pre ++ Log.returned 0 v :: post ∧
      (lastEnded 0 pre).map (fun x => x.1.value x.2) ≠ some v := by
  have hlast : ((service 2).outputs (boot 2) (lateRead 0 1)).drop 6 =
      [.returned 0 (.access 2 (-1))] := by
    rfl
  refine ⟨((service 2).outputs (boot 2) (lateRead 0 1)).take 6, [], .access 2 (-1), ?_, by decide⟩
  rw [← hlast, List.take_append_drop]

/-- The numbers of the clients do not matter. -/
theorem lastEnded_map {n' : ℕ} {g : Fin n → Fin n'} (hg : Function.Injective g) (i : Fin n)
    (log : List (Log n)) : lastEnded (g i) (log.map (Log.map g)) = lastEnded i log := by
  rw [lastEnded, List.filterMap_map, lastEnded]
  congr 1
  refine List.filterMap_congr fun e _ => ?_
  cases e with
  | ended j r page =>
    show (if g j = g i then some (r, page) else none) = if j = i then some (r, page) else none
    simp only [hg.eq_iff]
  | began | served | returned | refused => rfl

/-- **Every function of every run returns what was in the page when it left
the service, if and only if there is at most one client.** With more, the
answer of the next client can be in the page by the time `errno` and the value
are read. -/
theorem returns_own_iff (n : ℕ) :
    (∀ es : List (Event (Option (Fin n)) Choice),
      ReturnsOwn ((service n).outputs (boot n) es)) ↔ n ≤ 1 := by
  constructor
  · intro h
    by_contra hn
    have hle : 2 ≤ n := by omega
    have hinj := Fin.castLE_injective hle
    obtain ⟨-, hout⟩ := (extends_boot (Fin.castLE hle)).run (Option.map_injective hinj)
      (code_map _) (lateRead 0 1)
    obtain ⟨pre, post, v, heq, hne⟩ := not_returnsOwn_lateRead
    have hlog : (machine (code 2)).outputs (boot 2) (lateRead 0 1) =
        pre ++ .returned 0 v :: post := heq
    rw [hlog, List.map_append] at hout
    have hown := h _ _ _ _ _ hout
    rw [lastEnded_map hinj] at hown
    exact hne hown
  · intro hn es
    have hboot : Kept (boot n) [] := by
      refine ⟨⟨_, sim_boot n⟩, fun pre post i v heq => ?_, fun i => trivial⟩
      cases pre <;> cases heq
    exact (Machine.run_outputs_invariant (M := service n) (J := Kept)
      (fun s e log hs => hs.step hn e) hboot es).2.1

end Zygote

end Dynamicloader
