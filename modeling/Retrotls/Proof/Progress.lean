import Retrotls.Proof.Lifecycle

/-!
# What the daemon can still do

* `finishes_iff`: from a reachable state `run` can still return **exactly when** it has not
  failed and no listener task has panicked.
* `drains_iff`: a drain can still end by itself **exactly when** the next wake-up is not
  lost.
-/

namespace Retrotls

namespace Server

variable {s s' : Server} {a : Act}

/-! ## Returning -/

/-- `run` has not failed, and no listener task has panicked. -/
structure Unbroken (s : Server) : Prop where
  main : ∀ err, s.main ≠ .failed err
  listeners : ∀ l ∈ s.listeners, l ≠ .ended false

/-- The signal is sent before the first handle is awaited. -/
def Told (s : Server) : Prop := ∀ k, s.main = .joining k → s.shutdown = true

theorem step_told (s : Server) (a : Act) (s' : Server) (hs : s.Told) (h : s.step a = some s') :
    s'.Told := by
  intro k hk
  rcases step_cases h with ⟨addr, rest, rfl, hm, -, rfl⟩ | ⟨b, m, rfl, hm, rfl⟩ |
    ⟨l, b, ls, rfl, -, rfl⟩ | ⟨c, b, cs, rfl, -, rfl⟩
  · exact hs k hk
  · have hn := next_some hm
    simp only at hk
    subst hk
    generalize hm₀ : s.main = m₀ at hn
    cases hn with
    | signal => simp
    | join k' => simp [hs k' hm₀]
  · exact hs k hk
  · exact hs k ((Main.wake_ite_iff (by simp) _).1 hk)

/-- A listener task that has panicked, or a failure of `run`, stays. -/
theorem step_broken (h : s.step a = some s') (hs : s'.Unbroken) : s.Unbroken := by
  rcases step_cases h with ⟨addr, rest, rfl, -, -, rfl⟩ | ⟨b, m, rfl, hm, rfl⟩ |
    ⟨l, b, ls, rfl, hl, rfl⟩ | ⟨c, b, cs, rfl, -, rfl⟩
  · exact ⟨hs.main, fun l hl => hs.listeners l (List.mem_append_left _ hl)⟩
  · refine ⟨?_, hs.listeners⟩
    intro err he
    have hn := next_some hm
    rw [he] at hn
    cases hn
  · obtain ⟨x, y, hx, hy, rfl⟩ := move_some.1 hl
    refine ⟨hs.main, ?_⟩
    rintro z hz rfl
    obtain ⟨i, hi⟩ := List.mem_iff_getElem?.1 hz
    have hil : l ≠ i := by
      rintro rfl
      rw [hx, Option.some.injEq] at hi
      exact Listener.next_ended hy false hi
    refine hs.listeners (.ended false) (List.mem_of_getElem? (i := i) ?_) rfl
    rw [List.getElem?_set_ne hil]
    exact hi
  · refine ⟨fun err he => hs.main err ?_, hs.listeners⟩
    exact (Main.wake_ite_iff (by simp) _).2 he

theorem exec_broken {as : List Act} {t : Server} (h : exec step s as = some t) (ht : t.Unbroken) :
    s.Unbroken := by
  induction as generalizing s with
  | nil =>
    rw [exec_nil, Option.some.injEq] at h
    exact h ▸ ht
  | cons a as ih =>
    obtain ⟨s', h₁, h₂⟩ := exec_cons.1 h
    exact step_broken h₁ (ih h₂)

/-- A listener task in its loop takes a step. -/
theorem listener_step {l : ℕ} {x y : Listener} {b : ListenerAct} (hx : s.listeners[l]? = some x)
    (hy : x.next s.shutdown b = some y) : s.step (.listener l b) =
      some { s with listeners := s.listeners.set l y, conns := s.conns ++ b.spawned } := by
  have hm : move (Listener.next s.shutdown b) l s.listeners = some (s.listeners.set l y) :=
    move_some.2 ⟨x, y, hx, hy, rfl⟩
  simp [step, hm]

/-- After the signal, a listener task can end its loop. -/
theorem end_listener {l : ℕ} {x : Listener} (hx : s.listeners[l]? = some x) (hne : x ≠ .ended false)
    (hsh : s.shutdown = true) : Reaches step s fun t =>
      t.main = s.main ∧ t.shutdown = true ∧ t.listeners = s.listeners.set l (.ended true) := by
  have hl : l < s.listeners.length := (List.getElem?_eq_some_iff.1 hx).1
  cases x with
  | select =>
    have hn : Listener.next s.shutdown .breakLoop .select = some (.ended true) := by
      rw [hsh]
      rfl
    exact .cons (listener_step hx hn) (.here ⟨rfl, hsh, rfl⟩)
  | accepted =>
    -- the connection in its hands goes to a task first
    refine .cons (listener_step hx (b := .spawn) rfl) ?_
    have hx' : (s.listeners.set l .select)[l]? = some .select := List.getElem?_set_self hl
    have hn : Listener.next s.shutdown .breakLoop .select = some (.ended true) := by
      rw [hsh]
      rfl
    refine .cons (listener_step (s := { s with listeners := s.listeners.set l .select, conns := _ })
      hx' hn) (.here ⟨rfl, hsh, ?_⟩)
    exact List.set_set _
  | ended ok =>
    cases ok with
    | false => exact absurd rfl hne
    | true =>
      refine .here ⟨rfl, hsh, ?_⟩
      obtain ⟨_, he⟩ := List.getElem?_eq_some_iff.1 hx
      rw [← he, List.set_getElem_self]

/-- A step of `run`. -/
theorem main_step {m : Main} {b : MainAct} (h : s.main.next s b = some m) (hb : b ≠ .signal) :
    s.step (.main b) = some { s with main := m } := by
  simp [step, h, hb]

/-- From listener task `k` on, all tasks end and are joined. -/
theorem join_all (n : ℕ) (s : Server) (k : ℕ) (hm : s.main = .joining k) (hsh : s.shutdown = true)
    (hl : ∀ l ∈ s.listeners, l ≠ .ended false) (hn : s.listeners.length = k + n) :
    Reaches step s fun t => t.main = .draining .load := by
  induction n generalizing s k with
  | zero =>
    have hnext : s.main.next s .startDrain = some (.draining .load) := by
      rw [hm]
      exact if_pos hn.symm
    exact .cons (main_step hnext (by simp)) (.here rfl)
  | succ n ih =>
    have hk : k < s.listeners.length := by omega
    have hx := List.getElem?_eq_getElem hk
    refine (end_listener hx (hl _ (List.getElem_mem hk)) hsh).trans ?_
    rintro t ⟨htm, htsh, htl⟩
    have hnext : t.main.next t .join = some (.joining (k + 1)) := by
      rw [htm, hm]
      exact if_pos (by rw [htl, List.getElem?_set_self hk])
    refine .cons (main_step hnext (by simp)) (ih _ (k + 1) rfl htsh ?_ ?_)
    · intro l hmem
      rw [htl] at hmem
      rcases List.mem_or_eq_of_mem_set hmem with hmem | rfl
      · exact hl l hmem
      · simp
    · rw [htl, List.length_set]
      omega

/-- The rest of the listeners is bound. -/
theorem bind_all (rest : List SocketAddr) (s : Server) (ht : s.toBind = rest) (hm : s.main = .binding)
    (hl : ∀ l ∈ s.listeners, l ≠ .ended false) : Reaches step s fun t =>
      t.main = .joining 0 ∧ t.shutdown = true ∧ ∀ l ∈ t.listeners, l ≠ .ended false := by
  induction rest generalizing s with
  | nil =>
    have h₁ : s.step (.main .ready) = some { s with main := .waiting } :=
      main_step (by rw [hm]; exact if_pos ht) (by simp)
    refine .cons h₁ (.cons (a := .main .signal) rfl (.here ⟨rfl, ?_, hl⟩))
    simp
  | cons addr rest ih =>
    have h₁ : s.step .bind =
        some { s with toBind := rest, listeners := s.listeners ++ [.select] } := by
      simp [step, hm, ht]
    refine .cons h₁ (ih _ rfl hm fun l hmem => ?_)
    rcases List.mem_append.1 hmem with hmem | hmem
    · exact hl l hmem
    · rw [List.mem_singleton.1 hmem]
      simp

/-- `run` has returned `Ok(())`. -/
def Finished (s : Server) : Prop := ∃ late, s.main = .finished late

/-- The drain can time out wherever it is. -/
theorem finish_draining {w : Waiter} (hm : s.main = .draining w) : Reaches step s Finished := by
  have h₁ : s.step (.main .timeout) = some { s with main := .timedOut } := by
    refine main_step ?_ (by simp)
    rw [hm]
    cases w with
    | load | create => rfl
    | created woken | parked woken => cases woken <;> rfl
  exact .cons h₁ (.cons (a := .main .cleanup) rfl (.here ⟨true, rfl⟩))

theorem finish_joining {k : ℕ} (hs : s.Inv) (hm : s.main = .joining k) (hsh : s.shutdown = true)
    (hl : ∀ l ∈ s.listeners, l ≠ .ended false) : Reaches step s Finished := by
  have hk : k ≤ s.listeners.length := by
    cases k with
    | zero => exact Nat.zero_le _
    | succ k => exact (List.getElem?_eq_some_iff.1 (hs.joining _ hm k (Nat.lt_succ_self k))).1
  obtain ⟨n, hn⟩ := Nat.exists_eq_add_of_le hk
  exact (join_all n s k hm hsh hl hn).trans fun t ht => finish_draining ht

theorem finish_reaches (hs : s.Inv) (ht : s.Told) (hu : s.Unbroken) : Reaches step s Finished := by
  cases hm : s.main with
  | binding =>
    refine (bind_all s.toBind s rfl hm hu.listeners).trans ?_
    rintro t ⟨htm, htsh, htl⟩
    exact (join_all t.listeners.length t 0 htm htsh htl (Nat.zero_add _).symm).trans
      fun u hu => finish_draining hu
  | waiting =>
    have h₁ : s.step (.main .signal) = some { s with main := .joining 0, shutdown := true } := by
      simp [step, hm, Main.next]
    have hjoin := join_all s.listeners.length { s with main := .joining 0, shutdown := true } 0 rfl rfl
      hu.listeners (Nat.zero_add _).symm
    exact .cons h₁ (hjoin.trans fun u hu => finish_draining hu)
  | joining k => exact finish_joining hs hm (ht k hm) hu.listeners
  | draining w => exact finish_draining hm
  | drained =>
    have h₁ : s.step (.main .cleanup) = some { s with main := .finished false } :=
      main_step (by rw [hm]; rfl) (by simp)
    exact .cons h₁ (.here ⟨false, rfl⟩)
  | timedOut =>
    have h₁ : s.step (.main .cleanup) = some { s with main := .finished true } :=
      main_step (by rw [hm]; rfl) (by simp)
    exact .cons h₁ (.here ⟨true, rfl⟩)
  | finished late => exact .here ⟨late, hm⟩
  | failed err => exact absurd hm (hu.main err)

/-- **When `run` can still return.** From every reachable state, some continuation leads
`run` to its end exactly when `run` has not failed and no listener task has panicked. -/
theorem finishes_iff {addrs : List SocketAddr} {as : List Act} {s : Server}
    (h : exec step (init addrs) as = some s) : Reaches step s Finished ↔ s.Unbroken := by
  have hs := exec_inv_init h
  have htold : s.Told := by
    have h0 : (init addrs).Told := fun k hk => by cases hk
    exact exec_inv_all (fun s a s' => step_told s a s') h0 h
  constructor
  · rintro ⟨bs, t, he, late, ht⟩
    refine exec_broken he ⟨fun err => by rw [ht]; simp, fun l hl => ?_⟩
    -- at the end all listener tasks have returned `Ok(())`
    have hinv : t.Inv := exec_inv_all (fun _ _ _ => step_inv) hs he
    rw [hinv.joined (by rw [ht]; rfl) l hl]
    simp
  · exact finish_reaches hs htold

/-- A stuck drain still comes to an end. -/
theorem finishes_iff_lost : ∃ s, exec step (init [localhost]) lostDrain = some s ∧
    Reaches step s Finished := by
  have h : exec step (init [localhost]) lostDrain =
      some ⟨[], [.ended true], [.closed], 0, true, .draining (.parked false)⟩ := by decide
  exact ⟨_, h, (finishes_iff h).2 ⟨fun err => by simp, by simp⟩⟩

/-! ## Draining -/

/-- `wait_for_in_flight` loads the counter again without being woken. -/
def awake : Waiter → Bool
  | .load => true
  | .create => false
  | .created woken => woken
  | .parked woken => woken

theorem wake_wake (m : Main) : m.wake.wake = m.wake := by
  cases m with
  | draining w => cases w <;> rfl
  | _ => rfl

/-- A connection task takes a step. -/
theorem conn_step {c : ℕ} {x y : Conn} {b : ConnAct} (hx : s.conns[c]? = some x)
    (hy : x.next b = some y) : s.step (.conn c b) =
      some { s with conns := s.conns.set c y, inFlight := b.count s.inFlight
                    main := if b = .notifyWaiters then s.main.wake else s.main } := by
  have hm : move (Conn.next b) c s.conns = some (s.conns.set c y) := move_some.2 ⟨x, y, hx, hy, rfl⟩
  simp [step, hm]

/-- A connection task takes a step that wakes nobody. -/
theorem reaches_conn {P : Server → Prop} {c : ℕ} {x y : Conn} {b : ConnAct}
    (hx : s.conns[c]? = some x) (hy : x.next b = some y) (hb : b ≠ .notifyWaiters)
    (h : ∀ t : Server, t.conns = s.conns.set c y → t.main = s.main → Reaches step t P) :
    Reaches step s P := by
  have hs := conn_step hx hy
  rw [if_neg hb] at hs
  exact .cons hs (h _ rfl rfl)

theorem close_released {c : ℕ} (hx : s.conns[c]? = some .released) :
    Reaches step s fun t => t.conns = s.conns.set c .closed ∧ t.main = s.main.wake :=
  .cons (conn_step hx (b := .notifyWaiters) rfl) (.here ⟨rfl, rfl⟩)

theorem close_served {c : ℕ} {ok : Bool} (hx : s.conns[c]? = some (.served ok)) :
    Reaches step s fun t => t.conns = s.conns.set c .closed ∧ t.main = s.main.wake := by
  have hc : c < s.conns.length := (List.getElem?_eq_some_iff.1 hx).1
  refine reaches_conn hx (y := .released) (b := .fetchSub) rfl (by simp) fun t htc htm => ?_
  have ht : t.conns[c]? = some .released := by rw [htc, List.getElem?_set_self hc]
  refine (close_released ht).trans fun u hu => .here ⟨?_, by rw [hu.2, htm]⟩
  rw [hu.1, htc, List.set_set]

/-- A connection that is served. -/
theorem close_open {c : ℕ} {x : Conn} (hx : s.conns[c]? = some x)
    (hy : x.next (.finish true) = some (.served true)) :
    Reaches step s fun t => t.conns = s.conns.set c .closed ∧ t.main = s.main.wake := by
  have hc : c < s.conns.length := (List.getElem?_eq_some_iff.1 hx).1
  refine reaches_conn hx hy (by simp) fun t htc htm => ?_
  have ht : t.conns[c]? = some (.served true) := by rw [htc, List.getElem?_set_self hc]
  refine (close_served ht).trans fun u hu => .here ⟨?_, by rw [hu.2, htm]⟩
  rw [hu.1, htc, List.set_set]

/-- Every connection task can come to its end, and wakes the waiter there. -/
theorem close_conn {c : ℕ} {x : Conn} (hx : s.conns[c]? = some x) (hne : x ≠ .closed) :
    Reaches step s fun t => t.conns = s.conns.set c .closed ∧ t.main = s.main.wake := by
  have hc : c < s.conns.length := (List.getElem?_eq_some_iff.1 hx).1
  cases x with
  | spawned =>
    refine reaches_conn hx (y := .idle) (b := .poll) rfl (by simp) fun t htc htm => ?_
    have ht : t.conns[c]? = some .idle := by rw [htc, List.getElem?_set_self hc]
    refine (close_open ht rfl).trans fun u hu => .here ⟨?_, by rw [hu.2, htm]⟩
    rw [hu.1, htc, List.set_set]
  | idle | handling => exact close_open hx rfl
  | served ok => exact close_served hx
  | released => exact close_released hx
  | closed => exact absurd rfl hne

/-- The connection tasks that are not over. -/
def unclosed (s : Server) : ℕ := s.conns.countP fun c => !c.isClosed

/-- All connection tasks come to their end, and the last one wakes the waiter. -/
theorem close_all (n : ℕ) (s : Server) (hn : s.unclosed = n) : Reaches step s fun t =>
    (∀ c ∈ t.conns, c = .closed) ∧ t.main = if n = 0 then s.main else s.main.wake := by
  induction n generalizing s with
  | zero =>
    refine .here ⟨fun c hc => ?_, rfl⟩
    have hnot := List.countP_eq_zero.1 hn c hc
    simpa [Conn.isClosed] using hnot
  | succ n ih =>
    have hpos : 0 < s.unclosed := by omega
    obtain ⟨x, hmem, hx⟩ := List.countP_pos_iff.1 hpos
    obtain ⟨c, hc⟩ := List.mem_iff_getElem?.1 hmem
    have hne : x ≠ .closed := by simpa [Conn.isClosed] using hx
    refine (close_conn hc hne).trans ?_
    rintro t ⟨htc, htm⟩
    have hset := countP_set (fun c => !Conn.isClosed c) hc .closed
    have hlen : t.unclosed = n := by
      rw [hx, Bool.toNat_true] at hset
      have hclosed : (!Conn.isClosed .closed).toNat = 0 := rfl
      unfold unclosed at hn ⊢
      rw [htc]
      omega
    refine (ih t hlen).trans ?_
    rintro u ⟨hu, hum⟩
    refine .here ⟨hu, ?_⟩
    rw [hum, htm, if_neg (Nat.succ_ne_zero n)]
    split
    · rfl
    · exact wake_wake _

/-- With all connection tasks over, a waiter that is awake ends. -/
theorem drained_of_awake {w : Waiter} (hs : s.Inv) (hm : s.main = .draining w) (hw : awake w = true)
    (hc : ∀ c ∈ s.conns, c = .closed) : Reaches step s fun t => t.main = .drained := by
  have h0 : s.inFlight = 0 := by
    rw [hs.count, List.countP_eq_zero]
    intro c hmem
    rw [hc c hmem]
    decide
  have hload : ∀ t : Server, t.main = .draining .load → t.inFlight = 0 →
      Reaches step t fun u => u.main = .drained := by
    intro t htm ht0
    have hnext : t.main.next t .load = some .drained := by
      rw [htm]
      simp [Main.next, ht0]
    exact .cons (main_step hnext (by simp)) (.here rfl)
  cases w with
  | load => exact hload s hm h0
  | create => cases hw
  | created woken =>
    cases woken with
    | false => cases hw
    | true =>
      have hnext : s.main.next s .park = some (.draining .load) := by rw [hm]; rfl
      exact .cons (main_step hnext (by simp)) (hload _ rfl h0)
  | parked woken =>
    cases woken with
    | false => cases hw
    | true =>
      have hnext : s.main.next s .resume = some (.draining .load) := by rw [hm]; rfl
      exact .cons (main_step hnext (by simp)) (hload _ rfl h0)

/-- The waiter is, or will be, parked with nobody left to wake it. -/
structure Stuck (s : Server) : Prop where
  inv : s.Inv
  main : (∃ w, s.main = .draining w ∧ awake w = false) ∨ s.main = .timedOut ∨ s.main = .finished true
  conns : ∀ c ∈ s.conns, c = .closed

theorem Stuck.joined (hs : s.Stuck) : s.main.joined = true := by
  rcases hs.main with ⟨w, hm, -⟩ | hm | hm <;> rw [hm] <;> rfl

theorem step_stuck (s : Server) (a : Act) (s' : Server) (hs : s.Stuck) (h : s.step a = some s') :
    s'.Stuck := by
  have hinv := step_inv hs.inv h
  have hj := hs.joined
  rcases step_cases h with ⟨addr, rest, rfl, hm, -, rfl⟩ | ⟨b, m, rfl, hm, rfl⟩ |
    ⟨l, b, ls, rfl, hl, rfl⟩ | ⟨c, b, cs, rfl, hc, rfl⟩
  · rw [hm] at hj
    cases hj
  · refine ⟨hinv, ?_, hs.conns⟩
    have hn := next_some hm
    have hmain := hs.main
    generalize hm₀ : s.main = m₀ at hn hmain hj
    cases hn with
    | bindFails | ready | signal | join | joinFails | startDrain => cases hj
    | load_zero | load | ready_at_once | resume =>
      rcases hmain with ⟨w, hw, ha⟩ | hw | hw <;> cases hw
      cases ha
    | create => exact Or.inl ⟨_, rfl, rfl⟩
    | park => exact Or.inl ⟨_, rfl, rfl⟩
    | timeout w => exact Or.inr (Or.inl rfl)
    | cleanup => rcases hmain with ⟨w, hw, -⟩ | hw | hw <;> cases hw
    | cleanup_late => exact Or.inr (Or.inr rfl)
  · obtain ⟨x, y, hx, hy, -⟩ := move_some.1 hl
    exact absurd (hs.inv.joined hj x (List.mem_of_getElem? hx)) (Listener.next_ended hy true)
  · obtain ⟨x, y, hx, hy, -⟩ := move_some.1 hc
    rw [hs.conns x (List.mem_of_getElem? hx)] at hy
    cases hy

/-- Where some connection task is not over, its end can wake the waiter. -/
theorem drained_of_unclosed {w : Waiter} (hs : s.Inv) (hm : s.main = .draining w)
    (hw : awake w = true ∨ w ≠ .create ∧ 0 < s.unclosed) :
    Reaches step s fun t => t.main = .drained := by
  refine ((close_all s.unclosed s rfl).inv (fun _ _ _ => step_inv) hs).trans ?_
  rintro t ⟨⟨htc, htm⟩, ht⟩
  rw [hm] at htm
  cases w with
  | load => exact drained_of_awake ht (htm.trans (by split <;> rfl)) rfl htc
  | create =>
    rcases hw with hw | hw
    · cases hw
    · exact absurd rfl hw.1
  | created woken | parked woken =>
    cases woken with
    | true => exact drained_of_awake ht (htm.trans (by split <;> rfl)) rfl htc
    | false =>
      have hpos : s.unclosed ≠ 0 := by
        rcases hw with hw | hw
        · cases hw
        · omega
      rw [if_neg hpos] at htm
      exact drained_of_awake ht htm rfl htc

/-- **When a drain can still end by itself**, and not only by its timeout: exactly when
`wait_for_in_flight` loads the counter again without being woken, or some connection task
is left to wake it. -/
theorem drains_iff {addrs : List SocketAddr} {as : List Act} {s : Server} {w : Waiter}
    (h : exec step (init addrs) as = some s) (hm : s.main = .draining w) :
    Reaches step s (fun t => t.main = .drained) ↔ awake w = true ∨ ∃ c ∈ s.conns, c ≠ .closed := by
  have hs := exec_inv_init h
  constructor
  · intro hr
    by_contra hnot
    obtain ⟨hw, hc⟩ := not_or.1 hnot
    have hstuck : s.Stuck := by
      refine ⟨hs, Or.inl ⟨w, hm, by simpa using hw⟩, fun c hmem => ?_⟩
      by_contra hne
      exact hc ⟨c, hmem, hne⟩
    refine not_reaches step_stuck hstuck (fun t ht htm => ?_) hr
    rcases ht.main with ⟨w', hm', -⟩ | hm' | hm' <;> rw [htm] at hm' <;> cases hm'
  · intro hor
    have hpos : (∃ c ∈ s.conns, c ≠ .closed) → 0 < s.unclosed := by
      rintro ⟨c, hmem, hne⟩
      exact List.countP_pos_iff.2 ⟨c, hmem, by simpa [Conn.isClosed] using hne⟩
    by_cases hcreate : w = .create
    · -- the future is created first
      subst hcreate
      have hc := hor.resolve_left (by decide)
      have hnext : s.main.next s .create = some (.draining (.created false)) := by rw [hm]; rfl
      have hstep := main_step hnext (by simp)
      exact .cons hstep (drained_of_unclosed (step_inv hs hstep) rfl (Or.inr ⟨by simp, hpos hc⟩))
    · exact drained_of_unclosed hs hm (hor.imp_right fun hc => ⟨hcreate, hpos hc⟩)

theorem drains_iff_lost : ∃ s, exec step (init [localhost]) lostDrain = some s ∧
    ¬ Reaches step s fun t => t.main = .drained := by
  have h : exec step (init [localhost]) lostDrain =
      some ⟨[], [.ended true], [.closed], 0, true, .draining (.parked false)⟩ := by decide
  refine ⟨_, h, fun hr => ?_⟩
  rcases (drains_iff h rfl).1 hr with hw | ⟨c, hc, hne⟩
  · cases hw
  · exact hne (List.mem_singleton.1 hc)

end Server

end Retrotls
