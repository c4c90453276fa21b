import Retrotls.Spec.Server

/-!
# Every interleaving of the tasks

`Server.Inv` holds after every run (`Server.exec_inv_init`):

* the counter is the number of connection tasks whose guard is counted;
* when `run` drains, every listener task has returned `Ok(())`;
* the shutdown signal is sent after the last bind.
-/

namespace Retrotls

/-- All listener tasks have been joined. -/
def Main.joined : Main → Bool
  | .draining _ => true
  | .drained => true
  | .timedOut => true
  | .finished _ => true
  | _ => false

/-- `wait_for_in_flight` has returned. -/
def Main.reported : Main → Bool
  | .drained => true
  | .finished late => !late
  | _ => false

@[simp] theorem Main.wake_joined (m : Main) : m.wake.joined = m.joined := by
  unfold Main.wake
  split <;> rfl

@[simp] theorem Main.wake_reported (m : Main) : m.wake.reported = m.reported := by
  unfold Main.wake
  split <;> rfl

/-- A wake leads to draining states only, from draining states. -/
theorem Main.wake_eq_iff {m m' : Main} (hm' : ∀ w, m' ≠ .draining w) : m.wake = m' ↔ m = m' := by
  unfold wake
  split
  · exact iff_of_false (fun h => hm' _ h.symm) fun h => hm' _ h.symm
  · exact iff_of_false (fun h => hm' _ h.symm) fun h => hm' _ h.symm
  · exact Iff.rfl

/-- A step of a connection task may wake the future: what a wake keeps, the step keeps. -/
theorem Main.wake_ite {α : Type*} (g : Main → α) (hg : ∀ m : Main, g m.wake = g m) (c : Prop)
    [Decidable c] (m : Main) : g (if c then m.wake else m) = g m := by
  split
  · exact hg m
  · rfl

theorem Main.wake_ite_iff {m m' : Main} (hm' : ∀ w, m' ≠ .draining w) (c : Prop) [Decidable c] :
    (if c then m.wake else m) = m' ↔ m = m' := by
  split
  · exact wake_eq_iff hm'
  · exact Iff.rfl

/-- A step of a connection task changes the counter by its own guard. -/
theorem Conn.count_next {x y : Conn} {a : ConnAct} {n : ℕ} (h : x.next a = some y)
    (hn : x.guarded.toNat ≤ n) : a.count n + x.guarded.toNat = n + y.guarded.toNat := by
  cases x with
  | spawned =>
    obtain ⟨rfl, rfl⟩ := of_guard h
    rfl
  | idle => cases a <;> cases h <;> rfl
  | handling => cases a <;> cases h <;> rfl
  | served ok =>
    obtain ⟨rfl, rfl⟩ := of_guard h
    -- a guard that is held was counted, so the subtraction does not wrap
    have h1 : 1 ≤ n := hn
    obtain ⟨n, rfl⟩ : ∃ m, n = m + 1 := ⟨n - 1, by omega⟩
    rfl
  | released =>
    obtain ⟨rfl, rfl⟩ := of_guard h
    rfl
  | closed => cases h

theorem Listener.next_ended {shutdown : Bool} {a : ListenerAct} {l l' : Listener}
    (h : l.next shutdown a = some l') : ∀ ok, l ≠ .ended ok := by
  rintro ok rfl
  cases h

namespace Server

variable {s s' : Server} {a : Act}

/-- What one step can do. -/
theorem step_cases (h : s.step a = some s') :
    (∃ addr rest, a = .bind ∧ s.main = .binding ∧ s.toBind = addr :: rest ∧
      s' = { s with toBind := rest, listeners := s.listeners ++ [.select] }) ∨
    (∃ b m, a = .main b ∧ s.main.next s b = some m ∧
      s' = { s with main := m, shutdown := s.shutdown || b = .signal }) ∨
    (∃ l b ls, a = .listener l b ∧ move (Listener.next s.shutdown b) l s.listeners = some ls ∧
      s' = { s with listeners := ls, conns := s.conns ++ b.spawned }) ∨
    (∃ c b cs, a = .conn c b ∧ move (Conn.next b) c s.conns = some cs ∧
      s' = { s with conns := cs, inFlight := b.count s.inFlight
                    main := if b = .notifyWaiters then s.main.wake else s.main }) := by
  cases a with
  | bind =>
    left
    simp only [step] at h
    split at h
    · rename_i hm ht
      exact ⟨_, _, rfl, hm, ht, (Option.some.inj h).symm⟩
    · cases h
  | main b =>
    right; left
    obtain ⟨m, hm, rfl⟩ := Option.map_eq_some_iff.1 h
    exact ⟨b, m, rfl, hm, rfl⟩
  | listener l b =>
    right; right; left
    obtain ⟨ls, hls, rfl⟩ := Option.map_eq_some_iff.1 h
    exact ⟨l, b, ls, rfl, hls, rfl⟩
  | conn c b =>
    right; right; right
    obtain ⟨cs, hcs, rfl⟩ := Option.map_eq_some_iff.1 h
    exact ⟨c, b, cs, rfl, hcs, rfl⟩

/-! ## The steps of `run` -/

/-- The steps of `run`, one by one. -/
inductive Next (s : Server) : Main → MainAct → Main → Prop
  | bindFails (source addr) (h : s.toBind.head? = some addr) :
      Next s .binding (.bindFails source) (.failed (.bindFailed addr source))
  | ready (h : s.toBind = []) : Next s .binding .ready .waiting
  | signal : Next s .waiting .signal (.joining 0)
  | join (k) (h : s.listeners[k]? = some (.ended true)) : Next s (.joining k) .join (.joining (k + 1))
  | joinFails (k message) (h : s.listeners[k]? = some (.ended false)) :
      Next s (.joining k) (.joinFails message) (.failed (.listenerTask message))
  | startDrain : Next s (.joining s.listeners.length) .startDrain (.draining .load)
  | load_zero (h : s.inFlight = 0) : Next s (.draining .load) .load .drained
  | load (h : s.inFlight ≠ 0) : Next s (.draining .load) .load (.draining .create)
  | create : Next s (.draining .create) .create (.draining (.created false))
  | ready_at_once : Next s (.draining (.created true)) .park (.draining .load)
  | park : Next s (.draining (.created false)) .park (.draining (.parked false))
  | resume : Next s (.draining (.parked true)) .resume (.draining .load)
  | timeout (w) : Next s (.draining w) .timeout .timedOut
  | cleanup : Next s .drained .cleanup (.finished false)
  | cleanup_late : Next s .timedOut .cleanup (.finished true)

theorem next_some {m m' : Main} {b : MainAct} (h : m.next s b = some m') : Next s m b m' := by
  unfold Main.next at h
  split at h
  · obtain ⟨addr, ha, rfl⟩ := Option.map_eq_some_iff.1 h
    exact .bindFails _ addr ha
  · obtain ⟨ha, rfl⟩ := of_guard h
    exact .ready ha
  · cases h
    exact .signal
  · obtain ⟨ha, rfl⟩ := of_guard h
    exact .join _ ha
  · obtain ⟨ha, rfl⟩ := of_guard h
    exact .joinFails _ _ ha
  · obtain ⟨rfl, rfl⟩ := of_guard h
    exact .startDrain
  · split at h
    · rename_i h0
      cases h
      exact .load_zero h0
    · rename_i h0
      cases h
      exact .load h0
  · cases h
    exact .create
  · rename_i woken
    cases woken <;> cases h
    · exact .park
    · exact .ready_at_once
  · cases h
    exact .resume
  · cases h
    exact .timeout _
  · cases h
    exact .cleanup
  · cases h
    exact .cleanup_late
  · cases h

/-! ## The invariant -/

/-- **What holds in every reachable state.** -/
structure Inv (s : Server) : Prop where
  count : s.inFlight = s.conns.countP Conn.guarded
  joined : s.main.joined = true → ∀ l ∈ s.listeners, l = .ended true
  joining : ∀ k, s.main = .joining k → ∀ i < k, s.listeners[i]? = some (.ended true)
  sent : s.shutdown = true → s.main ≠ .binding ∧ s.main ≠ .waiting

theorem inv_init (addrs : List SocketAddr) : (init addrs).Inv where
  count := rfl
  joined := fun h => by cases h
  joining := fun _ h => by cases h
  sent := fun h => by cases h

theorem inv_bind (hs : s.Inv) {rest : List SocketAddr} (hm : s.main = .binding) :
    Inv { s with toBind := rest, listeners := s.listeners ++ [.select] } := by
  refine ⟨hs.count, ?_, ?_, hs.sent⟩
  · intro hj
    simp only [hm] at hj
    cases hj
  · intro k hk
    simp only [hm] at hk
    cases hk

theorem inv_main (hs : s.Inv) {b : MainAct} {m : Main} (h : s.main.next s b = some m) :
    Inv { s with main := m, shutdown := s.shutdown || b = .signal } := by
  have hn := next_some h
  obtain ⟨hcount, hjoined, hjoining, hsent⟩ := hs
  generalize hm : s.main = m₀ at hn hjoined hjoining hsent
  refine ⟨hcount, ?_, ?_, ?_⟩
  · intro hj
    cases hn with
    | startDrain =>
      -- all positions up to the end of the list have been joined
      intro l hl
      obtain ⟨i, hi, rfl⟩ := List.getElem_of_mem hl
      have hend : s.listeners[i]? = some (.ended true) := hjoining _ rfl i hi
      rw [List.getElem?_eq_getElem hi, Option.some.injEq] at hend
      exact hend
    | bindFails | ready | signal | join | joinFails => cases hj
    | load_zero | load | create | ready_at_once | park | resume | timeout | cleanup
    | cleanup_late => exact hjoined rfl
  · intro k hk i hi
    cases hn with
    | signal =>
      cases hk
      omega
    | join k' hl =>
      cases hk
      by_cases hik : i = k'
      · rw [hik]
        exact hl
      · exact hjoining k' rfl i (by omega)
    | _ => cases hk
  · intro hsh
    cases hn with
    | bindFails | ready =>
      simp only [Bool.or_eq_true, decide_eq_true_eq, reduceCtorEq, or_false] at hsh
      exact absurd rfl (hsent hsh).1
    | _ => exact ⟨by simp, by simp⟩

theorem inv_listener (hs : s.Inv) {l : ℕ} {b : ListenerAct} {ls : List Listener}
    (h : move (Listener.next s.shutdown b) l s.listeners = some ls) :
    Inv { s with listeners := ls, conns := s.conns ++ b.spawned } := by
  obtain ⟨x, y, hx, hy, rfl⟩ := move_some.1 h
  -- a listener that takes a step has not ended, so it is not among the joined ones
  have hne : ∀ ok, x ≠ .ended ok := Listener.next_ended hy
  refine ⟨?_, ?_, ?_, hs.sent⟩
  · have hb : b.spawned.countP Conn.guarded = 0 := by cases b <;> rfl
    simp only [List.countP_append, hb, Nat.add_zero]
    exact hs.count
  · intro hj
    exact absurd (hs.joined hj x (List.mem_of_getElem? hx)) (hne true)
  · intro k hk i hi
    have hold : s.listeners[i]? = some (.ended true) := hs.joining k hk i hi
    have hil : l ≠ i := by
      rintro rfl
      rw [hx, Option.some.injEq] at hold
      exact hne true hold
    simp only [List.getElem?_set_ne hil]
    exact hold

theorem inv_conn (hs : s.Inv) {c : ℕ} {b : ConnAct} {cs : List Conn}
    (h : move (Conn.next b) c s.conns = some cs) :
    Inv { s with conns := cs, inFlight := b.count s.inFlight
                 main := if b = .notifyWaiters then s.main.wake else s.main } := by
  obtain ⟨hcount, hjoined, hjoining, hsent⟩ := hs
  refine ⟨?_, ?_, ?_, ?_⟩
  · obtain ⟨x, y, hx, hy, hxy⟩ := countP_move Conn.guarded h
    have hle : x.guarded.toNat ≤ s.inFlight := by
      rw [hcount]
      cases hg : x.guarded with
      | false => exact Nat.zero_le _
      | true => exact countP_pos_of_getElem? hx hg
    have hb : b.count s.inFlight + x.guarded.toNat = s.inFlight + y.guarded.toNat :=
      Conn.count_next hy hle
    simp only
    omega
  · intro hj
    rw [Main.wake_ite Main.joined Main.wake_joined] at hj
    exact hjoined hj
  · intro k hk
    exact hjoining k ((Main.wake_ite_iff (by simp) _).1 hk)
  · intro hsh
    obtain ⟨hb, hw⟩ := hsent hsh
    constructor
    · intro h
      exact hb ((Main.wake_ite_iff (by simp) _).1 h)
    · intro h
      exact hw ((Main.wake_ite_iff (by simp) _).1 h)

/-- **Every step keeps the invariant.** -/
theorem step_inv (hs : s.Inv) (h : s.step a = some s') : s'.Inv := by
  rcases step_cases h with ⟨addr, rest, -, hm, -, rfl⟩ | ⟨b, m, -, hm, rfl⟩ |
    ⟨l, b, ls, -, hl, rfl⟩ | ⟨c, b, cs, -, hc, rfl⟩
  · exact inv_bind hs hm
  · exact inv_main hs hm
  · exact inv_listener hs hl
  · exact inv_conn hs hc

/-- **Every reachable state meets the invariant.** -/
theorem exec_inv_init {addrs : List SocketAddr} {as : List Act} {s : Server}
    (h : exec step (init addrs) as = some s) : s.Inv :=
  exec_inv_all (fun _ _ _ => step_inv) (inv_init addrs) h

end Server

end Retrotls
