import Retrotls.Proof.Drain

/-!
# Waking the drain

`Server.Lost` is a lost wake-up: `wait_for_in_flight` is parked, the counter is 0, and
every connection task is over.

* `lost_only_timeout`: only the timeout is left then.
* `no_lost_wake`: **no wake-up is lost** in a run that creates every `Notified` future
  while some connection task is not over.
* `late_create_lost`: a future that is created later is never woken.
-/

namespace Retrotls

namespace Server

variable {s s' : Server} {a : Act}

/-- **A lost wake-up.** -/
def Lost (s : Server) : Prop :=
  s.main = .draining (.parked false) ∧ s.inFlight = 0 ∧ ∀ c ∈ s.conns, c = .closed

/-- The `Notified` future is created while some task can still notify it. -/
def WakerAtCreate (s : Server) (a : Act) : Prop :=
  a = .main .create → s.main = .draining .create → ∃ c ∈ s.conns, c ≠ .closed

instance (s : Server) (a : Act) : Decidable (WakerAtCreate s a) :=
  inferInstanceAs (Decidable (_ → _ → _))

/-- **Nothing else is left** in a lost wake-up: no task can take a step, and `run` only
times out. -/
theorem lost_only_timeout (hs : s.Inv) (hl : s.Lost) (h : s.step a = some s') :
    a = .main .timeout := by
  obtain ⟨hm, -, hclosed⟩ := hl
  rcases step_cases h with ⟨addr, rest, -, hb, -⟩ | ⟨b, m, rfl, hb, -⟩ | ⟨l, b, ls, rfl, hmv, -⟩ |
    ⟨c, b, cs, rfl, hmv, -⟩
  · rw [hm] at hb
    cases hb
  · -- a parked future that is not woken has no step but the timeout
    have hn := next_some hb
    rw [hm] at hn
    cases hn
    rfl
  · obtain ⟨x, y, hx, hy, -⟩ := move_some.1 hmv
    have hj : s.main.joined = true := by rw [hm]; rfl
    have he := hs.joined hj x (List.mem_of_getElem? hx)
    exact absurd he (Listener.next_ended hy true)
  · obtain ⟨x, y, hx, hy, -⟩ := move_some.1 hmv
    rw [hclosed x (List.mem_of_getElem? hx)] at hy
    cases hy

/-! ## Runs that lose no wake-up -/

/-- A future that is not woken yet can be: some task is not over. -/
def Wakeable (s : Server) : Prop :=
  s.main = .draining (.created false) ∨ s.main = .draining (.parked false) →
    ∃ c ∈ s.conns, c ≠ .closed

theorem Main.wake_ne (m : Main) :
    m.wake ≠ .draining (.created false) ∧ m.wake ≠ .draining (.parked false) := by
  cases m with
  | draining w => cases w <;> simp [Main.wake]
  | _ => simp [Main.wake]

/-- Only `notify_waiters` ends a task. -/
theorem Conn.next_closed {x : Conn} {b : ConnAct} (h : x.next b = some .closed) :
    b = .notifyWaiters := by
  cases x with
  | released => exact (of_guard h).1
  | spawned => exact absurd (of_guard h).2 (by simp)
  | served ok => exact absurd (of_guard h).2 (by simp)
  | idle => cases b <;> cases h
  | handling => cases b <;> cases h
  | closed => cases h

theorem step_wakeable (s : Server) (a : Act) (s' : Server) (hs : s.Wakeable)
    (hok : WakerAtCreate s a) (h : s.step a = some s') : s'.Wakeable := by
  intro hw
  rcases step_cases h with ⟨addr, rest, -, hb, -, rfl⟩ | ⟨b, m, rfl, hb, rfl⟩ | ⟨l, b, ls, rfl, -, rfl⟩ |
    ⟨c, b, cs, rfl, hmv, rfl⟩
  · simp only [hb, reduceCtorEq, or_self] at hw
  · have hn := next_some hb
    generalize hm : s.main = m₀ at hn
    cases hn with
    -- the condition is asked for here, and carried over to the park
    | create => exact hok rfl hm
    | park => exact hs (Or.inl hm)
    | _ => simp at hw
  · obtain ⟨x, hx, hne⟩ := hs hw
    exact ⟨x, List.mem_append_left _ hx, hne⟩
  · obtain ⟨x, y, hx, hy, rfl⟩ := move_some.1 hmv
    by_cases hb : b = .notifyWaiters
    · -- the step wakes the future
      simp only [if_pos hb] at hw
      have hne := Main.wake_ne s.main
      rcases hw with hw | hw
      · exact absurd hw hne.1
      · exact absurd hw hne.2
    · refine ⟨y, List.mem_set (List.getElem?_eq_some_iff.1 hx).1 y, ?_⟩
      rintro rfl
      exact hb (Conn.next_closed hy)

/-- **No wake-up is lost**, in every state of a run that creates its futures in time. -/
theorem no_lost_wake {addrs : List SocketAddr} {as : List Act}
    (hr : Along step WakerAtCreate (init addrs) as) :
    ∀ s ∈ visited step (init addrs) as, ¬ s.Lost := by
  intro s hs hl
  have h0 : (init addrs).Wakeable := by
    rintro (h | h) <;> cases h
  have hw : s.Wakeable := visited_inv step_wakeable h0 hr hs
  obtain ⟨c, hc, hne⟩ := hw (Or.inr hl.1)
  exact hne (hl.2.2 c hc)

/-- One connection is accepted and polled, the signal comes, and `run` starts to drain. -/
def drainOne : List Act :=
  [.bind, .main .ready, .listener 0 .accept, .listener 0 .spawn, .conn 0 .poll, .main .signal,
    .listener 0 .breakLoop, .main .join, .main .startDrain]

/-- The waiter is parked when the connection ends. -/
def wokenDrain : List Act :=
  drainOne ++ [.main .load, .main .create, .main .park, .conn 0 (.finish true), .conn 0 .fetchSub,
    .conn 0 .notifyWaiters, .main .resume, .main .load]

theorem no_lost_wake_woken :
    ∃ s, exec step (init [localhost]) wokenDrain = some s ∧ s.main = .drained ∧ ¬ s.Lost := by
  have h : exec step (init [localhost]) wokenDrain =
      some ⟨[], [.ended true], [.closed], 0, true, .drained⟩ := by decide
  have hr : Along step WakerAtCreate (init [localhost]) wokenDrain := by decide
  exact ⟨_, h, rfl, no_lost_wake hr _ (exec_mem_visited h)⟩

/-- The connection ends between the load and the creation of the future. -/
def lostDrain : List Act :=
  drainOne ++ [.main .load, .conn 0 (.finish true), .conn 0 .fetchSub, .conn 0 .notifyWaiters,
    .main .create, .main .park]

theorem lost_drain_lost : ∃ s, exec step (init [localhost]) lostDrain = some s ∧ s.Lost := by
  refine ⟨⟨[], [.ended true], [.closed], 0, true, .draining (.parked false)⟩, by decide, rfl, rfl, ?_⟩
  intro c hc
  exact List.mem_singleton.1 hc

/-- **A future that is created too late is lost**: it is created and parked with no task
left. -/
theorem late_create_lost (hs : s.Inv) (hm : s.main = .draining .create)
    (hc : ∀ c ∈ s.conns, c = .closed) :
    ∃ t, exec step s [.main .create, .main .park] = some t ∧ t.Lost := by
  have h0 : s.inFlight = 0 := by
    rw [hs.count, List.countP_eq_zero]
    intro c hmem
    rw [hc c hmem]
    decide
  have h1 : s.step (.main .create) = some { s with main := .draining (.created false) } := by
    simp [step, hm, Main.next]
  refine ⟨{ s with main := .draining (.parked false) }, exec_cons.2 ⟨_, h1, ?_⟩, rfl, h0, hc⟩
  simp [exec, step, Main.next]

end Server

end Retrotls
