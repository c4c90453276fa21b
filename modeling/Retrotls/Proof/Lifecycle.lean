import Retrotls.Proof.Wake
import Retrotls.Lib.Trace

/-!
# Counting over a run

* `loads_le`: **`wait_for_in_flight` does not spin**: it loads the counter at most once for
  each connection, and once more.
* `accepted_once`: **no accepted connection is lost or duplicated**, unless its listener
  panics.
-/

namespace Retrotls

/-- The task is over. -/
def Conn.isClosed (c : Conn) : Bool := c = .closed

namespace Server

variable {s s' : Server} {a : Act}

def loads : Act → Bool
  | .main .load => true
  | _ => false

def notifies : Act → Bool
  | .conn _ .notifyWaiters => true
  | _ => false

def accepts : Act → Bool
  | .listener _ .accept => true
  | _ => false

def panics : Act → Bool
  | .listener _ .panic => true
  | _ => false

/-! ## The loop of `wait_for_in_flight` -/

/-- The loads that `run` can still make without being notified. -/
def credit : Main → ℕ
  | .binding => 1
  | .waiting => 1
  | .joining _ => 1
  | .draining .load => 1
  | .draining .create => 0
  | .draining (.created woken) => woken.toNat
  | .draining (.parked woken) => woken.toNat
  | _ => 0

theorem credit_wake (m : Main) : credit m.wake ≤ credit m + 1 := by
  cases m with
  | draining w =>
    cases w with
    | created woken | parked woken => cases woken <;> decide
    | load | create => exact Nat.le_succ _
  | _ => exact Nat.le_succ _

/-- A load is paid for. -/
theorem credit_next {m : Main} {b : MainAct} (h : s.main.next s b = some m) :
    (loads (.main b)).toNat + credit m ≤ credit s.main := by
  have hn := next_some h
  generalize s.main = m₀ at hn
  cases hn with
  | timeout w => exact Nat.zero_le _
  | _ => simp [loads, credit]

theorem credit_step (h : s.step a = some s') :
    (loads a).toNat + credit s'.main ≤ credit s.main + (notifies a).toNat := by
  rcases step_cases h with ⟨addr, rest, rfl, -, -, rfl⟩ | ⟨b, m, rfl, hm, rfl⟩ |
    ⟨l, b, ls, rfl, -, rfl⟩ | ⟨c, b, cs, rfl, -, rfl⟩
  · simp [loads]
  · exact (credit_next hm).trans (Nat.le_add_right _ _)
  · simp [loads]
  · have hw := credit_wake s.main
    cases b with
    | notifyWaiters => simpa [loads, notifies] using hw
    | poll | request | respond | finish | fetchSub => simp [loads]

/-- A task that is over has notified once. -/
theorem closed_step (h : s.step a = some s') :
    s'.conns.countP Conn.isClosed = s.conns.countP Conn.isClosed + (notifies a).toNat := by
  rcases step_cases h with ⟨addr, rest, rfl, -, -, rfl⟩ | ⟨b, m, rfl, -, rfl⟩ |
    ⟨l, b, ls, rfl, -, rfl⟩ | ⟨c, b, cs, rfl, hc, rfl⟩
  · rfl
  · rfl
  · cases b <;> simp [ListenerAct.spawned, notifies, List.countP_append, Conn.isClosed]
  · obtain ⟨x, y, hx, hy, hcount⟩ := countP_move Conn.isClosed hc
    have hone : y.isClosed.toNat = x.isClosed.toNat + (notifies (.conn c b)).toNat := by
      cases x with
      | spawned =>
        obtain ⟨rfl, rfl⟩ := of_guard hy
        rfl
      | idle => cases b <;> cases hy <;> rfl
      | handling => cases b <;> cases hy <;> rfl
      | served ok =>
        obtain ⟨rfl, rfl⟩ := of_guard hy
        rfl
      | released =>
        obtain ⟨rfl, rfl⟩ := of_guard hy
        rfl
      | closed => cases hy
    simp only
    omega

/-- **`wait_for_in_flight` does not spin.** In any run it loads the counter at most once more
than there are connections. -/
theorem loads_le {addrs : List SocketAddr} {as : List Act} {t : Server}
    (h : exec step (init addrs) as = some t) : as.countP loads ≤ t.conns.length + 1 := by
  have hloads : as.countP loads + (credit t.main : ℤ) ≤ 1 + as.countP notifies := by
    refine exec_potential (I := fun _ => True) (Φ := fun s => (credit s.main : ℤ))
      (fun _ _ _ _ _ => trivial) (fun s a s' _ hs => ?_) trivial h
    have hc := credit_step hs
    omega
  have hnotifies : as.countP notifies ≤ t.conns.length := by
    have hsum : (as.countP notifies : ℤ) + -(t.conns.countP Conn.isClosed : ℤ) ≤
        0 + as.countP (fun _ => false) := by
      refine exec_potential (I := fun _ => True)
        (Φ := fun s : Server => -(s.conns.countP Conn.isClosed : ℤ))
        (fun _ _ _ _ _ => trivial) (fun s a s' _ hs => ?_) trivial h
      have hc := closed_step hs
      simp only [Bool.toNat_false]
      omega
    have hle := List.countP_le_length (p := Conn.isClosed) (l := t.conns)
    have hfalse : as.countP (fun _ => false) = 0 := List.countP_eq_zero.2 fun _ _ => by simp
    omega
  omega

theorem loads_le_woken : ∃ t, exec step (init [localhost]) wokenDrain = some t ∧
    wokenDrain.countP loads = 2 ∧ wokenDrain.countP loads ≤ t.conns.length + 1 := by
  have h : exec step (init [localhost]) wokenDrain =
      some ⟨[], [.ended true], [.closed], 0, true, .drained⟩ := by decide
  exact ⟨_, h, by decide, loads_le h⟩

/-! ## Accepted connections -/

/-- The connections that a task or a listener has. -/
def held (s : Server) : ℕ := s.conns.length + s.listeners.countP Listener.holding

/-- One step of a listener. -/
theorem held_next {sh : Bool} {x y : Listener} {b : ListenerAct} (l : ℕ) (h : x.next sh b = some y) :
    y.holding.toNat + b.spawned.length ≤ x.holding.toNat + (accepts (.listener l b)).toNat ∧
      x.holding.toNat + (accepts (.listener l b)).toNat ≤
        y.holding.toNat + b.spawned.length + (panics (.listener l b)).toNat := by
  cases x with
  | select =>
    cases b with
    | breakLoop =>
      obtain ⟨-, rfl⟩ := of_guard h
      simp [Listener.holding, accepts, panics, ListenerAct.spawned]
    | spawn => cases h
    | accept | acceptFails | panic => cases h; simp [Listener.holding, accepts, panics, ListenerAct.spawned]
  | accepted =>
    cases b with
    | spawn | panic => cases h; simp [Listener.holding, accepts, panics, ListenerAct.spawned]
    | accept | acceptFails | breakLoop => cases h
  | ended ok => cases h

theorem held_step (h : s.step a = some s') : s'.held ≤ s.held + (accepts a).toNat ∧
    s.held + (accepts a).toNat ≤ s'.held + (panics a).toNat := by
  rcases step_cases h with ⟨addr, rest, rfl, -, -, rfl⟩ | ⟨b, m, rfl, -, rfl⟩ |
    ⟨l, b, ls, rfl, hl, rfl⟩ | ⟨c, b, cs, rfl, hc, rfl⟩
  · simp [held, List.countP_append, Listener.holding, accepts, panics]
  · simp [held, accepts, panics]
  · obtain ⟨x, y, -, hy, hcount⟩ := countP_move Listener.holding hl
    obtain ⟨h₁, h₂⟩ := held_next l hy
    simp only [held, List.length_append]
    omega
  · have hlen := length_move hc
    simp [held, accepts, panics, hlen]

/-- **No accepted connection is lost or duplicated**: each is in the hands of its listener or
has one task, but for those that a panic of their listener has dropped. -/
theorem accepted_once {addrs : List SocketAddr} {as : List Act} {t : Server}
    (h : exec step (init addrs) as = some t) :
    t.held ≤ as.countP accepts ∧ as.countP accepts ≤ t.held + as.countP panics := by
  constructor
  · have hsum : (as.countP (fun _ => false) : ℤ) + (t.held : ℤ) ≤ 0 + as.countP accepts := by
      refine exec_potential (I := fun _ => True) (Φ := fun s : Server => (s.held : ℤ))
        (fun _ _ _ _ _ => trivial) (fun s a s' _ hs => ?_) trivial h
      have hc := (held_step hs).1
      simp only [Bool.toNat_false]
      omega
    omega
  · have hsum : (as.countP accepts : ℤ) + -(t.held : ℤ) ≤ 0 + as.countP panics := by
      refine exec_potential (I := fun _ => True) (Φ := fun s : Server => -(s.held : ℤ))
        (fun _ _ _ _ _ => trivial) (fun s a s' _ hs => ?_) trivial h
      have hc := (held_step hs).2
      omega
    omega

theorem accepted_once_woken : ∃ t, exec step (init [localhost]) wokenDrain = some t ∧ t.held = 1 ∧
    wokenDrain.countP accepts ≤ t.held + wokenDrain.countP panics := by
  have h : exec step (init [localhost]) wokenDrain =
      some ⟨[], [.ended true], [.closed], 0, true, .drained⟩ := by decide
  exact ⟨_, h, by decide, (accepted_once h).2⟩

end Server

end Retrotls
