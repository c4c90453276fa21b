import Retrotls.Proof.Wake

/-!
# Kept-alive connections in the drain

The guard is held as long as the connection task serves its connection, and
`serve_connection` does not see the shutdown flag.

* `closing_step`: once the signal is sent and every listener task is over, no
  connection is added, and a request is only started on an idle connection.
* `closing_counter`: **what the counter says then**: the guards that are held. Requests in
  progress are among them, and idle connections too.
-/

namespace Retrotls

namespace Server

variable {s s' : Server} {a : Act}

/-- The shutdown signal is sent and every listener task is over. -/
def Closing (s : Server) : Prop := s.shutdown = true ∧ ∀ l ∈ s.listeners, ∃ ok, l = .ended ok

instance (l : Listener) : Decidable (∃ ok, l = .ended ok) :=
  match l with
  | .ended ok => isTrue ⟨ok, rfl⟩
  | .select => isFalse (by simp)
  | .accepted => isFalse (by simp)

instance (s : Server) : Decidable s.Closing := inferInstanceAs (Decidable (_ ∧ _))

/-- The requests in progress. -/
def requests (s : Server) : ℕ := s.conns.countP (· = .handling)

/-- The connection tasks that are not finished. -/
def unfinished (s : Server) : ℕ := s.conns.countP Conn.unserved

/-- Only the arrival of a request starts one. -/
theorem Conn.next_handling {x : Conn} {b : ConnAct} (h : x.next b = some .handling) :
    x = .idle ∧ b = .request := by
  cases x with
  | idle => cases b <;> cases h; exact ⟨rfl, rfl⟩
  | handling => cases b <;> cases h
  | spawned => exact absurd (of_guard h).2 (by simp)
  | served ok => exact absurd (of_guard h).2 (by simp)
  | released => exact absurd (of_guard h).2 (by simp)
  | closed => cases h

/-- What a step can do once the listeners are over. -/
structure ClosingStep (s : Server) (a : Act) (s' : Server) : Prop where
  closing : s'.Closing
  length : s'.conns.length = s.conns.length
  unfinished : s'.unfinished ≤ s.unfinished
  request : s.requests < s'.requests → ∃ c, a = .conn c .request ∧ s.conns[c]? = some .idle

theorem closing_step (hs : s.Inv) (hc : s.Closing) (h : s.step a = some s') :
    ClosingStep s a s' := by
  obtain ⟨hsent, hended⟩ := hc
  rcases step_cases h with ⟨addr, rest, -, hb, -⟩ | ⟨b, m, rfl, hb, rfl⟩ | ⟨l, b, ls, rfl, hmv, -⟩ |
    ⟨c, b, cs, rfl, hmv, rfl⟩
  · exact absurd hb (hs.sent hsent).1
  · refine ⟨⟨?_, hended⟩, rfl, le_rfl, fun hlt => absurd hlt (lt_irrefl _)⟩
    simp only [hsent, Bool.true_or]
  · -- no listener can take a step
    obtain ⟨x, y, hx, hy, -⟩ := move_some.1 hmv
    obtain ⟨ok, he⟩ := hended x (List.mem_of_getElem? hx)
    exact absurd he (Listener.next_ended hy ok)
  · refine ⟨⟨hsent, hended⟩, length_move hmv, ?_, ?_⟩
    · obtain ⟨x, y, hx, hy, hcount⟩ := countP_move Conn.unserved hmv
      unfold unfinished
      simp only
      rcases finished_next hy with hf | ⟨hfx, hfy⟩
      · have hxy : x.unserved = y.unserved := by rw [Conn.unserved, Conn.unserved, hf]
        rw [hxy] at hcount
        omega
      · have hy0 : y.unserved.toNat = 0 := by rw [Conn.unserved, hfy]; rfl
        omega
    · intro hlt
      obtain ⟨x, y, hx, hy, hcount⟩ := countP_move (· = Conn.handling) hmv
      -- the count grew, so the task that moved handles a request now
      have hy1 : y = .handling := by
        by_contra hne
        have hy0 : (decide (y = Conn.handling)).toNat = 0 := by simp [hne]
        unfold requests at hlt
        simp only at hlt
        omega
      rw [hy1] at hy
      obtain ⟨rfl, rfl⟩ := Conn.next_handling hy
      exact ⟨c, rfl, hx⟩

/-- **The counter while the daemon closes.** -/
theorem closing_counter {addrs : List SocketAddr} {as : List Act}
    (h : exec step (init addrs) as = some s) (hc : s.Closing) :
    (∀ a s', s.step a = some s' → ClosingStep s a s') ∧
      s.inFlight = s.conns.countP Conn.guarded ∧
      (s.inFlight = 0 ↔ ∀ c ∈ s.conns, c.guarded = false) ∧ s.requests ≤ s.inFlight := by
  have hs := exec_inv_init h
  refine ⟨fun a s' hst => closing_step hs hc hst, hs.count, ?_, ?_⟩
  · rw [hs.count, List.countP_eq_zero]
    simp only [Bool.not_eq_true]
  · rw [hs.count]
    refine List.countP_mono_left fun c _ hh => ?_
    rw [decide_eq_true_eq] at hh
    rw [hh]
    rfl

/-- The daemon drains, with one idle connection. -/
def idleDrain : Server :=
  ⟨[], [.ended true], [.idle], 1, true, .draining .load⟩

theorem exec_idleDrain : exec step (init [localhost]) drainOne = some idleDrain := by decide

theorem closing_counter_idle :
    (∀ a s', idleDrain.step a = some s' → ClosingStep idleDrain a s') ∧
      idleDrain.inFlight = idleDrain.conns.countP Conn.guarded ∧
      (idleDrain.inFlight = 0 ↔ ∀ c ∈ idleDrain.conns, c.guarded = false) ∧
      idleDrain.requests ≤ idleDrain.inFlight :=
  closing_counter exec_idleDrain (by decide)

/-- No request is in progress and the counter is 1; and a request still starts. -/
theorem idle_holds_drain : exec step (init [localhost]) drainOne = some idleDrain ∧
    idleDrain.Closing ∧ idleDrain.requests = 0 ∧ idleDrain.inFlight = 1 ∧
    ∃ s', idleDrain.step (.conn 0 .request) = some s' ∧ s'.requests = 1 :=
  ⟨exec_idleDrain, by decide, by decide, rfl, _, rfl, by decide⟩

end Server

end Retrotls
