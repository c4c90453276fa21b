import Retrotls.Proof.Server
import Retrotls.Lib.Gate

/-!
# The drain

* `drain_refines_gate`: **a run of the daemon is a run of a draining gate**, as long as
  every load that finds the counter at 0 finds every spawned task polled.
* `drain_sound_iff`: exactly these runs report a finished drain only when every accepted
  connection is finished.
-/

namespace Retrotls

/-- The listener has a connection in its hands. -/
def Listener.holding (l : Listener) : Bool := l = .accepted

def Conn.unserved (c : Conn) : Bool := !c.finished

namespace Server

variable {s s' : Server} {a : Act}

/-- The accepted connections whose serving is not over: those that a listener has in
its hands, and the tasks that have not finished. -/
def outstanding (s : Server) : ℕ :=
  s.listeners.countP Listener.holding + s.conns.countP Conn.unserved

/-- **The drain is sound**: once `wait_for_in_flight` has returned, no listener has a
connection in its hands, and the serving of every connection is over. -/
def Sound (s : Server) : Prop :=
  s.main.reported = true → (∀ l ∈ s.listeners, l ≠ .accepted) ∧ ∀ c ∈ s.conns, c.finished = true

/-- Where the load finds the counter at 0, no task is spawned and not polled yet. -/
def PolledAtLoad (s : Server) (a : Act) : Prop :=
  a = .main .load → s.main = .draining .load → s.inFlight = 0 → ∀ c ∈ s.conns, c ≠ .spawned

theorem outstanding_eq_zero : s.outstanding = 0 ↔
    (∀ l ∈ s.listeners, l ≠ .accepted) ∧ ∀ c ∈ s.conns, c.finished = true := by
  unfold outstanding
  rw [Nat.add_eq_zero_iff, List.countP_eq_zero, List.countP_eq_zero]
  simp only [Listener.holding, Conn.unserved, decide_eq_true_eq, Bool.not_eq_true',
    Bool.not_eq_false]

/-- With all listener tasks over, a counter at 0 and no task unpolled, nothing is
outstanding. -/
theorem outstanding_of_load (hs : s.Inv) (hj : s.main.joined = true) (h0 : s.inFlight = 0)
    (hp : ∀ c ∈ s.conns, c ≠ .spawned) : s.outstanding = 0 := by
  rw [outstanding_eq_zero]
  constructor
  · intro l hl
    rw [hs.joined hj l hl]
    simp
  · intro c hc
    -- no guard is counted, and the task has been polled: it is past its guard
    have hg : ¬ c.guarded = true := by
      have hz : s.conns.countP Conn.guarded = 0 := by rw [← hs.count, h0]
      exact List.countP_eq_zero.1 hz c hc
    have hne := hp c hc
    cases c with
    | spawned => exact absurd rfl hne
    | idle => exact absurd rfl hg
    | handling => exact absurd rfl hg
    | served ok => rfl
    | released => rfl
    | closed => rfl

/-! ## The gate -/

/-- The gate that a daemon's state stands for. -/
structure Gated (s : Server) (g : Gate) : Prop where
  inv : s.Inv
  isOpen : g.isOpen = !s.main.joined
  work : g.work = s.outstanding
  done : g.done = s.main.reported

/-- The serving of a connection ends once. -/
theorem finished_next {x y : Conn} {b : ConnAct} (h : x.next b = some y) :
    y.finished = x.finished ∨ (x.finished = false ∧ y.finished = true) := by
  cases x with
  | spawned =>
    obtain ⟨-, rfl⟩ := of_guard h
    exact Or.inl rfl
  | idle => cases b <;> cases h <;> simp [Conn.finished]
  | handling => cases b <;> cases h <;> simp [Conn.finished]
  | served ok =>
    obtain ⟨-, rfl⟩ := of_guard h
    exact Or.inl rfl
  | released =>
    obtain ⟨-, rfl⟩ := of_guard h
    exact Or.inl rfl
  | closed => cases h

/-- A step of a listener accepts a connection, passes one on to its task or drops it, or
leaves its hands as they are. -/
theorem holding_next {sh : Bool} {x y : Listener} {b : ListenerAct} (h : x.next sh b = some y) :
    (x.holding = false ∧ y.holding = true ∧ b.spawned = []) ∨
      x.holding.toNat = y.holding.toNat + b.spawned.length ∨
      (x.holding = true ∧ y.holding = false ∧ b.spawned = []) := by
  cases x with
  | select =>
    cases b with
    | accept => cases h; exact Or.inl ⟨rfl, rfl, rfl⟩
    | acceptFails | panic => cases h; exact Or.inr (Or.inl rfl)
    | breakLoop =>
      obtain ⟨-, rfl⟩ := of_guard h
      exact Or.inr (Or.inl rfl)
    | spawn => cases h
  | accepted =>
    cases b with
    | spawn => cases h; exact Or.inr (Or.inl rfl)
    | panic => cases h; exact Or.inr (Or.inr ⟨rfl, rfl, rfl⟩)
    | accept | acceptFails | breakLoop => cases h
  | ended ok => cases h

theorem gate_main {g : Gate} (hg : Gated s g) {b : MainAct} {m : Main}
    (hok : b = .load → s.main = .draining .load → s.inFlight = 0 → ∀ c ∈ s.conns, c ≠ .spawned)
    (h : s.main.next s b = some m) :
    ∃ bs g', exec Gate.step g bs = some g' ∧ g'.isOpen = !m.joined ∧ g'.work = s.outstanding ∧
      g'.done = m.reported := by
  have hn := next_some h
  obtain ⟨hinv, hopen, hwork, hdone⟩ := hg
  generalize hm : s.main = m₀ at hn hopen hdone hok
  cases hn with
  | startDrain => exact ⟨[.close], { g with isOpen := false }, rfl, rfl, hwork, hdone⟩
  | load_zero h0 =>
    -- the waiter reports: the gate is closed, and nothing is outstanding
    have hj : s.main.joined = true := by rw [hm]; rfl
    have hzero : s.outstanding = 0 := outstanding_of_load hinv hj h0 (hok rfl rfl h0)
    refine ⟨[.report], { g with done := true }, ?_, hopen, hwork, rfl⟩
    refine exec_cons.2 ⟨_, if_pos ⟨?_, ?_⟩, rfl⟩
    · rw [hopen]
      rfl
    · rw [hwork, hzero]
  | _ => exact ⟨[], g, rfl, hopen, hwork, hdone⟩

theorem outstanding_listener (ls : List Listener) (b : ListenerAct) :
    outstanding { s with listeners := ls, conns := s.conns ++ b.spawned } =
      ls.countP Listener.holding + s.conns.countP Conn.unserved + b.spawned.length := by
  have hb : b.spawned.countP Conn.unserved = b.spawned.length := by cases b <;> rfl
  simp only [outstanding, List.countP_append, hb]
  omega

theorem gate_listener {g : Gate} (hg : Gated s g) {l : ℕ} {b : ListenerAct} {ls : List Listener}
    (h : move (Listener.next s.shutdown b) l s.listeners = some ls) :
    ∃ bs g', exec Gate.step g bs = some g' ∧ g'.isOpen = g.isOpen ∧ g'.done = g.done ∧
      g'.work = outstanding { s with listeners := ls, conns := s.conns ++ b.spawned } := by
  obtain ⟨x, y, hx, hy, hcount⟩ := countP_move Listener.holding h
  have hw := hg.work
  rw [outstanding_listener]
  unfold outstanding at hw
  have hopen : g.isOpen = true := by
    -- a listener that takes a step has not ended
    rw [hg.isOpen]
    cases hj : s.main.joined with
    | false => rfl
    | true => exact absurd (hg.inv.joined hj x (List.mem_of_getElem? hx)) (Listener.next_ended hy true)
  rcases holding_next hy with ⟨hx0, hy1, hb⟩ | hxy | ⟨hx1, hy0, hb⟩
  · -- a connection is accepted
    rw [hx0, hy1, Bool.toNat_false, Bool.toNat_true] at hcount
    refine ⟨[.enter], _, exec_cons.2 ⟨_, if_pos hopen, rfl⟩, rfl, rfl, ?_⟩
    rw [hb, List.length_nil]
    simp only
    omega
  · -- it is passed on to its task, or none is concerned
    exact ⟨[], g, rfl, rfl, rfl, by omega⟩
  · -- it is dropped by a panic
    rw [hx1, hy0, Bool.toNat_false, Bool.toNat_true] at hcount
    refine ⟨[.leave], _, exec_cons.2 ⟨_, if_pos (by omega), rfl⟩, rfl, rfl, ?_⟩
    rw [hb, List.length_nil]
    simp only
    omega

theorem gate_conn {g : Gate} (hg : Gated s g) {c : ℕ} {b : ConnAct} {cs : List Conn}
    (h : move (Conn.next b) c s.conns = some cs) (n : ℕ) (m : Main) :
    ∃ bs g', exec Gate.step g bs = some g' ∧ g'.isOpen = g.isOpen ∧ g'.done = g.done ∧
      g'.work = outstanding { s with conns := cs, inFlight := n, main := m } := by
  obtain ⟨x, y, hx, hy, hcount⟩ := countP_move Conn.unserved h
  have hw := hg.work
  unfold outstanding at hw ⊢
  rcases finished_next hy with hf | ⟨hfx, hfy⟩
  · -- the serving goes on, or was over before
    have hxy : x.unserved = y.unserved := by rw [Conn.unserved, Conn.unserved, hf]
    rw [hxy] at hcount
    exact ⟨[], g, rfl, rfl, rfl, by simp only; omega⟩
  · have hx1 : x.unserved.toNat = 1 := by rw [Conn.unserved, hfx]; rfl
    have hy0 : y.unserved.toNat = 0 := by rw [Conn.unserved, hfy]; rfl
    refine ⟨[.leave], { g with work := g.work - 1 }, exec_cons.2 ⟨_, if_pos (by omega), rfl⟩,
      rfl, rfl, ?_⟩
    simp only
    omega

/-- **One step of the daemon** is matched by the gate. -/
theorem gate_step (s : Server) (a : Act) (s' : Server) (g : Gate) (hg : Gated s g)
    (hok : PolledAtLoad s a) (h : s.step a = some s') :
    ∃ bs g', exec Gate.step g bs = some g' ∧ Gated s' g' := by
  have hinv := step_inv hg.inv h
  rcases step_cases h with ⟨addr, rest, -, hm, -, rfl⟩ | ⟨b, m, rfl, hm, rfl⟩ |
    ⟨l, b, ls, rfl, hl, rfl⟩ | ⟨c, b, cs, rfl, hc, rfl⟩
  · refine ⟨[], g, rfl, hinv, hg.isOpen, ?_, hg.done⟩
    have hw := hg.work
    have hsel : [Listener.select].countP Listener.holding = 0 := rfl
    unfold outstanding at hw ⊢
    rw [hw, List.countP_append, hsel, Nat.add_zero]
  · obtain ⟨bs, g', he, h1, h2, h3⟩ := gate_main hg (fun hb => hok (by rw [hb])) hm
    exact ⟨bs, g', he, hinv, h1, h2, h3⟩
  · obtain ⟨bs, g', he, h1, h2, h3⟩ := gate_listener hg hl
    exact ⟨bs, g', he, hinv, h1.trans hg.isOpen, h3, h2.trans hg.done⟩
  · obtain ⟨bs, g', he, h1, h2, h3⟩ := gate_conn hg hc (b.count s.inFlight)
      (if b = .notifyWaiters then s.main.wake else s.main)
    refine ⟨bs, g', he, hinv, ?_, h3, ?_⟩
    · rw [h1, hg.isOpen, Main.wake_ite Main.joined Main.wake_joined]
    · rw [h2, hg.done, Main.wake_ite Main.reported Main.wake_reported]

/-- **A run of the daemon is a run of a draining gate.** -/
theorem drain_refines_gate {addrs : List SocketAddr} {as : List Act} {s : Server}
    (hr : Along step PolledAtLoad (init addrs) as) (h : exec step (init addrs) as = some s) :
    ∃ bs g, exec Gate.step Gate.init bs = some g ∧ Gated s g := by
  have h0 : Gated (init addrs) Gate.init := ⟨inv_init addrs, rfl, rfl, rfl⟩
  exact exec_sim gate_step h0 hr h

/-! ## Soundness -/

theorem sound_of_gated {g : Gate} {bs : List Gate.Act} (he : exec Gate.step Gate.init bs = some g)
    (hg : Gated s g) : s.Sound := by
  intro hr
  have hd : g.done = true := by rw [hg.done, hr]
  obtain ⟨-, hw⟩ := Gate.done_clear he hd
  rw [hg.work] at hw
  exact outstanding_eq_zero.1 hw

/-- A sound run polls every task before the load that ends the drain. -/
theorem polled_of_sound {as : List Act} {s : Server}
    (h : ∀ t ∈ visited step s as, t.Sound) : Along step PolledAtLoad s as := by
  induction as generalizing s with
  | nil => exact along_nil s
  | cons a as ih =>
    refine ⟨?_, fun s' hs' => ih fun t ht => h t ?_⟩
    · rintro rfl hm h0 c hc rfl
      -- the load ends the drain, and the unpolled task is unserved after it
      have hst : s.step (.main .load) = some { s with main := .drained } := by
        simp [step, hm, Main.next, h0]
      have hmem : { s with main := .drained } ∈ visited step s (.main .load :: as) := by
        rw [visited_cons hst]
        exact List.mem_cons_of_mem _ (self_mem_visited _ as)
      exact absurd ((h _ hmem rfl).2 .spawned hc) (by decide)
    · rw [visited_cons hs']
      exact List.mem_cons_of_mem _ ht

/-- **Exactly when the drain is sound.** Every state of a run is sound if and only if
every load that ends the drain finds every spawned task polled. -/
theorem drain_sound_iff (addrs : List SocketAddr) (as : List Act) :
    (∀ s ∈ visited step (init addrs) as, s.Sound) ↔ Along step PolledAtLoad (init addrs) as := by
  refine ⟨polled_of_sound, fun hr s hs => ?_⟩
  obtain ⟨bs, cs, rfl, hb⟩ := visited_prefix hs
  obtain ⟨_, g, he, hg⟩ := drain_refines_gate hr.prefix hb
  exact sound_of_gated he hg

/-- A connection is accepted and its task spawned; the signal comes before its first
poll. -/
def earlyDrain : List Act :=
  [.bind, .main .ready, .listener 0 .accept, .listener 0 .spawn, .main .signal,
    .listener 0 .breakLoop, .main .join, .main .startDrain, .main .load]

def localhost : SocketAddr := .v4 0x7f000001 8080

/-- The drain ends with the connection unserved. -/
theorem early_drain_unsound : ∃ s, exec step (init [localhost]) earlyDrain = some s ∧
    s.main = .drained ∧ s.conns = [.spawned] ∧ ¬ s.Sound := by
  refine ⟨⟨[], [.ended true], [.spawned], 0, true, .drained⟩, by decide, rfl, rfl, fun h => ?_⟩
  exact absurd ((h rfl).2 .spawned List.mem_cons_self) (by decide)

end Server

end Retrotls
