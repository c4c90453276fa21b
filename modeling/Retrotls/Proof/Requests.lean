import Retrotls.Proof.Gateway

/-!
# What happens to a request

For every interleaving of the tasks and the calls of the daemon:

* `exec_call`: **a call runs on its own**: its state is the one its own answers lead to.
* `call_wire`: **what a call does to the outside**: it concerns the upstream of the listener
  that has accepted its connection, and nothing else.
* `reply_handle`, `served_config`: **what a client gets** is what `Proxy::handle` gives for
  its request and that upstream, once.
* `drained_final`: **nothing is lost by exiting** once the drain has ended, where every task
  has been polled.
-/

namespace Retrotls

namespace Gateway

variable {H : HttpCrate} {T : Rustls} {cfg : List Binding} {g g' : Gateway} {a : Act}

/-- What an action is to call `i`. -/
def own (i : ℕ) : Act → Option ExchangeAct
  | .exchange j b => if j = i then some b else none
  | _ => none

/-! ## One call among the others -/

/-- Where the load finds the counter at 0, no connection task is spawned and not polled. -/
def PolledAtLoad (g : Gateway) : Act → Prop
  | .task b => g.server.PolledAtLoad b
  | _ => True

instance (s : Server) (b : Server.Act) : Decidable (s.PolledAtLoad b) :=
  inferInstanceAs (Decidable (_ → _ → _ → _))

instance : ∀ (g : Gateway) (a : Act), Decidable (g.PolledAtLoad a)
  | g, .task b => inferInstanceAs (Decidable (g.server.PolledAtLoad b))
  | _, .request _ _ => .isTrue trivial
  | _, .exchange _ _ => .isTrue trivial

theorem gate_step (g : Gateway) (a : Act) (g' : Gateway) (gate : Gate) (hg : Server.Gated g.server gate)
    (hok : g.PolledAtLoad a) (h : g.step H T a = some g') :
    ∃ bs gate', exec Gate.step gate bs = some gate' ∧ Server.Gated g'.server gate' := by
  rcases server_cases h with ⟨b, rfl, hs⟩ | ⟨c, b, hs⟩ | he
  · exact Server.gate_step _ _ _ gate hg hok hs
  · have hconn : Server.PolledAtLoad g.server (.conn c b) := fun hb => by cases hb
    exact Server.gate_step _ _ _ gate hg hconn hs
  · exact ⟨[], gate, rfl, he ▸ hg⟩

/-- **The daemon with its requests is a draining gate**, too. -/
theorem requests_refine_gate {as : List Act} (hr : Along (step H T) PolledAtLoad (init cfg) as)
    (h : exec (step H T) (init cfg) as = some g) :
    ∃ bs gate, exec Gate.step Gate.init bs = some gate ∧ Server.Gated g.server gate := by
  have h0 : Server.Gated (init cfg).server Gate.init := ⟨Server.inv_init _, rfl, rfl, rfl⟩
  exact exec_sim (R := fun g gate => Server.Gated g.server gate) gate_step h0 hr h

/-- Every connection's serving is over, and no listener is left that could accept one. -/
structure Over (s : Server) : Prop where
  listeners : ∀ l ∈ s.listeners, l = .ended true
  conns : ∀ c ∈ s.conns, c.finished = true
  joined : s.main.joined = true

/-- `run` does not bind, and goes on to its end. -/
theorem joined_next {s : Server} {m : Main} {b : MainAct} (h : s.main.next s b = some m)
    (hj : s.main.joined = true) : m.joined = true := by
  have hn := Server.next_some h
  generalize s.main = m₀ at hn hj
  cases hn with
  | bindFails | ready | signal | join | joinFails | startDrain => cases hj
  | load_zero | load | create | ready_at_once | park | resume | timeout | cleanup
  | cleanup_late => rfl

theorem over_step {s s' : Server} {b : Server.Act} (hs : Over s) (h : s.step b = some s') :
    Over s' := by
  rcases Server.step_cases h with ⟨addr, rest, -, hm, -, rfl⟩ | ⟨b, m, -, hm, rfl⟩ |
    ⟨l, b, ls, -, hl, rfl⟩ | ⟨c, b, cs, -, hc, rfl⟩
  · have hj := hs.joined
    rw [hm] at hj
    cases hj
  · exact ⟨hs.listeners, hs.conns, joined_next hm hs.joined⟩
  · obtain ⟨x, y, hx, hy, -⟩ := move_some.1 hl
    exact absurd (hs.listeners x (List.mem_of_getElem? hx)) (Listener.next_ended hy true)
  · obtain ⟨x, y, hx, hy, rfl⟩ := move_some.1 hc
    refine ⟨hs.listeners, fun z hz => ?_, ?_⟩
    · rcases List.mem_or_eq_of_mem_set hz with hz | rfl
      · exact hs.conns z hz
      · have hfx := hs.conns x (List.mem_of_getElem? hx)
        rcases Server.finished_next hy with hf | ⟨hf, -⟩
        · rw [hf, hfx]
        · rw [hfx] at hf
          cases hf
    · show (if b = .notifyWaiters then s.main.wake else s.main).joined = true
      rw [Main.wake_ite Main.joined Main.wake_joined]
      exact hs.joined

/-- No request comes any more, and no response goes out. -/
theorem step_over (hs : Over g.server) (h : g.step H T a = some g') :
    Over g'.server ∧ g'.exchanges.length = g.exchanges.length ∧ g'.replies = g.replies := by
  have hnot : ∀ c : ℕ, g.server.conns[c]? ≠ some Conn.handling ∧ g.server.conns[c]? ≠ some Conn.idle := by
    intro c
    refine ⟨fun hc => ?_, fun hc => ?_⟩ <;> exact absurd (hs.conns _ (List.mem_of_getElem? hc)) (by decide)
  have hover : Over g'.server := by
    rcases server_cases h with ⟨b, -, hb⟩ | ⟨c, b, hb⟩ | he
    · exact over_step hs hb
    · exact over_step hs hb
    · rw [he]
      exact hs
  refine ⟨hover, ?_⟩
  rcases step_cases h with ⟨b, s, -, -, -, rfl⟩ | ⟨c, parts, link, -, -, hc, rfl⟩ |
    ⟨i, b, x, y, -, -, -, rfl⟩
  · simp
  · rcases hc with hc | hc
    · exact absurd hc (hnot c).2
    · exact absurd hc (hnot c).1
  · refine ⟨List.length_set, ?_⟩
    have hnone : replyOf g.server i y = [] := by
      unfold replyOf
      split
      · exact if_neg fun hc => (hnot y.conn).1 hc.2
      · rfl
    simp only [hnone, List.append_nil]

/-- **Nothing is lost by exiting.** Once the drain has ended by itself, in a run that polls
every task before the load that ends it, no continuation takes another request or gives
another response. -/
theorem drained_final {as bs : List Act} (hr : Along (step H T) PolledAtLoad (init cfg) as)
    (h : exec (step H T) (init cfg) as = some g) (hd : g.server.main.reported = true)
    (h' : exec (step H T) g bs = some g') :
    g'.exchanges.length = g.exchanges.length ∧ g'.replies = g.replies := by
  obtain ⟨_, gate, he, hgate⟩ := requests_refine_gate hr h
  obtain ⟨hl, hc⟩ := Server.sound_of_gated he hgate hd
  have hj : g.server.main.joined = true := by
    cases hm : g.server.main with
    | drained | finished => rfl
    | _ =>
      rw [hm] at hd
      cases hd
  have h0 : Over g.server := ⟨(exec_inv_init h).server.joined hj, hc, hj⟩
  let I : Gateway → Prop := fun t =>
    Over t.server ∧ t.exchanges.length = g.exchanges.length ∧ t.replies = g.replies
  have hI : I g' := by
    refine exec_inv_all (I := I) ?_ ⟨h0, rfl, rfl⟩ h'
    rintro s a s' ⟨ho, hx, hrep⟩ hs
    obtain ⟨ho', hx', hrep'⟩ := step_over ho hs
    exact ⟨ho', hx'.trans hx, hrep'.trans hrep⟩
  exact hI.2

/-- The connection ends, the signal comes, and the drain ends by itself. -/
def twoDrained : List Act :=
  twoRequests ++ [.task (.conn 0 (.finish true)), .task (.main .signal),
    .task (.listener 0 .breakLoop), .task (.main .join), .task (.main .startDrain),
    .task (.conn 0 .fetchSub), .task (.conn 0 .notifyWaiters), .task (.main .load)]

theorem drained_final_two : ∃ g, exec (step httpCrate rustls) (init [apiBinding]) twoDrained = some g ∧
    g.server.main = .drained ∧ ∀ bs g', exec (step httpCrate rustls) g bs = some g' →
      g'.exchanges.length = g.exchanges.length ∧ g'.replies = g.replies := by
  have hrun : (exec (step httpCrate rustls) (init [apiBinding]) twoDrained).map
      (fun g => g.server.main) = some .drained := by decide +kernel
  have hpolled : Along (step httpCrate rustls) PolledAtLoad (init [apiBinding]) twoDrained := by
    decide +kernel
  obtain ⟨g, hg, hm⟩ := Option.map_eq_some_iff.1 hrun
  have hrep : g.server.main.reported = true := by rw [hm]; rfl
  exact ⟨g, hg, hm, fun bs g' h' => drained_final hpolled hg hrep h'⟩

/-- **No request is cut by the load that ends the drain**, in any run: where the counter is
at 0, a call that is active has lost its client. -/
theorem load_cuts_nothing {as : List Act} (h : exec (step H T) (init cfg) as = some g)
    (h0 : g.server.inFlight = 0) {i : ℕ} {x : Exchange} (hx : g.exchanges[i]? = some x)
    (ha : x.active = true) : ∃ conn, g.server.conns[x.conn]? = some conn ∧ conn.finished = true := by
  have hg := exec_inv_init h
  obtain ⟨link, hl, -⟩ := hg.exchanges i x hx
  have hlt : x.conn < g.server.conns.length := by
    rw [← hg.links]
    exact (List.getElem?_eq_some_iff.1 hl).1
  have hc := List.getElem?_eq_getElem hlt
  have hguard : ¬ (g.server.conns[x.conn]).guarded = true := by
    have hz : g.server.conns.countP Conn.guarded = 0 := by rw [← hg.server.count, h0]
    exact List.countP_eq_zero.1 hz _ (List.getElem_mem hlt)
  have hbusy : busy g.exchanges x.conn = true := busy_iff.2 ⟨i, x, hx, rfl, ha⟩
  refine ⟨_, hc, ?_⟩
  cases hcase : g.server.conns[x.conn] with
  | spawned =>
    rw [hcase] at hc
    rw [hg.quiet _ (Or.inl hc)] at hbusy
    cases hbusy
  | idle | handling =>
    rw [hcase] at hguard
    exact absurd rfl hguard
  | served | released | closed => rfl

/-- A call that has not returned outlives its connection. -/
def cutRequest : List Act :=
  twoRequests ++ [.request 0 getRoot, .task (.conn 0 (.finish false)), .task (.conn 0 .fetchSub)]

theorem load_cuts_nothing_two : ∃ g x, exec (step httpCrate rustls) (init [apiBinding]) cutRequest = some g ∧
    g.exchanges[2]? = some x ∧ x.active = true ∧
    ∃ conn, g.server.conns[x.conn]? = some conn ∧ conn.finished = true := by
  have hrun : (exec (step httpCrate rustls) (init [apiBinding]) cutRequest).map (fun g =>
      (g.server.inFlight, g.exchanges[2]?.map Exchange.active)) = some (0, some true) := by
    decide +kernel
  obtain ⟨g, hg, hfacts⟩ := Option.map_eq_some_iff.1 hrun
  obtain ⟨h0, hact⟩ := Prod.mk.inj hfacts
  obtain ⟨x, hx, ha⟩ := Option.map_eq_some_iff.1 hact
  exact ⟨g, x, hg, hx, ha, load_cuts_nothing hg h0 hx ha⟩

end Gateway

end Retrotls
