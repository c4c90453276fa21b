import Retrotls.Proof.Server

/-!
# The counter of connection tasks

A run's actions say which tasks have run `fetch_add` (`started`) and which `fetch_sub`
(`released`).

* `counted_step`: what one step does to both, and to the counter.
* `counter_open`: **in every reachable state the counter is the number of tasks that are
  started and not released**, no task is started or released twice, and no `fetch_sub`
  wraps.
-/

namespace Retrotls

/-- The task has run `fetch_add`. -/
def Conn.polled : Conn → Bool
  | .spawned => false
  | _ => true

/-- The task has run `fetch_sub`. -/
def Conn.subtracted : Conn → Bool
  | .released => true
  | .closed => true
  | _ => false

/-- A task polls first, and only then. -/
theorem Conn.next_polled {a : ConnAct} {x y : Conn} (h : x.next a = some y) :
    y.polled = true ∧ (a = .poll ↔ x.polled = false) := by
  cases x with
  | spawned =>
    obtain ⟨rfl, rfl⟩ := of_guard h
    exact ⟨rfl, iff_of_true rfl rfl⟩
  | idle => cases a <;> cases h <;> exact ⟨rfl, by simp [polled]⟩
  | handling => cases a <;> cases h <;> exact ⟨rfl, by simp [polled]⟩
  | served ok =>
    obtain ⟨rfl, rfl⟩ := of_guard h
    exact ⟨rfl, by simp [polled]⟩
  | released =>
    obtain ⟨rfl, rfl⟩ := of_guard h
    exact ⟨rfl, by simp [polled]⟩
  | closed => cases h

/-- A task releases its guard once. -/
theorem Conn.next_subtracted {a : ConnAct} {x y : Conn} (h : x.next a = some y) :
    y.subtracted = (x.subtracted || a = .fetchSub) ∧ (a = .fetchSub → x.subtracted = false) := by
  cases x with
  | spawned =>
    obtain ⟨rfl, rfl⟩ := of_guard h
    exact ⟨rfl, fun h => by cases h⟩
  | idle => cases a <;> cases h <;> exact ⟨rfl, fun _ => rfl⟩
  | handling => cases a <;> cases h <;> exact ⟨rfl, fun _ => rfl⟩
  | served ok =>
    obtain ⟨rfl, rfl⟩ := of_guard h
    exact ⟨rfl, fun _ => rfl⟩
  | released =>
    obtain ⟨rfl, rfl⟩ := of_guard h
    exact ⟨rfl, fun h => by cases h⟩
  | closed => cases h

/-- A guard is held from `fetch_add` to `fetch_sub`. -/
theorem Conn.guarded_eq (x : Conn) : x.guarded = (x.polled && !x.subtracted) := by
  cases x <;> rfl

theorem Conn.polled_of_subtracted {x : Conn} (h : x.subtracted = true) : x.polled = true := by
  cases x <;> first | rfl | cases h

namespace Server

variable {s s' : Server} {a : Act} {as : List Act} {addrs : List SocketAddr}

/-- The task that an action starts counting. -/
def Act.starts : Act → Option ℕ
  | .conn c .poll => some c
  | _ => none

/-- The task that an action stops counting. -/
def Act.releases : Act → Option ℕ
  | .conn c .fetchSub => some c
  | _ => none

/-- The tasks that have run `fetch_add`. -/
def started (as : List Act) : List ℕ := as.filterMap Act.starts

/-- The tasks that have run `fetch_sub`. -/
def released (as : List Act) : List ℕ := as.filterMap Act.releases

/-- A step of a connection task is logged if it is the `fetch_add`, or the `fetch_sub`. -/
theorem started_conn (as : List Act) (c : ℕ) (b : ConnAct) :
    started (as ++ [.conn c b]) = started as ++ if b = .poll then [c] else [] := by
  unfold started
  rw [List.filterMap_append]
  cases b <;> rfl

theorem released_conn (as : List Act) (c : ℕ) (b : ConnAct) :
    released (as ++ [.conn c b]) = released as ++ if b = .fetchSub then [c] else [] := by
  unfold released
  rw [List.filterMap_append]
  cases b <;> rfl

/-- **What the actions say about the tasks.** -/
structure Counted (as : List Act) (s : Server) : Prop where
  started : ∀ c : ℕ, c ∈ started as ↔ ∃ x, s.conns[c]? = some x ∧ x.polled = true
  released : ∀ c : ℕ, c ∈ released as ↔ ∃ x, s.conns[c]? = some x ∧ x.subtracted = true
  nodup_started : (Server.started as).Nodup
  nodup_released : (Server.released as).Nodup
  count : s.inFlight + (Server.released as).length = (Server.started as).length

theorem counted_init (addrs : List SocketAddr) : Counted [] (init addrs) where
  started := by simp [Server.started, init]
  released := by simp [Server.released, init]
  nodup_started := List.nodup_nil
  nodup_released := List.nodup_nil
  count := rfl

/-- A step that is not a connection task's starts and releases nothing. -/
theorem counted_frame {conns : List Conn} (hc : Counted as s) (hstart : a.starts = none)
    (hrelease : a.releases = none) (hcount : s'.inFlight = s.inFlight)
    (hconns : s'.conns = s.conns ++ conns)
    (hnew : ∀ x ∈ conns, x.polled = false ∧ x.subtracted = false) : Counted (as ++ [a]) s' := by
  have hs : Server.started (as ++ [a]) = Server.started as := by
    simp [Server.started, hstart]
  have hr : Server.released (as ++ [a]) = Server.released as := by
    simp [Server.released, hrelease]
  refine ⟨?_, ?_, hs ▸ hc.nodup_started, hr ▸ hc.nodup_released, ?_⟩
  · intro c
    rw [hs, hconns, past_append fun x hx => (hnew x hx).1]
    exact hc.started c
  · intro c
    rw [hr, hconns, past_append fun x hx => (hnew x hx).2]
    exact hc.released c
  · rw [hs, hr, hcount]
    exact hc.count

/-- A `fetch_sub` never finds the counter at 0. -/
theorem fetchSub_pos (hs : s.Inv) {c : ℕ} {cs : List Conn}
    (h : move (Conn.next .fetchSub) c s.conns = some cs) : 0 < s.inFlight := by
  obtain ⟨x, y, hx, hy, rfl⟩ := move_some.1 h
  have hpolled : x.polled = true := by
    by_contra hx
    have := (Conn.next_polled hy).2.2 (Bool.eq_false_of_not_eq_true hx)
    cases this
  have hguard : x.guarded = true := by
    rw [Conn.guarded_eq, hpolled, (Conn.next_subtracted hy).2 rfl]
    rfl
  rw [hs.count]
  exact countP_pos_of_getElem? hx hguard

/-- **A step of a connection task**: its `fetch_add` and its `fetch_sub` come once each, in
this order. -/
theorem counted_conn (hs : s.Inv) (hc : Counted as s) {c : ℕ} {b : ConnAct} {cs : List Conn}
    {m : Main} (h : move (Conn.next b) c s.conns = some cs) :
    Counted (as ++ [.conn c b]) { s with conns := cs, inFlight := b.count s.inFlight, main := m } := by
  obtain ⟨x, y, hx, hy, rfl⟩ := move_some.1 h
  obtain ⟨hypoll, hpoll⟩ := Conn.next_polled hy
  obtain ⟨hysub, hsub⟩ := Conn.next_subtracted hy
  have hpast : y.polled = true ↔ x.polled = true ∨ b = .poll := by
    rw [hpoll, hypoll]
    cases x.polled <;> simp
  have hover : y.subtracted = true ↔ x.subtracted = true ∨ b = .fetchSub := by
    rw [hysub, Bool.or_eq_true, decide_eq_true_eq]
  obtain ⟨hstarted, hnodup⟩ := past_set hc.started hc.nodup_started hx hpast hpoll.1
  obtain ⟨hreleased, hnodup'⟩ := past_set hc.released hc.nodup_released hx hover hsub
  rw [← started_conn] at hstarted hnodup
  rw [← released_conn] at hreleased hnodup'
  refine ⟨hstarted, hreleased, hnodup, hnodup', ?_⟩
  have hcount := hc.count
  rw [started_conn, released_conn, List.length_append, List.length_append]
  cases b with
  | poll =>
    change s.inFlight + 1 + ((released as).length + 0) = (started as).length + 1
    omega
  | fetchSub =>
    have hpos : 0 < s.inFlight := fetchSub_pos hs h
    obtain ⟨n, hn⟩ : ∃ n, s.inFlight = n + 1 := ⟨s.inFlight - 1, by omega⟩
    have hfetch : ConnAct.count .fetchSub s.inFlight = n := by rw [hn]; rfl
    change ConnAct.count .fetchSub s.inFlight + ((released as).length + 1) = (started as).length + 0
    omega
  | request | respond | finish ok | notifyWaiters => exact hcount

/-- **Every step keeps what the actions say.** -/
theorem counted_step (hs : s.Inv) (hc : Counted as s) (h : s.step a = some s') :
    Counted (as ++ [a]) s' := by
  rcases step_cases h with ⟨addr, rest, rfl, -, -, rfl⟩ | ⟨b, m, rfl, -, rfl⟩ |
    ⟨l, b, ls, rfl, -, rfl⟩ | ⟨c, b, cs, rfl, hmove, rfl⟩
  · exact counted_frame hc rfl rfl rfl (List.append_nil _).symm fun x hx => by cases hx
  · exact counted_frame hc rfl rfl rfl (List.append_nil _).symm fun x hx => by cases hx
  · refine counted_frame hc rfl rfl rfl rfl fun x hx => ?_
    cases b with
    | spawn =>
      rw [List.mem_singleton.1 hx]
      exact ⟨rfl, rfl⟩
    | accept | acceptFails | breakLoop | panic => cases hx
  · exact counted_conn hs hc hmove

/-- **Every run is counted.** -/
theorem exec_counted (h : exec step (init addrs) as = some s) : Counted as s := by
  induction as using List.reverseRecOn generalizing s with
  | nil =>
    rw [exec_nil, Option.some.injEq] at h
    exact h ▸ counted_init addrs
  | append_singleton as a ih =>
    obtain ⟨t, ht, hstep⟩ := exec_concat.1 h
    exact counted_step (exec_inv_init ht) (ih ht) hstep

/-- **The counter is the number of tasks that are started and not released.** No task is started
or released twice, none is released before its start, no `fetch_sub` wraps, and the counter is 0
when every started task is over. -/
theorem counter_open (h : exec step (init addrs) as = some s) :
    (started as).Nodup ∧ (released as).Nodup ∧ released as ⊆ started as ∧
      s.inFlight = ((started as).filter fun c => c ∉ released as).length ∧
      (∀ before c after t, as = before ++ .conn c .fetchSub :: after →
        exec step (init addrs) before = some t → 0 < t.inFlight) ∧
      ((∀ c ∈ started as, s.conns[c]? = some .closed) → s.inFlight = 0) := by
  have hc : Counted as s := exec_counted h
  have hsub : released as ⊆ started as := by
    intro c hr
    obtain ⟨x, hx, hxsub⟩ := (hc.released c).1 hr
    exact (hc.started c).2 ⟨x, hx, Conn.polled_of_subtracted hxsub⟩
  have hopen : s.inFlight = ((started as).filter fun c => c ∉ released as).length := by
    have hlen := length_filter_not_mem hc.nodup_started hc.nodup_released hsub
    have hcount := hc.count
    omega
  refine ⟨hc.nodup_started, hc.nodup_released, hsub, hopen, ?_, ?_⟩
  · rintro before c after t rfl ht
    obtain ⟨t', ht', hrest⟩ := exec_append.1 h
    obtain ⟨u, hu, -⟩ := exec_cons.1 hrest
    have htt : t' = t := Option.some.inj (ht'.symm.trans ht)
    subst htt
    obtain ⟨cs, hmove, -⟩ := Option.map_eq_some_iff.1 hu
    exact fetchSub_pos (exec_inv_init ht) hmove
  · intro hclosed
    have hnone : (started as).filter (fun c => c ∉ released as) = [] := by
      rw [List.filter_eq_nil_iff]
      intro c hmem hopen
      exact of_decide_eq_true hopen ((hc.released c).2 ⟨.closed, hclosed c hmem, rfl⟩)
    rw [hopen, hnone, List.length_nil]

/-- Two listeners and three tasks: one has ended with an error, one serves, one waits. -/
def threeTasks : List Act :=
  [.bind, .bind, .main .ready, .listener 0 .accept, .listener 1 .accept, .listener 1 .spawn,
    .conn 0 .poll, .listener 0 .spawn, .listener 1 .accept, .listener 1 .spawn, .conn 2 .poll,
    .conn 0 .request, .conn 0 (.finish false), .conn 0 .fetchSub, .conn 2 .request,
    .conn 0 .notifyWaiters]

def threeTasksEnd : Server :=
  ⟨[], [.select, .select], [.closed, .spawned, .handling], 1, false, .waiting⟩

theorem exec_threeTasks : exec step (init [.v4 0 80, .v4 0 81]) threeTasks = some threeTasksEnd := by
  decide

theorem counter_open_three :
    (started threeTasks).Nodup ∧ (released threeTasks).Nodup ∧
      released threeTasks ⊆ started threeTasks ∧
      threeTasksEnd.inFlight =
        ((started threeTasks).filter fun c => c ∉ released threeTasks).length ∧
      (∀ before c after t, threeTasks = before ++ .conn c .fetchSub :: after →
        exec step (init [.v4 0 80, .v4 0 81]) before = some t → 0 < t.inFlight) ∧
      ((∀ c ∈ started threeTasks, threeTasksEnd.conns[c]? = some .closed) →
        threeTasksEnd.inFlight = 0) :=
  counter_open exec_threeTasks

end Server

end Retrotls
