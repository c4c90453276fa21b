import Retrotls.Lib.Pool
import Retrotls.Proof.Startup
import Retrotls.Proof.Drain

/-!
# Binding the listeners

* `starts_iff`: **a valid configuration starts if and only if none of its addresses takes
  another's.** `Config::validate` does not look at the addresses.
* `bind_failed`: **a start that fails at a bind** has the listeners before that one, which
  may have served meanwhile.

The first is about `spawnListeners`, where the system answers each bind, and the second
about the tasks.
-/

namespace Retrotls

/-- `SocketAddr::port`. -/
def SocketAddr.port : SocketAddr → UInt16
  | .v4 _ port => port
  | .v6 _ port _ _ => port

/-- `EADDRINUSE`. -/
def addrInUse : IoError := ⟨.other, "Address already in use (os error 98)".toList⟩

namespace Run

variable {env : Env} {clash : SocketAddr → SocketAddr → Bool} {refuses : ℕ → Option IoError}
  {addrs : List SocketAddr} {idx : ℕ}

/-- An address that is bound before `idx` takes the one of `idx`. -/
def taken (clash : SocketAddr → SocketAddr → Bool) (addrs : List SocketAddr) (idx : ℕ) : Bool :=
  addrs[idx]?.any fun addr => (addrs.take idx).any fun bound => clash bound addr

/-- **The binds of `addrs`, one after the other.** The system refuses one for a reason of
its own, or because an address that is bound takes it. -/
def bindWith (clash : SocketAddr → SocketAddr → Bool) (refuses : ℕ → Option IoError)
    (addrs : List SocketAddr) (idx : ℕ) : Option IoError :=
  (refuses idx).or (if taken clash addrs idx then some addrInUse else none)

theorem taken_eq_false : taken clash addrs idx = false ↔
    ∀ addr, addrs[idx]? = some addr → ∀ bound ∈ addrs.take idx, clash bound addr = false := by
  unfold taken
  cases addrs[idx]? with
  | none => simp
  | some addr => simp

/-- **No address takes another's**: no bind finds its address taken. -/
theorem pairwise_iff_taken : addrs.Pairwise (fun a b => clash a b = false) ↔
    ∀ idx, taken clash addrs idx = false := by
  simp only [taken_eq_false]
  exact pairwise_iff_take

theorem bindWith_eq_none : bindWith clash refuses addrs idx = none ↔
    refuses idx = none ∧ taken clash addrs idx = false := by
  unfold bindWith
  rw [Option.or_eq_none_iff]
  cases taken clash addrs idx <;> simp

theorem bindWith_of_not_taken (h : taken clash addrs idx = false) :
    bindWith clash refuses addrs idx = refuses idx := by
  unfold bindWith
  rw [h]
  exact Option.or_none

/-- `run` with a system that binds by `clash` and `refuses`. -/
def onSystem (env : Env) (clash : SocketAddr → SocketAddr → Bool) (refuses : ℕ → Option IoError)
    (config : Config) : Env :=
  { env with bind := bindWith clash refuses (config.listeners.map (·.listen)) }

/-- **The configuration starts.** The startup loop parses every upstream again, no two
listeners share an address with a port of their own, and the loop fails only at a bind
that the system refuses for a reason of its own. -/
structure Starts (env : Env) (clash : SocketAddr → SocketAddr → Bool) (config : Config) : Prop where
  upstreams : ∀ l ∈ config.listeners, ∃ up, parseUpstream env.http l.upstream = .ok up
  distinct : ((config.listeners.map (·.listen)).filter fun addr => addr.port ≠ 0).Nodup
  binds : ∀ (refuses : ℕ → Option IoError) (w : World),
    (spawnListeners (onSystem env clash refuses config) 0 config.listeners).Ends w fun o _ =>
      o = .ok () ∨ ∃ i listener source, config.listeners[i]? = some listener ∧
        refuses i = some source ∧ o = .err (.bindFailed listener.listen source)

variable {config : Config}

/-- A configuration without two addresses that clash has no address twice. -/
theorem nodup_of_pairwise (hclash : ∀ addr : SocketAddr, addr.port ≠ 0 → clash addr addr = true)
    (h : addrs.Pairwise fun a b => clash a b = false) :
    (addrs.filter fun addr => addr.port ≠ 0).Nodup := by
  have hfilter := h.filter fun addr => decide (addr.port ≠ 0)
  refine List.Pairwise.imp_of_mem ?_ hfilter
  intro a b ha _ hab heq
  have hport : a.port ≠ 0 := of_decide_eq_true (List.mem_filter.1 ha).2
  rw [← heq, hclash a hport] at hab
  cases hab

/-- The startup loop of a valid configuration ends at the first bind that fails. -/
theorem onSystem_ends (hv : config.validate env.http = .ok ()) (w : World) :
    (spawnListeners (onSystem env clash refuses config) 0 config.listeners).Ends w fun o _ =>
      (o = .ok () ∧ ∀ i < config.listeners.length,
        bindWith clash refuses (config.listeners.map (·.listen)) i = none) ∨
      ∃ i listener source, config.listeners[i]? = some listener ∧
        bindWith clash refuses (config.listeners.map (·.listen)) i = some source ∧
        o = .err (.bindFailed listener.listen source) := by
  have hup : ∀ l ∈ config.listeners, ∃ up,
      parseUpstream (onSystem env clash refuses config).http l.upstream = .ok up :=
    fun l hl => ((validate_ok.1 hv).2 l hl).2
  have hends := spawnListeners_ends hup 0 w
  simp only [Bound, Nat.zero_add] at hends
  exact hends

/-- **Exactly when a valid configuration starts**: no address of its listeners takes the
address of a later one. -/
theorem starts_iff (hclash : ∀ addr : SocketAddr, addr.port ≠ 0 → clash addr addr = true)
    (hv : config.validate env.http = .ok ()) : Starts env clash config ↔
      (config.listeners.map (·.listen)).Pairwise fun a b => clash a b = false := by
  constructor
  · -- where the system refuses nothing, every bind succeeds
    intro h
    have hno : ∀ i < config.listeners.length,
        bindWith clash (fun _ => none) (config.listeners.map (·.listen)) i = none := by
      have w : World := ⟨fun _ => .absent, []⟩
      have hb := (onSystem_ends hv w).and (h.binds (fun _ => none) w)
      rcases hb with ⟨⟨-, hall⟩ | ⟨i, l, source, hl, hs, ho⟩, hok | ⟨_, _, _, -, ⟨⟩, -⟩⟩
      · exact hall
      · rw [ho] at hok
        cases hok
    rw [pairwise_iff_taken]
    intro idx
    by_cases hidx : idx < config.listeners.length
    · exact (bindWith_eq_none.1 (hno idx hidx)).2
    · rw [taken_eq_false]
      intro addr haddr
      have hlt := (List.getElem?_eq_some_iff.1 haddr).1
      rw [List.length_map] at hlt
      omega
  · intro h
    refine ⟨fun l hl => ((validate_ok.1 hv).2 l hl).2, nodup_of_pairwise hclash h, ?_⟩
    intro refuses w
    have hfree := pairwise_iff_taken.1 h
    refine (onSystem_ends hv w).mono ?_
    rintro o - (⟨ho, -⟩ | ⟨i, l, source, hl, hs, ho⟩)
    · exact Or.inl ho
    · rw [bindWith_of_not_taken (hfree i)] at hs
      exact Or.inr ⟨i, l, source, hl, hs, ho⟩

/-- Sockets that cannot both listen: on one port, at one address or at all of them. -/
def sameSocket : SocketAddr → SocketAddr → Bool
  | .v4 ip port, .v4 ip' port' => port != 0 && port == port' && (ip == ip' || ip == 0 || ip' == 0)
  | .v6 ip port _ scope, .v6 ip' port' _ scope' =>
    port != 0 && port == port' && (ip == ip' && scope == scope' || ip == 0 || ip' == 0)
  -- the unspecified IPv6 address is for IPv4 too
  | .v4 _ port, .v6 ip port' _ _ => port != 0 && port == port' && ip == 0
  | .v6 ip port _ _, .v4 _ port' => port != 0 && port == port' && ip == 0

theorem sameSocket_self (addr : SocketAddr) (h : addr.port ≠ 0) : sameSocket addr addr = true := by
  cases addr with
  | v4 ip port =>
    have hport : port ≠ 0 := h
    simp [sameSocket, hport]
  | v6 ip port flowinfo scope =>
    have hport : port ≠ 0 := h
    simp [sameSocket, hport]

/-- A configuration that forwards from two addresses. -/
def twoListeners (a b : SocketAddr) : Config where
  logLevel := none
  accessLog := true
  shutdownTimeoutSecs := none
  listeners := [⟨a, "https://api.example.com".toList⟩, ⟨b, "https://api.example.com".toList⟩]

theorem starts_twoPorts :
    Starts calm sameSocket (twoListeners (.v4 0x7f000001 8080) (.v4 0x7f000001 8081)) :=
  (starts_iff sameSocket_self (by decide +kernel)).2 (by decide)

/-- An address that is listed twice is accepted, and its second bind fails. -/
theorem same_address_fails :
    (twoListeners (.v4 0x7f000001 8080) (.v4 0x7f000001 8080)).validate calm.http = .ok () ∧
    (spawnListeners (onSystem calm sameSocket (fun _ => none)
        (twoListeners (.v4 0x7f000001 8080) (.v4 0x7f000001 8080))) 0
      (twoListeners (.v4 0x7f000001 8080) (.v4 0x7f000001 8080)).listeners noConfig).1 =
        .err (.bindFailed (.v4 0x7f000001 8080) addrInUse) ∧
    ¬ Starts calm sameSocket (twoListeners (.v4 0x7f000001 8080) (.v4 0x7f000001 8080)) := by
  refine ⟨by decide +kernel, by decide +kernel, ?_⟩
  intro h
  exact absurd h.distinct (by decide)

end Run

/-- A listener task has a connection by accepting it. -/
theorem Listener.next_accepted {shutdown : Bool} {a : ListenerAct} {l : Listener}
    (h : l.next shutdown a = some .accepted) : a = .accept := by
  cases l with
  | select =>
    cases a with
    | accept => rfl
    | breakLoop =>
      obtain ⟨-, hl⟩ := of_guard h
      cases hl
    | _ => cases h
  | accepted => cases a <;> cases h
  | ended ok => cases h

/-- A connection task is spawned for a connection that was accepted. -/
theorem Listener.accepted_of_spawn {shutdown : Bool} {l l' : Listener}
    (h : l.next shutdown .spawn = some l') : l = .accepted := by
  cases l with
  | select => cases h
  | accepted => rfl
  | ended ok => cases h

namespace Server

variable {s s' : Server} {a : Act} {as : List Act} {addrs : List SocketAddr}

/-- **While the listeners are bound**, after the actions `as`: the first ones are, they
alone have taken steps, and what is served has been accepted by one of them. -/
structure Binding (addrs : List SocketAddr) (as : List Act) (s : Server) : Prop where
  binding : s.main = .binding
  shutdown : s.shutdown = false
  toBind : s.toBind = addrs.drop (as.count .bind)
  listeners : s.listeners.length = as.count .bind
  main : ∀ b, .main b ∉ as
  listener : ∀ l b, .listener l b ∈ as → l < as.count .bind
  accepted : ∀ l : ℕ, s.listeners[l]? = some .accepted → .listener l .accept ∈ as
  conns : s.conns ≠ [] → ∃ l, .listener l .accept ∈ as
  conn : ∀ c b, .conn c b ∈ as → ∃ l, .listener l .accept ∈ as

theorem binding_init (addrs : List SocketAddr) : Binding addrs [] (init addrs) where
  binding := rfl
  shutdown := rfl
  toBind := rfl
  listeners := rfl
  main := fun _ h => by cases h
  listener := fun _ _ h => by cases h
  accepted := fun _ h => by cases h
  conns := fun h => absurd rfl h
  conn := fun _ _ h => by cases h

theorem binding_bind (hs : Binding addrs as s) {addr : SocketAddr} {rest : List SocketAddr}
    (ht : s.toBind = addr :: rest) : Binding addrs (as ++ [.bind])
      { s with toBind := rest, listeners := s.listeners ++ [.select] } := by
  have hcount : (as ++ [Act.bind]).count .bind = as.count .bind + 1 := by simp
  have hold : ∀ b, b ∈ as → b ∈ as ++ [Act.bind] := fun b => List.mem_append_left _
  refine ⟨hs.binding, hs.shutdown, ?_, ?_, ?_, ?_, ?_, ?_, ?_⟩
  · have htail := congrArg List.tail ht
    rw [hs.toBind, List.tail_drop] at htail
    rw [hcount]
    exact htail.symm
  · have hlen := hs.listeners
    rw [hcount, List.length_append, List.length_singleton]
    omega
  · intro b hb
    have hmem : Act.main b ∈ as := by simpa using hb
    exact hs.main b hmem
  · intro l b hb
    have hmem : Act.listener l b ∈ as := by simpa using hb
    have hl := hs.listener l b hmem
    omega
  · intro l hl
    rw [List.getElem?_append] at hl
    split at hl
    · exact hold _ (hs.accepted l hl)
    · have hmem := List.mem_of_getElem? hl
      rw [List.mem_singleton] at hmem
      cases hmem
  · intro hc
    obtain ⟨l, hl⟩ := hs.conns hc
    exact ⟨l, hold _ hl⟩
  · intro c b hb
    have hmem : Act.conn c b ∈ as := by simpa using hb
    obtain ⟨l, hl⟩ := hs.conn c b hmem
    exact ⟨l, hold _ hl⟩

/-- A listener that has a connection has accepted it, now or before. -/
theorem Binding.accepted_move (hs : Binding addrs as s) {l : ℕ} {b : ListenerAct} {y : Listener}
    (hl : l < s.listeners.length) (hy : y = .accepted → b = .accept) {l' : ℕ}
    (hl' : (s.listeners.set l y)[l']? = some .accepted) :
    .listener l' .accept ∈ as ++ [.listener l b] := by
  by_cases hll : l = l'
  · subst hll
    rw [List.getElem?_set_self hl, Option.some.injEq] at hl'
    rw [hy hl']
    exact List.mem_append_right _ (List.mem_singleton_self _)
  · rw [List.getElem?_set_ne hll] at hl'
    exact List.mem_append_left _ (hs.accepted l' hl')

/-- The first connection task is spawned for what a listener has accepted. -/
theorem Binding.conns_spawn (hs : Binding addrs as s) {l : ℕ} {b : ListenerAct} {x : Listener}
    (hx : s.listeners[l]? = some x) (hspawn : b = .spawn → x = .accepted)
    (hc : s.conns ++ b.spawned ≠ []) : ∃ l, .listener l .accept ∈ as := by
  by_cases hconns : s.conns = []
  · cases b with
    | spawn =>
      rw [hspawn rfl] at hx
      exact ⟨l, hs.accepted l hx⟩
    | _ => exact absurd (by rw [hconns]; rfl) hc
  · exact hs.conns hconns

theorem binding_listener (hs : Binding addrs as s) {l : ℕ} {b : ListenerAct} {ls : List Listener}
    (h : move (Listener.next s.shutdown b) l s.listeners = some ls) :
    Binding addrs (as ++ [.listener l b]) { s with listeners := ls, conns := s.conns ++ b.spawned } := by
  have hcount : (as ++ [Act.listener l b]).count .bind = as.count .bind := by simp
  have hold : ∀ b', b' ∈ as → b' ∈ as ++ [Act.listener l b] := fun b' => List.mem_append_left _
  have hlen := length_move h
  obtain ⟨x, y, hx, hy, rfl⟩ := move_some.1 h
  have hl : l < s.listeners.length := (List.getElem?_eq_some_iff.1 hx).1
  refine ⟨hs.binding, hs.shutdown, ?_, ?_, ?_, ?_, ?_, ?_, ?_⟩
  · rw [hcount]
    exact hs.toBind
  · rw [hcount, ← hs.listeners]
    exact hlen
  · intro b' hb
    have hmem : Act.main b' ∈ as := by simpa using hb
    exact hs.main b' hmem
  · intro l' b' hb
    rw [hcount]
    rcases List.mem_append.1 hb with hb | hb
    · exact hs.listener l' b' hb
    · cases List.mem_singleton.1 hb
      rw [← hs.listeners]
      exact hl
  · intro l' hl'
    refine hs.accepted_move hl (fun hacc => ?_) hl'
    rw [hacc] at hy
    exact Listener.next_accepted hy
  · intro hc
    have hspawn : b = .spawn → x = .accepted := by
      rintro rfl
      exact Listener.accepted_of_spawn hy
    obtain ⟨l', hl'⟩ := hs.conns_spawn hx hspawn hc
    exact ⟨l', hold _ hl'⟩
  · intro c b' hb
    have hmem : Act.conn c b' ∈ as := by simpa using hb
    obtain ⟨l', hl'⟩ := hs.conn c b' hmem
    exact ⟨l', hold _ hl'⟩

theorem binding_conn (hs : Binding addrs as s) {c : ℕ} {b : ConnAct} {cs : List Conn}
    (h : move (Conn.next b) c s.conns = some cs) : Binding addrs (as ++ [.conn c b])
      { s with conns := cs, inFlight := b.count s.inFlight
               main := if b = .notifyWaiters then s.main.wake else s.main } := by
  have hcount : (as ++ [Act.conn c b]).count .bind = as.count .bind := by simp
  have hold : ∀ b', b' ∈ as → b' ∈ as ++ [Act.conn c b] := fun b' => List.mem_append_left _
  obtain ⟨x, y, hx, hy, rfl⟩ := move_some.1 h
  -- there is a connection, so one has been accepted
  have hserved : ∃ l, Act.listener l .accept ∈ as ++ [Act.conn c b] := by
    have hne : s.conns ≠ [] := List.ne_nil_of_mem (List.mem_of_getElem? hx)
    obtain ⟨l, hl⟩ := hs.conns hne
    exact ⟨l, hold _ hl⟩
  refine ⟨?_, hs.shutdown, ?_, ?_, ?_, ?_, ?_, fun _ => hserved, fun _ _ _ => hserved⟩
  · exact (Main.wake_ite_iff (by simp) _).2 hs.binding
  · rw [hcount]
    exact hs.toBind
  · rw [hcount]
    exact hs.listeners
  · intro b' hb
    have hmem : Act.main b' ∈ as := by simpa using hb
    exact hs.main b' hmem
  · intro l b' hb
    have hmem : Act.listener l b' ∈ as := by simpa using hb
    rw [hcount]
    exact hs.listener l b' hmem
  · intro l hl
    exact hold _ (hs.accepted l hl)

theorem Next.ne_binding {m m' : Main} {b : MainAct} (h : Next s m b m') : m' ≠ .binding := by
  rintro rfl
  cases h

theorem binding_step (hs : Binding addrs as s) (h : s.step a = some s') (hb : s'.main = .binding) :
    Binding addrs (as ++ [a]) s' := by
  rcases step_cases h with ⟨addr, rest, rfl, -, ht, rfl⟩ | ⟨b, m, -, hm, rfl⟩ |
    ⟨l, b, ls, rfl, hl, rfl⟩ | ⟨c, b, cs, rfl, hc, rfl⟩
  · exact binding_bind hs ht
  · exact absurd hb (next_some hm).ne_binding
  · exact binding_listener hs hl
  · exact binding_conn hs hc

/-- `run` binds from its start on. -/
theorem binding_of_step (h : s.step a = some s') (hb : s'.main = .binding) : s.main = .binding := by
  rcases step_cases h with ⟨addr, rest, -, hm, -, rfl⟩ | ⟨b, m, -, hm, rfl⟩ |
    ⟨l, b, ls, -, -, rfl⟩ | ⟨c, b, cs, -, -, rfl⟩
  · exact hm
  · exact absurd hb (next_some hm).ne_binding
  · exact hb
  · exact (Main.wake_ite_iff (by simp) _).1 hb

/-- **Every run that is still at its binds.** -/
theorem exec_binding (h : exec step (init addrs) as = some s) (hb : s.main = .binding) :
    Binding addrs as s := by
  induction as using List.reverseRecOn generalizing s with
  | nil =>
    rw [exec_nil, Option.some.injEq] at h
    rw [← h]
    exact binding_init addrs
  | append_singleton as a ih =>
    obtain ⟨t, ht, hst⟩ := exec_concat.1 h
    exact binding_step (ih ht (binding_of_step hst hb)) hst hb

/-- A step to a failed bind is that bind's, or `run` has returned before it. -/
theorem bindFails_of_step {addr : SocketAddr} {source : IoError} (h : s.step a = some s')
    (hf : s'.main = .failed (.bindFailed addr source)) : s'.shutdown = s.shutdown ∧
      (s.main = .failed (.bindFailed addr source) ∨
        a = .main (.bindFails source) ∧ s.main = .binding ∧ s.toBind.head? = some addr) := by
  rcases step_cases h with ⟨_, rest, -, hm, -, rfl⟩ | ⟨b, m, rfl, hm, rfl⟩ |
    ⟨l, b, ls, -, -, rfl⟩ | ⟨c, b, cs, -, -, rfl⟩
  · rw [hm] at hf
    cases hf
  · have hn := next_some hm
    have hm' : m = .failed (.bindFailed addr source) := hf
    rw [hm'] at hn
    generalize hs : s.main = m₀ at hn
    cases hn with
    | bindFails _ _ ha => exact ⟨by simp, Or.inr ⟨rfl, rfl, ha⟩⟩
  · exact ⟨rfl, Or.inl hf⟩
  · exact ⟨rfl, Or.inl ((Main.wake_ite_iff (by simp) _).1 hf)⟩

/-- **What a start has done before the bind of `addr`**: only the listeners before that one
are bound, nothing else takes a step, and what is served has been accepted by one of them. -/
structure StartedBefore (config : Config) (addr : SocketAddr) (before : List Act) : Prop where
  next : (config.listeners[before.count .bind]?).map (·.listen) = some addr
  main : ∀ b, .main b ∉ before
  listener : ∀ l b, .listener l b ∈ before → l < before.count .bind
  conn : ∀ c b, .conn c b ∈ before → ∃ l, .listener l .accept ∈ before

theorem Binding.startedBefore {config : Config} {addr : SocketAddr}
    (hs : Binding (config.listeners.map (·.listen)) as s) (ha : s.toBind.head? = some addr) :
    StartedBefore config addr as := by
  refine ⟨?_, hs.main, hs.listener, hs.conn⟩
  rw [hs.toBind, List.head?_drop, List.getElem?_map] at ha
  exact ha

/-- A start that fails at its first bind has done nothing. -/
theorem StartedBefore.nothing {config : Config} {addr : SocketAddr}
    (h : StartedBefore config addr as) (hk : as.count .bind = 0) : as = [] := by
  have hno : ∀ l b, .listener l b ∉ as := by
    intro l b hb
    have hl := h.listener l b hb
    omega
  refine List.eq_nil_iff_forall_not_mem.2 ?_
  intro a ha
  cases a with
  | bind => exact absurd hk (List.count_pos_iff.2 ha).ne'
  | main b => exact h.main b ha
  | listener l b => exact hno l b ha
  | conn c b =>
    obtain ⟨l, hl⟩ := h.conn c b ha
    exact hno l .accept hl

/-- **Every run in which `run` returns `BindFailed`**: the listeners before the failed one
are bound and run, as far as they have come, and no other; nothing has happened if it is
the first. The shutdown signal is not sent. -/
theorem bind_failed {config : Config} {addr : SocketAddr} {source : IoError}
    (h : exec step (init (config.listeners.map (·.listen))) as = some s)
    (hf : s.main = .failed (.bindFailed addr source)) : s.shutdown = false ∧
      ∃ before after, as = before ++ .main (.bindFails source) :: after ∧
        StartedBefore config addr before ∧ (before.count .bind = 0 → before = []) := by
  induction as using List.reverseRecOn generalizing s with
  | nil =>
    rw [exec_nil, Option.some.injEq] at h
    rw [← h] at hf
    cases hf
  | append_singleton as a ih =>
    obtain ⟨t, ht, hst⟩ := exec_concat.1 h
    obtain ⟨hsh, hfailed | ⟨rfl, hb, ha⟩⟩ := bindFails_of_step hst hf
    · obtain ⟨hno, before, after, rfl, hbefore⟩ := ih ht hfailed
      refine ⟨hsh.trans hno, before, after ++ [a], ?_, hbefore⟩
      rw [List.append_assoc, List.cons_append]
    · have hbinding := exec_binding ht hb
      have hbefore := hbinding.startedBefore ha
      exact ⟨hsh.trans hbinding.shutdown, as, [], rfl, hbefore, hbefore.nothing⟩

/-- The first listener takes a request while the second is not bound. -/
def earlyRequest : List Act :=
  [.bind, .listener 0 .accept, .listener 0 .spawn, .conn 0 .poll, .conn 0 .request]

/-- Two listeners at different ports. -/
def twoPorts : Config := Run.twoListeners localhost (.v4 0x7f000001 8081)

/-- The second bind fails. -/
def halfStarted : Server where
  toBind := [.v4 0x7f000001 8081]
  listeners := [.select]
  conns := [.handling]
  inFlight := 1
  shutdown := false
  main := .failed (.bindFailed (.v4 0x7f000001 8081) addrInUse)

theorem exec_halfStarted : exec step (init (twoPorts.listeners.map (·.listen)))
    (earlyRequest ++ [.main (.bindFails addrInUse)]) = some halfStarted := by decide

theorem bind_failed_halfStarted : ∃ before after,
    earlyRequest ++ [.main (.bindFails addrInUse)] = before ++ .main (.bindFails addrInUse) :: after ∧
      StartedBefore twoPorts (.v4 0x7f000001 8081) before ∧ (before.count .bind = 0 → before = []) :=
  (bind_failed exec_halfStarted rfl).2

/-- A valid configuration fails at its second bind, with a request in the first listener's
hands. -/
theorem early_request_aborted : twoPorts.validate httpCrate = .ok () ∧
    exec step (init (twoPorts.listeners.map (·.listen)))
      (earlyRequest ++ [.main (.bindFails addrInUse)]) = some halfStarted ∧
    halfStarted.main = .failed (.bindFailed (.v4 0x7f000001 8081) addrInUse) ∧
    .listener 0 .accept ∈ earlyRequest ∧ .conn 0 .request ∈ earlyRequest := by
  refine ⟨by decide +kernel, exec_halfStarted, rfl, by decide, by decide⟩

end Server

end Retrotls
