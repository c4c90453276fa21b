import Retrotls.Spec.Gateway
import Retrotls.Proof.Exchange
import Retrotls.Proof.Drain
import Retrotls.Proof.Target
import Retrotls.Lib.Trace

/-!
# Every interleaving of tasks and requests

* `Gateway.exec_server`: **the daemon with its requests refines the daemon without them**.
* `Gateway.Inv`, `exec_inv_init`: what holds in every reachable state.
-/

namespace Retrotls

namespace Gateway

variable {H : HttpCrate} {T : Rustls} {cfg : List Binding} {g g' : Gateway} {a : Act}

/-! ## The steps -/

/-- A connection that is served, with a call. -/
theorem step_request {s : Server} {c : ℕ} (h : s.conns[c]? = some .idle) :
    s.step (.conn c .request) = some { s with conns := s.conns.set c .handling } := by
  have hm : move (Conn.next .request) c s.conns = some (s.conns.set c .handling) :=
    move_some.2 ⟨_, _, h, rfl, rfl⟩
  simp [Server.step, hm, ConnAct.count]

/-- A connection that is served, after its last call. -/
theorem step_respond {s : Server} {c : ℕ} (h : s.conns[c]? = some .handling) :
    s.step (.conn c .respond) = some { s with conns := s.conns.set c .idle } := by
  have hm : move (Conn.next .respond) c s.conns = some (s.conns.set c .idle) :=
    move_some.2 ⟨_, _, h, rfl, rfl⟩
  simp [Server.step, hm, ConnAct.count]

/-- Either the connection goes back to waiting, or nothing changes. -/
theorem settle_cases (s : Server) (exchanges : List Exchange) (c : ℕ) :
    (s.conns[c]? = some .handling ∧ busy exchanges c = false ∧
      settle s exchanges c = { s with conns := s.conns.set c .idle }) ∨
    ((s.conns[c]? = some .handling → busy exchanges c = true) ∧ settle s exchanges c = s) := by
  unfold settle
  split
  · rename_i h
    exact Or.inl ⟨h.1, h.2, by rw [step_respond h.1, Option.getD_some]⟩
  · rename_i h
    refine Or.inr ⟨fun hc => ?_, rfl⟩
    cases hb : busy exchanges c with
    | true => rfl
    | false => exact absurd ⟨hc, hb⟩ h

/-- A state that is set again. -/
theorem set_self {s : Server} {c : ℕ} {x : Conn} (h : s.conns[c]? = some x) :
    { s with conns := s.conns.set c x } = s := by
  obtain ⟨hc, hx⟩ := List.getElem?_eq_some_iff.1 h
  have hset : s.conns.set c x = s.conns := by rw [← hx, List.set_getElem_self]
  rw [hset]

/-- What one step can do. -/
theorem step_cases (h : g.step H T a = some g') :
    (∃ b s, a = .task b ∧ serves b = false ∧ g.server.step b = some s ∧
      g' = { g.handOn b with server := s }) ∨
    (∃ c parts link, a = .request c parts ∧ g.links[c]? = some link ∧
      (g.server.conns[c]? = some .idle ∨ g.server.conns[c]? = some .handling) ∧
      g' = { g with server := { g.server with conns := g.server.conns.set c .handling }
                    exchanges := g.exchanges ++ [.start c link.binding.upstream parts] }) ∨
    (∃ i b x y, a = .exchange i b ∧ g.exchanges[i]? = some x ∧ x.next H T b = some y ∧
      g' = { g with server := settle g.server (g.exchanges.set i y) y.conn
                    exchanges := g.exchanges.set i y
                    replies := g.replies ++ replyOf g.server i y }) := by
  cases a with
  | task b =>
    left
    simp only [step] at h
    split at h
    · cases h
    · rename_i hb
      obtain ⟨s, hs, rfl⟩ := Option.map_eq_some_iff.1 h
      exact ⟨b, s, rfl, by simpa using hb, hs, rfl⟩
  | request c parts =>
    right; left
    simp only [step] at h
    split at h
    · rename_i link hl hc
      rw [step_request hc, Option.map_some, Option.some.injEq] at h
      exact ⟨c, parts, link, rfl, hl, Or.inl hc, h.symm⟩
    · rename_i link hl hc
      rw [Option.some.injEq] at h
      refine ⟨c, parts, link, rfl, hl, Or.inr hc, ?_⟩
      rw [set_self hc]
      exact h.symm
    · cases h
  | exchange i b =>
    right; right
    obtain ⟨x, hx, h⟩ := Option.bind_eq_some_iff.1 h
    obtain ⟨y, hy, rfl⟩ := Option.map_eq_some_iff.1 h
    exact ⟨i, b, x, y, rfl, hx, hy, rfl⟩

@[simp] theorem handOn_exchanges (g : Gateway) (b : Server.Act) :
    (g.handOn b).exchanges = g.exchanges := by
  unfold handOn
  split <;> rfl

@[simp] theorem handOn_replies (g : Gateway) (b : Server.Act) : (g.handOn b).replies = g.replies := by
  unfold handOn
  split <;> rfl

/-! ## The daemon without its requests -/

/-- Where no call is modelled, a step is one of the daemon's, or none. -/
theorem server_cases (h : g.step H T a = some g') :
    (∃ b, a = .task b ∧ g.server.step b = some g'.server) ∨
    (∃ c b, g.server.step (.conn c b) = some g'.server) ∨ g'.server = g.server := by
  rcases step_cases h with ⟨b, s, rfl, -, hs, rfl⟩ | ⟨c, parts, link, -, -, hc, rfl⟩ |
    ⟨i, b, x, y, -, -, -, rfl⟩
  · exact Or.inl ⟨b, rfl, hs⟩
  · rcases hc with hc | hc
    · exact Or.inr (Or.inl ⟨c, .request, step_request hc⟩)
    · exact Or.inr (Or.inr (set_self hc))
  · rcases settle_cases g.server (g.exchanges.set i y) y.conn with ⟨hc, -, he⟩ | ⟨-, he⟩
    · exact Or.inr (Or.inl ⟨y.conn, .respond, by rw [step_respond hc, he]⟩)
    · exact Or.inr (Or.inr he)

theorem step_server (h : g.step H T a = some g') :
    ∃ bs, exec Server.step g.server bs = some g'.server := by
  rcases server_cases h with ⟨b, -, hs⟩ | ⟨c, b, hs⟩ | he
  · exact ⟨[b], exec_cons.2 ⟨_, hs, rfl⟩⟩
  · exact ⟨[.conn c b], exec_cons.2 ⟨_, hs, rfl⟩⟩
  · exact ⟨[], by rw [exec_nil, he]⟩

/-- **The daemon with its requests refines the daemon without them.** -/
theorem exec_server {as : List Act} (h : exec (step H T) g as = some g') :
    ∃ bs, exec Server.step g.server bs = some g'.server := by
  have hstep : ∀ g a g' s, g.server = s → True → step H T g a = some g' →
      ∃ bs t, exec Server.step s bs = some t ∧ g'.server = t := by
    rintro g a g' _ rfl - hg
    obtain ⟨bs, hb⟩ := step_server hg
    exact ⟨bs, _, hb, rfl⟩
  obtain ⟨bs, t, hb, rfl⟩ := exec_sim hstep rfl (along_of_forall (fun _ _ => trivial) g as) h
  exact ⟨bs, hb⟩

/-! ## Two requests on one connection -/

def apiBinding : Binding := ⟨Server.localhost, apiUpstream⟩

def getRoot : Parts := ⟨"GET".toList, ⟨none, none, ⟨['/']⟩⟩, .http11, []⟩

/-- The steps of two calls alternate. The second is refused, and the first is answered. -/
def twoRequests : List Act :=
  [.task .bind, .task (.main .ready), .task (.listener 0 .accept), .task (.listener 0 .spawn),
    .task (.conn 0 .poll), .request 0 getRoot, .request 0 getRoot,
    .exchange 1 (.answer (.requestBody (some []))), .exchange 0 (.answer (.requestBody (some []))),
    .exchange 0 (.answer (.connect true)), .exchange 1 (.answer (.connect false)),
    .exchange 0 (.answer (.tlsConnect true)), .exchange 0 (.answer (.handshake true)),
    .exchange 0 (.answer (.response (some ⟨200, []⟩))),
    .exchange 0 (.answer (.responseBody (some [])))]

theorem exec_server_two : ∃ g bs, exec (step httpCrate rustls) (init [apiBinding]) twoRequests = some g ∧
    g.replies.length = 2 ∧ exec Server.step (Server.init [Server.localhost]) bs = some g.server := by
  have hrun : (exec (step httpCrate rustls) (init [apiBinding]) twoRequests).map
      (fun g => g.replies.length) = some 2 := by decide +kernel
  obtain ⟨g, hg, hlen⟩ := Option.map_eq_some_iff.1 hrun
  obtain ⟨bs, hb⟩ := exec_server hg
  exact ⟨g, bs, hg, hlen, hb⟩

/-! ## The invariant -/

/-- **What holds in every reachable state**, for the listeners of the configuration. -/
structure Inv (cfg : List Binding) (g : Gateway) : Prop where
  server : g.server.Inv
  bindings : g.bindings ++ g.toBind = cfg
  toBind : g.server.toBind = g.toBind.map Binding.addr
  listeners : g.bindings.length = g.server.listeners.length
  links : g.links.length = g.server.conns.length
  linked : ∀ (c : ℕ) (link : Link), g.links[c]? = some link → g.bindings[link.listener]? = some link.binding
  exchanges : ∀ (i : ℕ) (x : Exchange), g.exchanges[i]? = some x →
    ∃ link, g.links[x.conn]? = some link ∧ x.upstream = link.binding.upstream
  handling : ∀ c, g.server.conns[c]? = some .handling → busy g.exchanges c = true
  quiet : ∀ c, g.server.conns[c]? = some .spawned ∨ g.server.conns[c]? = some .idle →
    busy g.exchanges c = false
  replies : ∀ i resp, (i, resp) ∈ g.replies → ∃ x result, g.exchanges[i]? = some x ∧
    x.phase = .done result ∧ x.dropped = false ∧ resp = respond result
  once : (g.replies.map Prod.fst).Nodup

theorem inv_init (cfg : List Binding) : (init cfg).Inv cfg where
  server := Server.inv_init _
  bindings := rfl
  toBind := rfl
  listeners := rfl
  links := rfl
  linked := fun _ _ h => by cases h
  exchanges := fun _ _ h => by cases h
  handling := fun _ h => by cases h
  quiet := fun _ h => by rcases h with h | h <;> cases h
  replies := fun _ _ h => by cases h
  once := List.nodup_nil

theorem busy_iff {exchanges : List Exchange} {c : ℕ} : busy exchanges c = true ↔
    ∃ (i : ℕ) (x : Exchange), exchanges[i]? = some x ∧ x.conn = c ∧ x.active = true := by
  unfold busy
  rw [List.any_eq_true]
  simp only [Bool.and_eq_true, decide_eq_true_eq]
  constructor
  · rintro ⟨x, hx, h⟩
    obtain ⟨i, hi⟩ := List.mem_iff_getElem?.1 hx
    exact ⟨i, x, hi, h⟩
  · rintro ⟨i, x, hi, h⟩
    exact ⟨x, List.mem_of_getElem? hi, h⟩

/-- A step of a call concerns its own connection only. -/
theorem busy_set {exchanges : List Exchange} {i c : ℕ} {x y : Exchange} (hx : exchanges[i]? = some x)
    (hy : y.conn = x.conn) (hc : c ≠ x.conn) : busy (exchanges.set i y) c = busy exchanges c := by
  have hi : i < exchanges.length := (List.getElem?_eq_some_iff.1 hx).1
  rw [Bool.eq_iff_iff, busy_iff, busy_iff]
  constructor
  · rintro ⟨j, z, hz, hzc, hza⟩
    by_cases hj : i = j
    · subst hj
      rw [List.getElem?_set_self hi, Option.some.injEq] at hz
      subst hz
      exact absurd (hzc.symm.trans hy) hc
    · rw [List.getElem?_set_ne hj] at hz
      exact ⟨j, z, hz, hzc, hza⟩
  · rintro ⟨j, z, hz, hzc, hza⟩
    have hj : i ≠ j := by
      rintro rfl
      rw [hx, Option.some.injEq] at hz
      subst hz
      exact hc hzc.symm
    exact ⟨j, z, by rw [List.getElem?_set_ne hj]; exact hz, hzc, hza⟩

theorem busy_append (exchanges new : List Exchange) (c : ℕ) :
    busy (exchanges ++ new) c = (busy exchanges c || busy new c) := List.any_append

/-- A call that takes a step has not returned, and has not been dropped. -/
theorem active_of_next {x y : Exchange} {b : ExchangeAct} (h : x.next H T b = some y) :
    x.active = true := by
  rcases Exchange.next_cases h with ⟨a, p, -, hd, hn, -⟩ | ⟨-, ha, -⟩
  · have hp : x.phase.isDone = false := by
      cases hx : x.phase with
      | done r =>
        rw [hx] at hn
        cases hn
      | _ => rfl
    unfold Exchange.active
    rw [hd, hp]
    rfl
  · exact ha

/-- A step of the daemon, by what it does to the connections: it leaves them, spawns one,
or moves one that is not busy with a call before and after it. -/
theorem conns_step {s s' : Server} {b : Server.Act} (hb : serves b = false) (h : s.step b = some s') :
    (s'.conns = s.conns) ∨ (∃ l, b = .listener l .spawn ∧ s'.conns = s.conns ++ [.spawned]) ∨
    ∃ c x y, s.conns[c]? = some x ∧ s'.conns = s.conns.set c y ∧ y ≠ .handling ∧
      (y = .spawned ∨ y = .idle → x = .spawned) := by
  rcases Server.step_cases h with ⟨addr, rest, -, -, -, rfl⟩ | ⟨a, m, -, -, rfl⟩ |
    ⟨l, a, ls, rfl, -, rfl⟩ | ⟨c, a, cs, rfl, hc, rfl⟩
  · exact Or.inl rfl
  · exact Or.inl rfl
  · cases a with
    | spawn => exact Or.inr (Or.inl ⟨l, rfl, rfl⟩)
    | accept | acceptFails | breakLoop | panic => exact Or.inl (List.append_nil _)
  · obtain ⟨x, y, hx, hy, rfl⟩ := move_some.1 hc
    refine Or.inr (Or.inr ⟨c, x, y, hx, rfl, ?_⟩)
    cases x with
    | spawned =>
      obtain ⟨rfl, rfl⟩ := of_guard hy
      exact ⟨by simp, fun _ => rfl⟩
    | idle => cases a <;> cases hy <;> simp [serves] at hb ⊢
    | handling => cases a <;> cases hy <;> simp [serves] at hb ⊢
    | served ok =>
      obtain ⟨rfl, rfl⟩ := of_guard hy
      simp
    | released =>
      obtain ⟨rfl, rfl⟩ := of_guard hy
      simp
    | closed => cases hy

/-- Calls belong to connections that are there. -/
theorem busy_lt (hg : g.Inv cfg) {c : ℕ} (h : busy g.exchanges c = true) : c < g.server.conns.length := by
  obtain ⟨i, x, hx, rfl, -⟩ := busy_iff.1 h
  obtain ⟨link, hl, -⟩ := hg.exchanges i x hx
  rw [← hg.links]
  exact (List.getElem?_eq_some_iff.1 hl).1

theorem calls_task (hg : g.Inv cfg) {b : Server.Act} {s : Server} (hb : serves b = false)
    (hs : g.server.step b = some s) :
    (∀ c, s.conns[c]? = some .handling → busy g.exchanges c = true) ∧
    ∀ c, s.conns[c]? = some .spawned ∨ s.conns[c]? = some .idle → busy g.exchanges c = false := by
  rcases conns_step hb hs with he | ⟨l, -, he⟩ | ⟨d, x, y, hx, he, hne, hxy⟩
  · rw [he]
    exact ⟨hg.handling, hg.quiet⟩
  · rw [he]
    constructor
    · intro c hc
      by_cases hlt : c < g.server.conns.length
      · rw [List.getElem?_append_left hlt] at hc
        exact hg.handling c hc
      · rw [List.getElem?_append_right (by omega)] at hc
        have hmem := List.mem_of_getElem? hc
        simp at hmem
    · intro c hc
      by_cases hlt : c < g.server.conns.length
      · rw [List.getElem?_append_left hlt] at hc
        exact hg.quiet c hc
      · -- the new connection has no call
        cases hbusy : busy g.exchanges c with
        | false => rfl
        | true => exact absurd (busy_lt hg hbusy) hlt
  · rw [he]
    have hd : d < g.server.conns.length := (List.getElem?_eq_some_iff.1 hx).1
    constructor
    · intro c hc
      by_cases hcd : d = c
      · subst hcd
        rw [List.getElem?_set_self hd, Option.some.injEq] at hc
        exact absurd hc hne
      · rw [List.getElem?_set_ne hcd] at hc
        exact hg.handling c hc
    · intro c hc
      by_cases hcd : d = c
      · subst hcd
        rw [List.getElem?_set_self hd, Option.some.injEq, Option.some.injEq] at hc
        rw [hxy hc] at hx
        exact hg.quiet d (Or.inl hx)
      · rw [List.getElem?_set_ne hcd] at hc
        exact hg.quiet c hc

/-- A step that hands nothing on. -/
theorem inv_same (hg : g.Inv cfg) {b : Server.Act} {s : Server} (hb : serves b = false)
    (hs : g.server.step b = some s) (hsame : g.handOn b = g) (htb : s.toBind = g.server.toBind)
    (hl : s.listeners.length = g.server.listeners.length)
    (hc : s.conns.length = g.server.conns.length) : Inv cfg { g.handOn b with server := s } := by
  rw [hsame]
  obtain ⟨hhandling, hquiet⟩ := calls_task hg hb hs
  exact { hg with
    server := Server.step_inv hg.server hs
    toBind := htb.trans hg.toBind
    listeners := hg.listeners.trans hl.symm
    links := hg.links.trans hc.symm
    handling := hhandling
    quiet := hquiet }

/-- A bind, with the next listener of the configuration. -/
theorem inv_bind (hg : g.Inv cfg) {s : Server} {addr : SocketAddr} {rest : List SocketAddr}
    (hs : g.server.step .bind = some s) (ht : g.server.toBind = addr :: rest)
    (he : s = { g.server with toBind := rest, listeners := g.server.listeners ++ [.select] }) :
    Inv cfg { g.handOn .bind with server := s } := by
  obtain ⟨hhandling, hquiet⟩ := calls_task hg rfl hs
  have hmap := hg.toBind
  rw [ht] at hmap
  obtain ⟨β, βs, hβ, -, hrest⟩ := List.map_eq_cons_iff.1 hmap.symm
  have hhand : g.handOn .bind = { g with toBind := βs, bindings := g.bindings ++ [β] } := by
    simp [handOn, hβ]
  have hcfg := hg.bindings
  rw [hβ] at hcfg
  have hinv := Server.step_inv hg.server hs
  rw [hhand]
  subst he
  exact { hg with
    server := hinv
    bindings := by rw [← hcfg, List.append_assoc]; rfl
    toBind := hrest.symm
    listeners := by simp [hg.listeners]
    linked := by
      intro c link hc
      have hold := hg.linked c link hc
      rw [List.getElem?_append_left (List.getElem?_eq_some_iff.1 hold).1]
      exact hold
    handling := hhandling
    quiet := hquiet }

/-- A connection is handed on to its task, with what its listener owns. -/
theorem inv_spawn (hg : g.Inv cfg) {s : Server} {l : ℕ} {ls : List Listener}
    (hs : g.server.step (.listener l .spawn) = some s)
    (hl : move (Listener.next g.server.shutdown .spawn) l g.server.listeners = some ls)
    (he : s = { g.server with listeners := ls, conns := g.server.conns ++ [.spawned] }) :
    Inv cfg { g.handOn (.listener l .spawn) with server := s } := by
  obtain ⟨hhandling, hquiet⟩ := calls_task hg rfl hs
  have hlen := length_move hl
  obtain ⟨x, y, hx, -, -⟩ := move_some.1 hl
  have hlt : l < g.bindings.length := by
    rw [hg.listeners]
    exact (List.getElem?_eq_some_iff.1 hx).1
  have hhand : g.handOn (.listener l .spawn) = { g with links := g.links ++ [⟨l, g.bindings[l]⟩] } := by
    simp [handOn, List.getElem?_eq_getElem hlt]
  have hinv := Server.step_inv hg.server hs
  rw [hhand]
  subst he
  exact { hg with
    server := hinv
    listeners := hg.listeners.trans hlen.symm
    links := by simp [hg.links]
    linked := by
      intro c link hc
      by_cases hclt : c < g.links.length
      · rw [List.getElem?_append_left hclt] at hc
        exact hg.linked c link hc
      · rw [List.getElem?_append_right (by omega)] at hc
        have hmem : link = ⟨l, g.bindings[l]⟩ := List.mem_singleton.1 (List.mem_of_getElem? hc)
        rw [hmem]
        exact List.getElem?_eq_getElem hlt
    exchanges := by
      intro i x hx
      obtain ⟨link, hl, hup⟩ := hg.exchanges i x hx
      refine ⟨link, ?_, hup⟩
      rw [List.getElem?_append_left (List.getElem?_eq_some_iff.1 hl).1]
      exact hl
    handling := hhandling
    quiet := hquiet }

theorem inv_task (hg : g.Inv cfg) {b : Server.Act} {s : Server} (hb : serves b = false)
    (hs : g.server.step b = some s) : Inv cfg { g.handOn b with server := s } := by
  rcases Server.step_cases hs with ⟨addr, rest, rfl, -, ht, he⟩ | ⟨a, m, rfl, -, he⟩ |
    ⟨l, a, ls, rfl, hl, he⟩ | ⟨c, a, cs, rfl, hc, he⟩
  · exact inv_bind hg hs ht he
  · exact inv_same hg hb hs rfl (by rw [he]) (by rw [he]) (by rw [he])
  · cases a with
    | spawn => exact inv_spawn hg hs hl he
    | accept | acceptFails | breakLoop | panic =>
      exact inv_same hg hb hs rfl (by rw [he]) (by rw [he]; exact length_move hl)
        (by rw [he]; simp [ListenerAct.spawned])
  · exact inv_same hg hb hs rfl (by rw [he]) (by rw [he]) (by rw [he]; exact length_move hc)

/-- A request of a connection that is served. -/
theorem inv_request (hg : g.Inv cfg) {c : ℕ} {parts : Parts} {link : Link}
    (hl : g.links[c]? = some link)
    (hc : g.server.conns[c]? = some .idle ∨ g.server.conns[c]? = some .handling) :
    Inv cfg { g with server := { g.server with conns := g.server.conns.set c .handling }
                     exchanges := g.exchanges ++ [.start c link.binding.upstream parts] } := by
  have hlt : c < g.server.conns.length := by
    rw [← hg.links]
    exact (List.getElem?_eq_some_iff.1 hl).1
  have hinv : Server.Inv { g.server with conns := g.server.conns.set c .handling } := by
    rcases hc with hc | hc
    · exact Server.step_inv hg.server (step_request hc)
    · rw [set_self hc]
      exact hg.server
  have hnew : ∀ d, busy [.start c link.binding.upstream parts] d = decide (c = d) := by
    intro d
    simp [busy, Exchange.start, Exchange.active, Phase.isDone]
  exact { hg with
    server := hinv
    links := by simp [hg.links]
    exchanges := by
      intro i x hx
      by_cases hi : i < g.exchanges.length
      · rw [List.getElem?_append_left hi] at hx
        exact hg.exchanges i x hx
      · rw [List.getElem?_append_right (by omega)] at hx
        have hmem := List.mem_singleton.1 (List.mem_of_getElem? hx)
        rw [hmem]
        exact ⟨link, hl, rfl⟩
    handling := by
      intro d hd
      rw [busy_append, hnew]
      by_cases hcd : c = d
      · simp [hcd]
      · simp only [List.getElem?_set_ne hcd] at hd
        rw [hg.handling d hd]
        rfl
    quiet := by
      intro d hd
      rw [busy_append, hnew]
      by_cases hcd : c = d
      · subst hcd
        simp only [List.getElem?_set_self hlt] at hd
        rcases hd with hd | hd <;> cases hd
      · simp only [List.getElem?_set_ne hcd] at hd
        rw [hg.quiet d hd]
        simp [hcd]
    replies := by
      intro i resp hr
      obtain ⟨x, result, hx, h⟩ := hg.replies i resp hr
      refine ⟨x, result, ?_, h⟩
      rw [List.getElem?_append_left (List.getElem?_eq_some_iff.1 hx).1]
      exact hx }

theorem mem_replyOf {s : Server} {i j : ℕ} {y : Exchange} {resp : Response}
    (h : (j, resp) ∈ replyOf s i y) : j = i ∧ s.conns[y.conn]? = some .handling ∧
      y.dropped = false ∧ ∃ result, y.phase = .done result ∧ resp = respond result := by
  unfold replyOf at h
  split at h
  · rename_i result hp
    split at h
    · rename_i hc
      cases List.mem_singleton.1 h
      exact ⟨rfl, hc.2, hc.1, result, hp, rfl⟩
    · cases h
  · cases h

/-- What `settle` leaves of the daemon, besides the state of the connection. -/
theorem settle_fixed (s : Server) (exchanges : List Exchange) (c : ℕ) :
    (settle s exchanges c).toBind = s.toBind ∧ (settle s exchanges c).listeners = s.listeners ∧
      (settle s exchanges c).conns.length = s.conns.length ∧
      ∀ d, d ≠ c → (settle s exchanges c).conns[d]? = s.conns[d]? := by
  rcases settle_cases s exchanges c with ⟨-, -, he⟩ | ⟨-, he⟩
  · rw [he]
    exact ⟨rfl, rfl, List.length_set, fun d hd => List.getElem?_set_ne (Ne.symm hd)⟩
  · rw [he]
    exact ⟨rfl, rfl, rfl, fun _ _ => rfl⟩

/-- The calls of a connection, after a step of one of them. -/
theorem calls_exchange (hg : g.Inv cfg) {i : ℕ} {x y : Exchange} {b : ExchangeAct}
    (hx : g.exchanges[i]? = some x) (hy : x.next H T b = some y) :
    (∀ c, (settle g.server (g.exchanges.set i y) y.conn).conns[c]? = some .handling →
      busy (g.exchanges.set i y) c = true) ∧
    ∀ c, (settle g.server (g.exchanges.set i y) y.conn).conns[c]? = some .spawned ∨
      (settle g.server (g.exchanges.set i y) y.conn).conns[c]? = some .idle →
      busy (g.exchanges.set i y) c = false := by
  have hconn : y.conn = x.conn := (Exchange.next_fixed hy).1
  obtain ⟨-, -, -, hother⟩ := settle_fixed g.server (g.exchanges.set i y) y.conn
  -- the connection of the call was busy, with this call
  have hbusy : busy g.exchanges y.conn = true := busy_iff.2 ⟨i, x, hx, hconn.symm, active_of_next hy⟩
  constructor
  · intro c hc
    by_cases hcy : c = y.conn
    · subst hcy
      rcases settle_cases g.server (g.exchanges.set i y) y.conn with ⟨hh, -, he⟩ | ⟨hset, he⟩
      · have hlt := (List.getElem?_eq_some_iff.1 hh).1
        rw [he] at hc
        simp only [List.getElem?_set_self hlt, Option.some.injEq, reduceCtorEq] at hc
      · rw [he] at hc
        exact hset hc
    · rw [hother c hcy] at hc
      rw [busy_set hx hconn (hconn ▸ hcy)]
      exact hg.handling c hc
  · intro c hc
    by_cases hcy : c = y.conn
    · subst hcy
      rcases settle_cases g.server (g.exchanges.set i y) y.conn with ⟨-, hset, -⟩ | ⟨-, he⟩
      · exact hset
      · rw [he] at hc
        rw [hg.quiet _ hc] at hbusy
        cases hbusy
    · rw [hother c hcy] at hc
      rw [busy_set hx hconn (hconn ▸ hcy)]
      exact hg.quiet c hc

/-- A step of a call. -/
theorem inv_exchange (hg : g.Inv cfg) {i : ℕ} {x y : Exchange} {b : ExchangeAct}
    (hx : g.exchanges[i]? = some x) (hy : x.next H T b = some y) :
    Inv cfg { g with server := settle g.server (g.exchanges.set i y) y.conn
                     exchanges := g.exchanges.set i y
                     replies := g.replies ++ replyOf g.server i y } := by
  have hi : i < g.exchanges.length := (List.getElem?_eq_some_iff.1 hx).1
  obtain ⟨hconn, hup, -⟩ := Exchange.next_fixed hy
  obtain ⟨htb, hls, hlen, -⟩ := settle_fixed g.server (g.exchanges.set i y) y.conn
  obtain ⟨hhandling, hquiet⟩ := calls_exchange hg hx hy
  have hinv : Server.Inv (settle g.server (g.exchanges.set i y) y.conn) := by
    rcases settle_cases g.server (g.exchanges.set i y) y.conn with ⟨hc, -, he⟩ | ⟨-, he⟩
    · rw [he]
      exact Server.step_inv hg.server (step_respond hc)
    · rw [he]
      exact hg.server
  -- a call that is active has not replied
  have hnew : ∀ resp, (i, resp) ∉ g.replies := by
    intro resp hr
    obtain ⟨z, result, hz, hp, -, -⟩ := hg.replies i resp hr
    rw [hx, Option.some.injEq] at hz
    subst hz
    have hact := active_of_next hy
    simp [Exchange.active, hp, Phase.isDone] at hact
  exact { hg with
    server := hinv
    toBind := htb.trans hg.toBind
    listeners := hg.listeners.trans (congrArg List.length hls).symm
    links := hg.links.trans hlen.symm
    exchanges := by
      intro j z hz
      by_cases hj : i = j
      · subst hj
        rw [List.getElem?_set_self hi, Option.some.injEq] at hz
        subst hz
        rw [hconn, hup]
        exact hg.exchanges i x hx
      · rw [List.getElem?_set_ne hj] at hz
        exact hg.exchanges j z hz
    handling := hhandling
    quiet := hquiet
    replies := by
      intro j resp hr
      rcases List.mem_append.1 hr with hr | hr
      · obtain ⟨z, result, hz, h⟩ := hg.replies j resp hr
        have hj : i ≠ j := by
          rintro rfl
          exact hnew resp hr
        exact ⟨z, result, by rw [List.getElem?_set_ne hj]; exact hz, h⟩
      · obtain ⟨rfl, -, hd, result, hp, he⟩ := mem_replyOf hr
        exact ⟨y, result, List.getElem?_set_self hi, hp, hd, he⟩
    once := by
      rw [List.map_append, List.nodup_append]
      refine ⟨hg.once, ?_, ?_⟩
      · unfold replyOf
        split
        · split <;> simp
        · simp
      · rintro j hj _ hk rfl
        obtain ⟨⟨_, resp⟩, hr, rfl⟩ := List.mem_map.1 hj
        obtain ⟨⟨_, resp'⟩, hr', hij⟩ := List.mem_map.1 hk
        obtain ⟨rfl, -⟩ := mem_replyOf hr'
        simp only at hij
        exact hnew resp (hij ▸ hr) }

/-- **Every step keeps the invariant.** -/
theorem step_inv (hg : g.Inv cfg) (h : g.step H T a = some g') : g'.Inv cfg := by
  rcases step_cases h with ⟨b, s, -, hb, hs, rfl⟩ | ⟨c, parts, link, -, hl, hc, rfl⟩ |
    ⟨i, b, x, y, -, hx, hy, rfl⟩
  · exact inv_task hg hb hs
  · exact inv_request hg hl hc
  · exact inv_exchange hg hx hy

/-- **Every reachable state meets the invariant.** -/
theorem exec_inv_init {as : List Act} (h : exec (step H T) (init cfg) as = some g) : g.Inv cfg :=
  exec_inv_all (fun _ _ _ => step_inv) (inv_init cfg) h

end Gateway

end Retrotls
