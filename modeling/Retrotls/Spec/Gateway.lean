import Retrotls.Spec.Exchange
import Retrotls.Spec.Server

/-!
# The daemon with its requests

The tasks of `Spec/Server`, with what `spawn_listener` and `serve_connection` hand on: each
listener task owns its address and its upstream, each connection task gets a clone of both,
and each request of a connection is a call of `Proxy::handle` with a clone of the upstream
(`Spec/Exchange`). All tasks and calls take their steps in any order.

* A connection can have many calls at a time (HTTP/2), or one after the other.
* `serve_connection` can drop a call at any time. A call may outlive its connection (HTTP/2
  runs each call in a task of its own), but its response then reaches nobody.
-/

namespace Retrotls

/-- What a listener task owns. -/
structure Binding where
  addr : SocketAddr
  upstream : Upstream
  deriving DecidableEq

/-- What a connection task is given by the listener that has accepted it. -/
structure Link where
  listener : ℕ
  binding : Binding
  deriving DecidableEq

/-- The daemon with its requests. -/
structure Gateway where
  server : Server
  /-- The listeners that are not bound yet. -/
  toBind : List Binding
  /-- What the listener tasks own, in the order of the binds. -/
  bindings : List Binding
  /-- What the connection tasks have been given. -/
  links : List Link
  exchanges : List Exchange
  /-- The responses that have been given to clients, with the calls they come from. -/
  replies : List (ℕ × Response)
  deriving DecidableEq

namespace Gateway

inductive Act
  /-- A step of `run`, a listener or a connection, other than a request or a response. -/
  | task (a : Server.Act)
  /-- `serve_connection` calls the service. -/
  | request (c : ℕ) (parts : Parts)
  | exchange (i : ℕ) (b : ExchangeAct)
  deriving DecidableEq

/-- The step is left to the calls of `Proxy::handle`. -/
def serves : Server.Act → Bool
  | .conn _ .request => true
  | .conn _ .respond => true
  | _ => false

/-- `run` before its first bind, for the listeners of its configuration. -/
def init (cfg : List Binding) : Gateway where
  server := Server.init (cfg.map Binding.addr)
  toBind := cfg
  bindings := []
  links := []
  exchanges := []
  replies := []

/-- What a step of a task hands on. -/
def handOn (g : Gateway) : Server.Act → Gateway
  | .bind => { g with toBind := g.toBind.tail, bindings := g.bindings ++ g.toBind.head?.toList }
  | .listener l .spawn => { g with links := g.links ++ (g.bindings[l]?.map (Link.mk l)).toList }
  | _ => g

/-- Some call of connection `c` is active. -/
def busy (exchanges : List Exchange) (c : ℕ) : Bool :=
  exchanges.any fun x => x.conn = c && x.active

/-- The connection, after a call of it is over: it waits for a request if no other call is
active. -/
def settle (s : Server) (exchanges : List Exchange) (c : ℕ) : Server :=
  if s.conns[c]? = some .handling ∧ busy exchanges c = false then
    (s.step (.conn c .respond)).getD s
  else s

/-- The response of call `i`, if it has returned and its connection is still served. -/
def replyOf (s : Server) (i : ℕ) (x : Exchange) : List (ℕ × Response) :=
  match x.phase with
  | .done result =>
    if x.dropped = false ∧ s.conns[x.conn]? = some .handling then [(i, respond result)] else []
  | _ => []

variable (H : HttpCrate) (T : Rustls)

/-- One step of one task or of one call. -/
def step (g : Gateway) : Act → Option Gateway
  | .task a =>
    if serves a then none
    else (g.server.step a).map fun s => { g.handOn a with server := s }
  | .request c parts =>
    match g.links[c]?, g.server.conns[c]? with
    | some link, some .idle =>
      (g.server.step (.conn c .request)).map fun s =>
        { g with server := s
                 exchanges := g.exchanges ++ [.start c link.binding.upstream parts] }
    | some link, some .handling =>
      some { g with exchanges := g.exchanges ++ [.start c link.binding.upstream parts] }
    | _, _ => none
  | .exchange i b =>
    g.exchanges[i]?.bind fun x => (x.next H T b).map fun y =>
      { g with server := settle g.server (g.exchanges.set i y) y.conn
               exchanges := g.exchanges.set i y
               replies := g.replies ++ replyOf g.server i y }

end Gateway

end Retrotls
