import Retrotls.Lib.Prog
import Retrotls.Spec.Forward
import Retrotls.Spec.ProxyRs

/-!
# `handle_request` of `proxy.rs`

One request, from what the client sends to what it gets back. Bodies are passed on unread.
The outside answers through `Outside`: the client, and the `build_upstream_url` with three
arguments that `handle_request` calls (the one of `http.rs` has two). The builders of the
http crate are given values of its own types, so the branches on their errors are left
out, and so are the warnings.
-/

namespace Retrotls.ProxyRs

/-- `http::Request`, with a body of any type. -/
structure Request (β : Type) where
  method : Str
  uri : Uri
  version : Version
  headers : Headers
  body : β
  deriving DecidableEq

/-- `http::Response`. -/
structure Response (β : Type) where
  status : ℕ
  version : Version
  headers : Headers
  body : β
  deriving DecidableEq

/-- `BoxBody`: a body from the upstream, or a text of the proxy's own. -/
inductive BoxBody (β : Type)
  | incoming (body : β)
  | full (message : Str)
  deriving DecidableEq

/-- What waiting for the upstream gives. -/
inductive Answer (β : Type)
  | response (resp : Response β)
  /-- The client's error, and whether it is a timeout. -/
  | failed (isTimeout : Bool)
  /-- `request_timeout_ms` has passed. -/
  | elapsed

/-- The fields of the line `proxy access`. -/
structure AccessEvent where
  clientAddr : SocketAddr
  bindAddr : SocketAddr
  upstream : Str
  method : Str
  path : Str
  status : ℕ
  latencyMs : ℕ
  deriving DecidableEq

/-- What the outside answers. -/
structure Outside (β : Type) where
  /-- `build_upstream_url`, of an upstream, a path and a query. -/
  buildUpstreamUrl : Str → Str → Option Str → Option Uri
  /-- `Client::request`, within the timeout. -/
  request : Request β → Answer β
  latencyMs : ℕ

/-- What the proxy has done: the requests it gave to its client, and its access log. -/
structure World (β : Type) where
  requested : List (Request β)
  accesses : List AccessEvent

variable {β : Type} (H : HttpCrate)

/-- `error_response`. -/
def errorResponse (status : ℕ) (message : Str) : Response (BoxBody β) where
  status := status
  version := .http11
  headers := []
  body := .full message

/-- `map_upstream_client_error`. -/
def mapUpstreamClientError (isTimeout : Bool) : Response (BoxBody β) :=
  if isTimeout then errorResponse 504 "gateway timeout".toList
  else errorResponse 502 "bad gateway".toList

/-- `Proxy::handle_request`. -/
def handleRequest (O : Outside β) (req : Request β) (clientAddr bindAddr : SocketAddr)
    (upstream : Str) : Prog (World β) AppError (Response (BoxBody β)) := do
  let path := req.uri.path
  match O.buildUpstreamUrl upstream path req.uri.query with
  | none => pure (errorResponse 400 "bad request".toList)
  | some upstreamUri =>
    let headers ← Prog.ofExcept (copyRequestHeaders H [] req.headers upstream)
    let headers ← Prog.ofExcept (applyForwardingHeaders H headers req.headers clientAddr bindAddr)
    let upstreamReq : Request β := { req with uri := upstreamUri, headers := headers }
    Prog.modify fun w => { w with requested := w.requested ++ [upstreamReq] }
    match O.request upstreamReq with
    | .failed isTimeout => pure (mapUpstreamClientError isTimeout)
    | .elapsed => pure (errorResponse 504 "gateway timeout".toList)
    | .response upstreamRes => do
      let response : Response (BoxBody β) := {
        status := upstreamRes.status
        version := upstreamRes.version
        headers := copyResponseHeaders [] upstreamRes.headers
        body := .incoming upstreamRes.body }
      -- the returns above log no access
      Prog.modify fun w => { w with accesses := w.accesses ++
        [⟨clientAddr, bindAddr, upstream, req.method, path, response.status, O.latencyMs⟩] }
      pure response

end Retrotls.ProxyRs
