import Retrotls.Spec.Forward

/-!
# Forwarding one request, step by step

`Proxy::forward` and `Proxy::handle` of `main.rs` again, as a task that stops at every
`.await` until the outside answers. `forward` (`Spec/Forward`) is told all answers in
advance; an `Exchange` gets them one by one, and keeps what it has done to the outside.
Logging is left out.
-/

namespace Retrotls

/-- `http::request::Parts`. -/
structure Parts where
  method : Str
  uri : Uri
  version : Version
  headers : HeaderMap
  deriving DecidableEq

/-- The request with these parts, and with what reading its body gives. -/
def Parts.request (parts : Parts) (body : Option Bytes) : Request where
  method := parts.method
  uri := parts.uri
  version := parts.version
  headers := parts.headers
  body := body

/-- `http::response::Parts`. -/
structure ResponseParts where
  status : ℕ
  headers : HeaderMap
  deriving DecidableEq

/-- The response with these parts, and with what reading its body gives. -/
def ResponseParts.response (parts : ResponseParts) (body : Option Bytes) : Response where
  status := parts.status
  headers := parts.headers
  body := body

def Response.parts (resp : Response) : ResponseParts where
  status := resp.status
  headers := resp.headers

/-- What `Proxy::forward` waits for. -/
inductive Phase
  /-- `body.collect()`. -/
  | requestBody (parts : Parts)
  /-- `TcpStream::connect`. -/
  | connecting (parts : Parts) (body : Bytes)
  /-- The TLS handshake. -/
  | tlsConnecting (parts : Parts) (body : Bytes)
  /-- The HTTP/1 client handshake. -/
  | handshaking (parts : Parts) (body : Bytes)
  /-- `sender.send_request(out)`. -/
  | sending (out : Request)
  /-- `resp_body.collect()`. -/
  | responseBody (resp : ResponseParts)
  /-- It has returned. -/
  | done (result : Except ForwardError Response)
  deriving DecidableEq

/-- What the outside answers. -/
inductive Answer
  | requestBody (body : Option Bytes)
  | connect (ok : Bool)
  | tlsConnect (ok : Bool)
  | handshake (ok : Bool)
  | response (resp : Option ResponseParts)
  | responseBody (body : Option Bytes)
  deriving DecidableEq

/-- What the outside sees of it. -/
inductive Wire
  | connect (host : Str) (port : ℕ)
  /-- A TLS handshake, for a server name. -/
  | clientHello (serverName : Str)
  | send (out : Request)
  deriving DecidableEq

variable (H : HttpCrate) (T : Rustls)

/-- `Proxy::forward`, from one `.await` to the next. -/
def Phase.next (up : Upstream) : Phase → Answer → Option Phase
  | .requestBody parts, .requestBody body =>
    match body with
    | none => some (.done (.error .requestBody))
    | some bytes => some (.connecting parts bytes)
  | .connecting parts body, .connect ok =>
    if !ok then some (.done (.error .connect))
    -- the connection is made before the name is looked at
    else if !T.serverName up.host then some (.done (.error .serverName))
    else some (.tlsConnecting parts body)
  | .tlsConnecting parts body, .tlsConnect ok =>
    if !ok then some (.done (.error .tlsConnect)) else some (.handshaking parts body)
  | .handshaking parts body, .handshake ok =>
    if !ok then some (.done (.error .handshake))
    else
      match outbound H (parts.request (some body)) body up with
      | .error err => some (.done (.error err))
      | .ok out => some (.sending out)
  | .sending _, .response resp =>
    match resp with
    | none => some (.done (.error .sendRequest))
    | some resp => some (.responseBody resp)
  | .responseBody resp, .responseBody body =>
    match body with
    | none => some (.done (.error .responseBody))
    | some bytes => some (.done (.ok (resp.response (some bytes))))
  | _, _ => none

/-- What the outside sees when a phase begins. -/
def Phase.begins (up : Upstream) : Phase → List Wire
  | .connecting _ _ => [.connect up.host up.port]
  | .tlsConnecting _ _ => [.clientHello up.host]
  | .sending out => [.send out]
  | _ => []

def Phase.isDone : Phase → Bool
  | .done _ => true
  | _ => false

/-- One call of `Proxy::handle`. -/
structure Exchange where
  /-- The connection that the request came on. -/
  conn : ℕ
  upstream : Upstream
  parts : Parts
  phase : Phase
  wire : List Wire
  /-- The call has been dropped, before its end. -/
  dropped : Bool
  deriving DecidableEq

inductive ExchangeAct
  | answer (a : Answer)
  /-- `serve_connection` drops the call: its client is gone. -/
  | drop
  deriving DecidableEq

namespace Exchange

/-- A request has come. -/
def start (conn : ℕ) (up : Upstream) (parts : Parts) : Exchange where
  conn := conn
  upstream := up
  parts := parts
  phase := .requestBody parts
  wire := []
  dropped := false

/-- It has neither returned nor been dropped. -/
def active (x : Exchange) : Bool := !x.dropped && !x.phase.isDone

def next (x : Exchange) : ExchangeAct → Option Exchange
  | .answer a =>
    if x.dropped then none
    else (x.phase.next H T x.upstream a).map fun p =>
      { x with phase := p, wire := x.wire ++ p.begins x.upstream }
  | .drop => if x.active then some { x with dropped := true } else none

end Exchange

/-- `Proxy::handle`, after `forward`. -/
def respond (result : Except ForwardError Response) : Response :=
  let response := match result with
    | .ok resp => resp
    | .error _ => simpleResponse 502 "Bad Gateway".toList
  if (response.headers.get "connection".toList).isNone then
    { response with headers := response.headers.remove "connection".toList }
  else response

/-- The answers that `net` gives to a call, in their order. -/
def Net.answers (net : Net) (parts : Parts) (body : Option Bytes) (up : Upstream) : List Answer :=
  .requestBody body ::
    match body with
    | none => []
    | some bytes => .connect (net.connect up.host up.port) ::
      if !net.connect up.host up.port || !T.serverName up.host then []
      else .tlsConnect (net.tlsConnect up.host) ::
        if !net.tlsConnect up.host then []
        else .handshake net.handshake ::
          if !net.handshake then []
          else
            match outbound H (parts.request (some bytes)) bytes up with
            | .error _ => []
            | .ok out => .response ((net.sendRequest out).map Response.parts) ::
              match net.sendRequest out with
              | none => []
              | some resp => [.responseBody resp.body]

end Retrotls
