import Retrotls.Spec.Config
import Retrotls.Lib.Multimap

/-!
# Forwarding one request

`build_target_uri`, `Proxy::forward` and `Proxy::handle` of `main.rs`. The outside
answers through `Net`, and `Rustls` is what the TLS crates say about names. Logging is
left out.
-/

namespace Retrotls

/-- `http::HeaderMap`: names are lower case. -/
abbrev HeaderMap := Multimap Str HeaderValue

abbrev Bytes := List UInt8

/-- `http::Version`. -/
inductive Version
  | http10
  | http11
  | http2
  deriving DecidableEq

/-- A request. Its body is absent where reading it failed. -/
structure Request where
  method : Str
  uri : Uri
  version : Version
  headers : HeaderMap
  body : Option Bytes
  deriving DecidableEq

/-- A response. Its body is absent where reading it failed. -/
structure Response where
  status : ℕ
  headers : HeaderMap
  body : Option Bytes
  deriving DecidableEq

/-- Where `Proxy::forward` can fail. -/
inductive ForwardError
  | requestBody
  | connect
  | serverName
  | tlsConnect
  | handshake
  | hostHeader
  | sendRequest
  | responseBody
  deriving DecidableEq

/-- What the outside answers to one forwarded request. -/
structure Net where
  /-- `TcpStream::connect`, to a host and a port. -/
  connect : Str → ℕ → Bool
  /-- The TLS handshake, for a server name. -/
  tlsConnect : Str → Bool
  /-- The HTTP/1 client handshake. -/
  handshake : Bool
  /-- `send_request`. -/
  sendRequest : Request → Option Response

/-- Names, as the TLS crates and the resolver read them. -/
structure Rustls where
  dnsName : Str → Bool
  ipv4 : Str → Bool
  ipv6 : Str → Bool
  /-- `ServerName::try_from`. -/
  serverName : Str → Bool

/-- **What is documented about names.** -/
structure Rustls.Documented (T : Rustls) : Prop where
  server_name : ∀ s, T.serverName s = (T.dnsName s || T.ipv4 s || T.ipv6 s)
  dns_nonempty : T.dnsName [] = false
  ipv4_nonempty : T.ipv4 [] = false
  ipv6_chars : ∀ s, T.ipv6 s = true → ':' ∈ s ∧ '[' ∉ s

variable (H : HttpCrate) (T : Rustls)

/-- The builder of `build_target_uri`, before its fallback. -/
def targetBuilder (up : Upstream) (pq : Option PathAndQuery) : UriBuilder :=
  (((UriBuilder.new.scheme H https).authority H up.authority).pathAndQuery H
    ((pq.map PathAndQuery.asStr).getD ['/']))

/-- The `https://invalid.local/` that `build_target_uri` falls back to. -/
def invalidLocal : Uri := ⟨some https, some ⟨"invalid.local".toList⟩, ⟨['/']⟩⟩

/-- `build_target_uri`. -/
def buildTargetUri (up : Upstream) (pq : Option PathAndQuery) : Uri :=
  (targetBuilder H up pq).build.getD invalidLocal

/-- The request that `Proxy::forward` sends. -/
def outbound (req : Request) (body : Bytes) (up : Upstream) : Except ForwardError Request :=
  match H.parseHeaderValue up.authority with
  | none => .error .hostHeader
  | some host => .ok {
      method := req.method
      uri := buildTargetUri H up req.uri.pathAndQuery
      version := req.version
      headers := req.headers.insert "host".toList host
      body := some body }

/-- `Proxy::forward`. -/
def forward (net : Net) (req : Request) (up : Upstream) : Except ForwardError Response :=
  match req.body with
  | none => .error .requestBody
  | some body =>
    -- the connection is made before the name is looked at
    if !net.connect up.host up.port then .error .connect
    else if !T.serverName up.host then .error .serverName
    else if !net.tlsConnect up.host then .error .tlsConnect
    else if !net.handshake then .error .handshake
    else
      match outbound H req body up with
      | .error err => .error err
      | .ok out =>
        match net.sendRequest out with
        | none => .error .sendRequest
        | some resp => if resp.body.isNone then .error .responseBody else .ok resp

/-- `simple_response`. -/
def simpleResponse (status : ℕ) (message : Str) : Response where
  status := status
  headers := []
  body := some (String.toUTF8 (
    if status = 502 then "Bad Gateway"
    else if status = 503 then "Service Unavailable"
    else if status = 405 then "Method Not Allowed"
    else String.ofList message)).toList

/-- `Proxy::handle`. -/
def handle (net : Net) (req : Request) (up : Upstream) : Response :=
  let response := match forward H T net req up with
    | .ok resp => resp
    | .error _ => simpleResponse 502 "Bad Gateway".toList
  -- the header is removed only where there is none
  if (response.headers.get "connection".toList).isNone then
    { response with headers := response.headers.remove "connection".toList }
  else response

end Retrotls
