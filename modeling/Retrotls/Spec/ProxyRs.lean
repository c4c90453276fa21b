import Retrotls.Spec.ConfigRs
import Retrotls.Spec.Headers

/-!
# `proxy.rs`: the headers

The functions of `proxy.rs` on headers, and the part of `handle_request` that calls them
for a request.
-/

namespace Retrotls

/-- `Display` of `SocketAddr::ip`. -/
def SocketAddr.ipText : SocketAddr → Str
  | v4 ip _ => ipv4Text ip.toNat
  | v6 ip _ _ _ => ipv6Text ip.toNat

namespace ProxyRs

open ConfigRs (AppError)

/-- `is_hop_by_hop`: a match on the lower case, and comparisons with six constants. -/
def isHopByHop (name : Str) : Bool :=
  (toAsciiLowercase name ∈ ["connection", "keep-alive", "proxy-authenticate",
    "proxy-authorization", "te", "trailer", "transfer-encoding", "upgrade"].map String.toList) ||
  eqIgnoreAsciiCase name "proxy-authenticate".toList ||
  eqIgnoreAsciiCase name "proxy-authorization".toList ||
  eqIgnoreAsciiCase name "te".toList ||
  eqIgnoreAsciiCase name "trailer".toList ||
  eqIgnoreAsciiCase name "transfer-encoding".toList ||
  eqIgnoreAsciiCase name "upgrade".toList

/-- `connection_header_tokens`. -/
def connectionHeaderTokens (header : Option HeaderValue) : List Str :=
  match header with
  | none => []
  | some value =>
    match value.toStr with
    | none => []
    | some text =>
      ((text.splitOn ',').map fun token => toAsciiLowercase (trim token)).filter fun token => token ≠ []

variable (H : HttpCrate)

/-- `copy_request_headers`. -/
def copyRequestHeaders (dst src : Headers) (upstream : Str) : Except AppError Headers :=
  let dst := Multimap.copyUnless (fun name => isHopByHop name.asStr) dst src
  let host := match H.parseUri upstream with
    | some uri => (uri.authority.map Authority.text).getD upstream
    | none => upstream
  match H.parseHeaderValue host with
  | some hostHeader => .ok (Multimap.insert dst .host hostHeader)
  | none => .ok dst

/-- The text that `append_csv_header_value` builds. A value that is no text is left out. -/
def appendCsv (existing : Option HeaderValue) (value : Str) : Str :=
  let out := (existing.bind HeaderValue.toStr).getD []
  if out ≠ [] then out ++ ", ".toList ++ value else out ++ value

/-- `append_csv_header_value`. -/
def appendCsvHeaderValue (existing : Option HeaderValue) (value : Str) : HeaderValue :=
  (H.parseHeaderValue (appendCsv existing value)).getD (HeaderValue.fromStatic "unknown".toList)

/-- `apply_forwarding_headers`. -/
def applyForwardingHeaders (dst src : Headers) (clientAddr bindAddr : SocketAddr) :
    Except AppError Headers :=
  let forwardedFor := appendCsvHeaderValue H (Multimap.get src .xForwardedFor) clientAddr.ipText
  let forwardedProto := HeaderValue.fromStatic "http".toList
  let forwardedHost := (Multimap.get src .host).getD
    ((H.parseHeaderValue bindAddr.display).getD (HeaderValue.fromStatic "unknown".toList))
  let dst := Multimap.insert dst .xForwardedFor forwardedFor
  let dst := Multimap.insert dst .xForwardedProto forwardedProto
  .ok (Multimap.insert dst .xForwardedHost forwardedHost)

/-- The headers of the request that `handle_request` sends. -/
def requestHeaders (src : Headers) (clientAddr bindAddr : SocketAddr) (upstream : Str) :
    Except AppError Headers := do
  let headers ← copyRequestHeaders H [] src upstream
  applyForwardingHeaders H headers src clientAddr bindAddr

/-- `copy_response_headers`. -/
def copyResponseHeaders (dst src : Headers) : Headers :=
  let connectionTokens := connectionHeaderTokens (Multimap.get src .connection)
  Multimap.copyUnless (fun name =>
    let lower := toAsciiLowercase name.asStr
    isHopByHop lower || lower ∈ connectionTokens) dst src

end ProxyRs

end Retrotls
