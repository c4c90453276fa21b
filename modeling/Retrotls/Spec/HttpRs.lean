import Retrotls.Spec.Headers

/-!
# `http.rs`

The header functions of `http.rs`, and `build_upstream_url` with `split_path_and_query`
and `join_paths`. Which of the crate's errors is returned is left out.
-/

namespace Retrotls.HttpRs

/-! ## Headers -/

/-- `HOP_BY_HOP_HEADERS`. -/
def hopByHopHeaders : List Str :=
  ["connection", "proxy-connection", "keep-alive", "te", "trailer", "transfer-encoding",
    "upgrade"].map String.toList

/-- `is_hop_by_hop_header`. -/
def isHopByHopHeader (name : Str) : Bool :=
  hopByHopHeaders.any fun hopHeader => eqIgnoreAsciiCase name hopHeader

/-- `filter_hop_by_hop_headers`. -/
def filterHopByHopHeaders (headers : Headers) : Headers :=
  hopByHopHeaders.foldl Headers.removeStr headers

/-- `set_host_header`. -/
def setHostHeader (H : HttpCrate) (headers : Headers) (host : Str) : Headers :=
  match H.parseHeaderValue host with
  | some hostValue => Multimap.insert headers .host hostValue
  | none => headers

/-- `forward_request_headers`. -/
def forwardRequestHeaders (H : HttpCrate) (src dst : Headers) (upstreamHost : Str) : Headers :=
  let dst := Multimap.copyUnless (fun name => isHopByHopHeader name.asStr) dst src
  let dst := setHostHeader H dst upstreamHost
  if !Multimap.containsKey dst .xForwardedFor then
    Multimap.insert dst .xForwardedFor (HeaderValue.fromStatic "unknown".toList)
  else dst

/-- `forward_response_headers`. -/
def forwardResponseHeaders (src dst : Headers) : Headers :=
  Multimap.copyUnless (fun name => isHopByHopHeader name.asStr) dst src

/-! ## The upstream URL -/

/-- `split_path_and_query`. -/
def splitPathAndQuery (pathAndQuery : Str) : Str × Option Str :=
  if pathAndQuery = [] then ([], none)
  else
    match stripStart pathAndQuery '?' with
    | some query => ([], some query)
    | none =>
      match splitOnce pathAndQuery '?' with
      | some (path, query) => (path, some query)
      | none => (pathAndQuery, none)

/-- `join_paths`. -/
def joinPaths (basePath pathPart : Str) : Str :=
  let normalizedBase := if basePath = [] then ['/'] else basePath
  if pathPart = [] then normalizedBase
  else if endsWith normalizedBase '/' && startsWith pathPart '/' then
    trimEndMatches normalizedBase '/' ++ pathPart
  else if !endsWith normalizedBase '/' && !startsWith pathPart '/' then
    if normalizedBase = ['/'] then '/' :: pathPart else normalizedBase ++ '/' :: pathPart
  else normalizedBase ++ pathPart

variable (H : HttpCrate)

/-- `build_upstream_url`. -/
def buildUpstreamUrl (base pathAndQuery : Str) : Option Uri :=
  match H.parseUri base with
  | none => none
  | some baseUri =>
    let builder := UriBuilder.new
    let builder := match baseUri.scheme with
      | some scheme => builder.scheme H scheme
      | none => builder
    let builder := match baseUri.authority with
      | some authority => builder.authority H authority.text
      | none => builder
    let (pathPart, queryPart) := splitPathAndQuery pathAndQuery
    let joinedPath := joinPaths baseUri.path pathPart
    let joinedPath := match queryPart with
      | some query => joinedPath ++ '?' :: query
      | none => joinedPath
    (builder.pathAndQuery H joinedPath).build

end Retrotls.HttpRs
