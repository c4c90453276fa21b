import Retrotls.Lib.Text

/-!
# The http crate, as the proxy uses it

`Authority`, `PathAndQuery` and `Uri` are the texts that the crate's values store,
with its accessors, its builder and its `Display`. What the crate accepts is a
parameter (`HttpCrate`); what its documentation says about it is `HttpCrate.Documented`:

* the components of an `https://` text are cut as in the generic URI syntax
  (`uri_https`), and no text longer than `maxLen` bytes is read;
* a text that is read is in one of the forms (`Uri.Form`), and its parts are values
  that the parsers of the parts return;
* a path and query that starts with `/` or `?`, or is `*`, is accepted character by
  character, up to `maxLen` bytes;
* `host` and `port_u16` read the authority's text (`hostText`, `portText`).

Of what versions 1 of the crate do differently (other and longer paths and queries, and
how the empty one is stored) nothing is said.
-/

namespace Retrotls

/-- `http::uri::Authority`. -/
structure Authority where
  text : Str
  deriving DecidableEq

/-- `http::uri::PathAndQuery`. The accessors are those of texts up to `maxLen` bytes: past
65535, the place of the question mark overflows in some versions. -/
structure PathAndQuery where
  data : Str
  deriving DecidableEq

/-- `PathAndQuery::as_str`. -/
def PathAndQuery.asStr (p : PathAndQuery) : Str := if p.data = [] then ['/'] else p.data

/-- `PathAndQuery::path`. -/
def PathAndQuery.path (p : PathAndQuery) : Str :=
  let t := p.data.takeWhile (· != '?')
  if t = [] then ['/'] else t

/-- `PathAndQuery::query`. -/
def PathAndQuery.query (p : PathAndQuery) : Option Str :=
  match p.data.dropWhile (· != '?') with
  | [] => none
  | _ :: q => some q

/-- `http::Uri`. -/
structure Uri where
  scheme : Option Str
  authority : Option Authority
  stored : PathAndQuery
  deriving DecidableEq

/-- The scheme of an HTTPS URI, and how its text starts. -/
def https : Str := "https".toList

def httpsPrefix : Str := "https://".toList

/-- `Uri::path_and_query`: an authority alone has none. -/
def Uri.pathAndQuery (u : Uri) : Option PathAndQuery :=
  if u.scheme.isSome || u.authority.isNone then some u.stored else none

/-- `Uri::path`. -/
def Uri.path (u : Uri) : Str :=
  if u.stored.data ≠ [] ∨ u.scheme.isSome then u.stored.path else []

/-- `Uri::query`. -/
def Uri.query (u : Uri) : Option Str := u.stored.query

/-- A query as it is printed after a path. -/
def queryText : Option Str → Str
  | none => []
  | some q => '?' :: q

/-- `Display` of `Uri`. -/
def Uri.toText (u : Uri) : Str :=
  (u.scheme.map (· ++ "://".toList)).getD [] ++ (u.authority.map Authority.text).getD [] ++
    u.path ++ queryText u.query

/-- The forms of a `Uri`: the origin form and `*`, the authority form, the absolute form. -/
inductive Uri.Form : Uri → Prop
  | path (p : PathAndQuery) : Form ⟨none, none, p⟩
  | authority (a : Authority) : Form ⟨none, some a, ⟨[]⟩⟩
  | absolute (s : Str) (a : Authority) (p : PathAndQuery) : Form ⟨some s, some a, p⟩

/-- A header value: its bytes. -/
abbrev HeaderValue := List UInt8

/-- The functions of the http crate that the proxy calls. -/
structure HttpCrate where
  /-- `Uri::from_str`. -/
  parseUri : Str → Option Uri
  /-- `Scheme::try_from`. -/
  parseScheme : Str → Option Str
  /-- `Authority::try_from`. -/
  parseAuthority : Str → Option Authority
  /-- `PathAndQuery::try_from`. -/
  parsePathAndQuery : Str → Option PathAndQuery
  /-- `Authority::host`. -/
  host : Authority → Str
  /-- `Authority::port_u16`. -/
  portU16 : Authority → Option ℕ
  /-- `HeaderValue::from_str`. -/
  parseHeaderValue : Str → Option HeaderValue
  /-- The longest text `Uri::from_str` reads. -/
  maxLen : ℕ
  /-- The characters of a path. -/
  pathChar : Char → Bool
  /-- The characters of a query. -/
  queryChar : Char → Bool

/-- The parts given to `Uri::builder`. -/
structure UriParts where
  scheme : Option Str := none
  authority : Option Authority := none
  pathAndQuery : Option PathAndQuery := none

/-- `Uri::from_parts`. -/
def Uri.fromParts (p : UriParts) : Option Uri :=
  match p.scheme, p.authority, p.pathAndQuery with
  | some _, none, _ => none
  | some _, some _, none => none
  | none, some _, some _ => none
  | s, a, q => some ⟨s, a, q.getD ⟨[]⟩⟩

/-- `http::uri::Builder`: the parts so far, or that one was not accepted. -/
structure UriBuilder where
  parts : Option UriParts

namespace UriBuilder

variable (H : HttpCrate)

/-- `Uri::builder`. -/
def new : UriBuilder := ⟨some {}⟩

def scheme (b : UriBuilder) (s : Str) : UriBuilder :=
  ⟨b.parts.bind fun p => (H.parseScheme s).map fun s => { p with scheme := some s }⟩

def authority (b : UriBuilder) (a : Str) : UriBuilder :=
  ⟨b.parts.bind fun p => (H.parseAuthority a).map fun a => { p with authority := some a }⟩

def pathAndQuery (b : UriBuilder) (t : Str) : UriBuilder :=
  ⟨b.parts.bind fun p => (H.parsePathAndQuery t).map fun q => { p with pathAndQuery := some q }⟩

def build (b : UriBuilder) : Option Uri := b.parts.bind Uri.fromParts

end UriBuilder

/-! ## What the texts say -/

/-- The authority of a URI ends at the first of these characters. -/
def inAuthority (c : Char) : Bool := c != '/' && c != '?' && c != '#'

/-- A path and a query without the fragment. -/
def withoutFragment (t : Str) : Str := t.takeWhile (· != '#')

/-- The authority's text after the user information. -/
def hostPort (a : Str) : Str := a.rtakeWhile (· != '@')

/-- **The host that an authority names**: what stands between the user information
and the port, an IP literal with its brackets. -/
def hostText (a : Str) : Str :=
  let hp := hostPort a
  if hp.head? = some '[' then hp.takeWhile (· != ']') ++ [']'] else hp.takeWhile (· != ':')

/-- Neither a port colon nor the end of the user information or of an IP literal. -/
def inPort (c : Char) : Bool := c != ':' && c != '@' && c != ']'

/-- **The port that an authority names**, as text: what follows the last colon, when
that colon is outside the user information and the IP literal. -/
def portText (a : Str) : Option Str :=
  if (a.rdropWhile inPort).getLast? = some ':' then some (a.rtakeWhile inPort) else none

/-- A printable ASCII character other than a space. -/
def isGraphic (c : Char) : Bool := 0x21 ≤ c.toNat && c.toNat ≤ 0x7e

namespace HttpCrate

variable (H : HttpCrate)

/-- How the text of a path and query starts. -/
def PathStart (t : Str) : Prop := startsWith t '/' = true ∨ startsWith t '?' = true ∨ t = ['*']

instance (t : Str) : Decidable (PathStart t) := inferInstanceAs (Decidable (_ ∨ _ ∨ _))

/-- The text of a path and query, character by character. -/
def pathAndQueryOk (t : Str) : Bool :=
  ((withoutFragment t).takeWhile (· != '?')).all H.pathChar &&
    ((withoutFragment t).dropWhile (· != '?')).tail.all H.queryChar

/-- Parts that the crate's own parsers have returned. -/
structure Accepted (parts : UriParts) : Prop where
  scheme : ∀ s, parts.scheme = some s → ∃ t, H.parseScheme t = some s
  authority : ∀ a, parts.authority = some a → ∃ t, H.parseAuthority t = some a
  pathAndQuery : ∀ p, parts.pathAndQuery = some p → ∃ t, H.parsePathAndQuery t = some p

/-- **A value that a `Uri` can hold**: `Uri::from_str` returns it, or `Uri::from_parts`
(as for a request over HTTP/2). -/
def Holds (u : Uri) : Prop :=
  (∃ t, H.parseUri t = some u) ∨ ∃ parts, H.Accepted parts ∧ Uri.fromParts parts = some u

/-- A path and query that is stored: an empty one, or one whose text is accepted again. -/
def Stored (p : PathAndQuery) : Prop := p.data = [] ∨ H.parsePathAndQuery p.data = some p

/-- What is stored for the text after an authority. -/
def Follows (t : Str) (p : PathAndQuery) : Prop :=
  if withoutFragment t = [] then p.data = [] ∨ p.data = ['/'] else H.parsePathAndQuery t = some p

/-- **What the crate documents about these functions.** -/
structure Documented : Prop where
  scheme_https : H.parseScheme https = some https
  max_len : H.maxLen = 65534
  uri_https : ∀ rest u, H.parseUri (httpsPrefix ++ rest) = some u →
    utf8Len (httpsPrefix ++ rest) ≤ H.maxLen ∧
      ∃ a p, H.parseAuthority (rest.takeWhile inAuthority) = some a ∧
        H.Follows (rest.dropWhile inAuthority) p ∧ u = ⟨some https, some a, p⟩
  uri_https_read : ∀ rest a p, utf8Len (httpsPrefix ++ rest) ≤ H.maxLen →
    H.parseAuthority (rest.takeWhile inAuthority) = some a →
      H.parsePathAndQuery (rest.dropWhile inAuthority) = some p → p.data ≠ [] →
        H.parseUri (httpsPrefix ++ rest) = some ⟨some https, some a, p⟩
  uri_form : ∀ t u, H.parseUri t = some u → u.Form
  uri_authority : ∀ t u a, H.parseUri t = some u → u.authority = some a →
    ∃ s, H.parseAuthority s = some a
  uri_path : ∀ t u, H.parseUri t = some u → H.Stored u.stored
  authority_text : ∀ t a, H.parseAuthority t = some a →
    a.text = t ∧ t ≠ [] ∧ ∀ c ∈ t, isGraphic c = true ∧ inAuthority c = true
  path_read : ∀ t p, H.parsePathAndQuery t = some p →
    H.pathAndQueryOk t = true ∧ p.data = withoutFragment t ∧ H.Stored p
  path_text : ∀ t, PathStart t → utf8Len t ≤ H.maxLen → H.pathAndQueryOk t = true →
    H.parsePathAndQuery t = some ⟨withoutFragment t⟩
  path_slash : H.pathChar '/' = true
  host_text : ∀ t a, H.parseAuthority t = some a → H.host a = hostText t
  port_text : ∀ t a, H.parseAuthority t = some a →
    H.portU16 a = (portText t).bind parseU16
  header_graphic : ∀ s, (∀ c ∈ s, isGraphic c = true) →
    H.parseHeaderValue s = some (s.map fun c => UInt8.ofNat c.toNat)

end HttpCrate

end Retrotls
