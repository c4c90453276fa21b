import Retrotls.Lib.Multimap
import Retrotls.Spec.Http

/-!
# Header maps

`HeaderName`, `HeaderValue` and `HeaderMap` of the http crate, as `http.rs` and `proxy.rs`
use them. A name keeps its invariant: it is a token, in lower case. The limits on the
length of a name and on the number of entries are left out.
-/

namespace Retrotls

/-- The characters of a token, in lower case. -/
def isNameChar (c : Char) : Bool :=
  c.isDigit || (0x61 ≤ c.toNat && c.toNat ≤ 0x7a) || c ∈ "!#$%&'*+-.^_`|~".toList

/-- `http::header::HeaderName`. -/
structure HeaderName where
  asStr : Str
  ok : asStr ≠ [] ∧ asStr.all isNameChar = true
  deriving DecidableEq

namespace HeaderName

/-- `HeaderName::from_bytes`. -/
def fromBytes (s : Str) : Option HeaderName :=
  if h : toAsciiLowercase s ≠ [] ∧ (toAsciiLowercase s).all isNameChar = true then
    some ⟨toAsciiLowercase s, h⟩
  else none

def host : HeaderName := ⟨"host".toList, by decide⟩

def connection : HeaderName := ⟨"connection".toList, by decide⟩

def xForwardedFor : HeaderName := ⟨"x-forwarded-for".toList, by decide⟩

def xForwardedProto : HeaderName := ⟨"x-forwarded-proto".toList, by decide⟩

def xForwardedHost : HeaderName := ⟨"x-forwarded-host".toList, by decide⟩

end HeaderName

/-- A visible ASCII character, a space or a tab. -/
def isVisible (n : ℕ) : Bool := (0x20 ≤ n && n < 0x7f) || n = 9

namespace HeaderValue

/-- `HeaderValue::from_static`: the bytes of an ASCII text. -/
def fromStatic (s : Str) : HeaderValue := s.map fun c => UInt8.ofNat c.toNat

/-- `HeaderValue::to_str`. -/
def toStr (v : HeaderValue) : Option Str :=
  if v.all fun b => isVisible b.toNat then some (v.map fun b => Char.ofNat b.toNat) else none

end HeaderValue

/-- **What is documented about `HeaderValue::from_str`**: it takes every text of visible
ASCII characters, spaces and tabs. -/
def HttpCrate.TakesVisible (H : HttpCrate) : Prop :=
  ∀ s : Str, (∀ c ∈ s, isVisible c.toNat = true) →
    H.parseHeaderValue s = some (HeaderValue.fromStatic s)

/-- `http::HeaderMap`. -/
abbrev Headers := Multimap HeaderName HeaderValue

/-- `HeaderMap::remove`, for a name that is given as text. -/
def Headers.removeStr (headers : Headers) (name : Str) : Headers :=
  match HeaderName.fromBytes name with
  | some name => Multimap.remove headers name
  | none => headers

end Retrotls
