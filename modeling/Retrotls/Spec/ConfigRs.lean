import Retrotls.Spec.Config

/-!
# `config.rs`

`join_paths` and `validate_listeners` of `config.rs`, with the errors of `error.rs`
that it returns. The error text of `Uri::from_str` is a parameter.
-/

namespace Retrotls

namespace SocketAddr

/-- `Display` of `Ipv4Addr`. -/
def ipv4Text (ip : ℕ) : Str :=
  ['.'].intercalate ([24, 16, 8, 0].map fun shift => decimal (ip / 2 ^ shift % 256))

/-- The eight segments of an IPv6 address. -/
def segments (ip : ℕ) : List ℕ :=
  [112, 96, 80, 64, 48, 32, 16, 0].map fun shift => ip / 2 ^ shift % 65536

/-- A run of segments. -/
structure Span where
  start : ℕ
  len : ℕ

/-- The search for the longest run of zero segments, from segment `i` on: the first of
the longest ones. -/
def longestZeros (i : ℕ) (longest current : Span) : List ℕ → Span
  | [] => longest
  | segment :: rest =>
    if segment = 0 then
      let current := ⟨if current.len = 0 then i else current.start, current.len + 1⟩
      longestZeros (i + 1) (if longest.len < current.len then current else longest) current rest
    else longestZeros (i + 1) longest ⟨0, 0⟩ rest

/-- Segments in hexadecimal. -/
def segmentsText (segs : List ℕ) : Str := [':'].intercalate (segs.map (Nat.toDigits 16))

/-- `Display` of `Ipv6Addr`. -/
def ipv6Text (ip : ℕ) : Str :=
  if ip / 2 ^ 32 = 0xffff then "::ffff:".toList ++ ipv4Text (ip % 2 ^ 32)
  else
    let zeroes := longestZeros 0 ⟨0, 0⟩ ⟨0, 0⟩ (segments ip)
    if 1 < zeroes.len then
      segmentsText ((segments ip).take zeroes.start) ++ "::".toList ++
        segmentsText ((segments ip).drop (zeroes.start + zeroes.len))
    else segmentsText (segments ip)

/-- `Display` of `SocketAddr`. -/
def display : SocketAddr → Str
  | v4 ip port => ipv4Text ip.toNat ++ ':' :: decimal port.toNat
  | v6 ip port _ scopeId =>
    '[' :: ipv6Text ip.toNat ++ (if scopeId = 0 then [] else '%' :: decimal scopeId.toNat) ++
      "]:".toList ++ decimal port.toNat

end SocketAddr

namespace ConfigRs

/-- The errors of `error.rs` that `validate_listeners` returns. -/
inductive AppError
  | configValidationError (message : Str)
  deriving DecidableEq

/-- One entry of `listeners`. -/
structure ListenerConfig where
  bind : SocketAddr
  upstream : Str
  deriving DecidableEq

/-- `join_paths`. -/
def joinPaths (base path : Str) : Str :=
  if base = [] then path
  else if path = [] then base
  else
    match endsWith base '/', startsWith path '/' with
    | true, true => trimEndMatches base '/' ++ path
    | false, false => base ++ '/' :: path
    | _, _ => base ++ path

variable (H : HttpCrate) (uriError : Str → Str)

/-- The loop of `validate_listeners`, after it has seen `binds`. -/
def validateFrom (binds : List SocketAddr) : List ListenerConfig → Except AppError Unit
  | [] => .ok ()
  | listener :: rest =>
    if listener.bind ∈ binds then
      .error (.configValidationError
        ("duplicate listener bind address: ".toList ++ listener.bind.display))
    else if !httpsPrefix.isPrefixOf listener.upstream then
      .error (.configValidationError
        ("listener upstream must start with https://: ".toList ++ listener.upstream))
    else
      match H.parseUri listener.upstream with
      | none =>
        .error (.configValidationError ("invalid upstream URL '".toList ++ listener.upstream ++
          "': ".toList ++ uriError listener.upstream))
      | some uri =>
        if uri.authority.isNone then
          .error (.configValidationError ("invalid upstream URL '".toList ++ listener.upstream ++
            "': missing authority".toList))
        else if uri.scheme ≠ some https then
          .error (.configValidationError
            ("listener upstream must use https scheme: ".toList ++ listener.upstream))
        else validateFrom (listener.bind :: binds) rest

/-- `validate_listeners`. -/
def validateListeners (listeners : List ListenerConfig) : Except AppError Unit :=
  validateFrom H uriError [] listeners

end ConfigRs

end Retrotls
