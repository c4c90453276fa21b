import Retrotls.Spec.Http
import Mathlib.Data.BitVec

/-!
# The configuration of the daemon

`Config`, `parse_upstream` and `Config::validate` of `main.rs`, with the errors of the
binary (`AppError`).
-/

namespace Retrotls

/-- `std::net::SocketAddr`. -/
inductive SocketAddr
  | v4 (ip : BitVec 32) (port : UInt16)
  | v6 (ip : BitVec 128) (port : UInt16) (flowinfo scopeId : UInt32)
  deriving DecidableEq

/-- A path, by its components. -/
abbrev Path := List Str

/-- The kinds of `std::io::Error` that the code tells apart. -/
inductive IoErrorKind
  | notFound
  | other
  deriving DecidableEq

/-- `std::io::Error`. -/
structure IoError where
  kind : IoErrorKind
  text : Str
  deriving DecidableEq

/-- The levels at which the binary logs. -/
inductive Level
  | error
  | warn
  | info
  deriving DecidableEq

/-- One entry of `listeners`. -/
structure ListenerConfig where
  listen : SocketAddr
  upstream : Str
  deriving DecidableEq

/-- The configuration file. -/
structure Config where
  logLevel : Option Str
  accessLog : Bool
  shutdownTimeoutSecs : Option ℕ
  listeners : List ListenerConfig
  deriving DecidableEq

/-- What a listener forwards to, from its `upstream` text. -/
structure Upstream where
  base : Uri
  authority : Str
  host : Str
  port : ℕ
  deriving DecidableEq

/-- The errors of the binary. -/
inductive AppError
  | configNotFound (path : Path)
  | configRead (path : Path) (source : IoError)
  | configParse (path : Path) (source : Str)
  | configValidation (message : Str)
  | bindFailed (addr : SocketAddr) (source : IoError)
  | listenerTask (message : Str)
  | alreadyRunning (pid : ℕ)
  | notRunning
  | io (source : IoError)
  deriving DecidableEq

variable (H : HttpCrate)

/-- `parse_upstream`. -/
def parseUpstream (raw : Str) : Except AppError Upstream :=
  match H.parseUri raw with
  | none => .error (.configValidation ("invalid upstream URI: ".toList ++ raw))
  | some base =>
    if base.scheme ≠ some https then
      .error (.configValidation ("upstream must use https scheme: ".toList ++ raw))
    else
      match base.authority with
      | none => .error (.configValidation ("upstream missing authority: ".toList ++ raw))
      | some authority => .ok {
          base := base
          authority := authority.text
          host := H.host authority
          -- a port text that is no `u16` counts as none
          port := (H.portU16 authority).getD 443 }

/-- The loop of `Config::validate`, from listener `idx` on. -/
def validateFrom (idx : ℕ) : List ListenerConfig → Except AppError Unit
  | [] => .ok ()
  | listener :: rest =>
    if trim listener.upstream = [] then
      .error (.configValidation
        ("listeners[".toList ++ decimal idx ++ "].upstream cannot be empty".toList))
    else
      match parseUpstream H listener.upstream with
      | .error err => .error err
      | .ok _ => validateFrom (idx + 1) rest

/-- `Config::validate`. -/
def Config.validate (c : Config) : Except AppError Unit :=
  if c.listeners = [] then
    .error (.configValidation "at least one listener is required".toList)
  else validateFrom H 0 c.listeners

end Retrotls
