import Retrotls.Spec.ConfigRs
import Retrotls.Spec.Forward

/-!
# The access log

The lines that `Proxy::handle` of `main.rs` logs for a request, and the line of `log_access`
of `logging.rs`. What `tracing` puts before a line is left out; which levels it writes
(`init_logging`) is a parameter.
-/

namespace Retrotls

/-- The line of `Proxy::handle`. -/
def accessLine (clientAddr localAddr : SocketAddr) (req : Request) (status elapsedMs : ℕ)
    (up : Upstream) : Str :=
  let path := (req.uri.pathAndQuery.map PathAndQuery.asStr).getD ['/']
  clientAddr.display ++ " ".toList ++ localAddr.display ++ " -> ".toList ++ req.method ++
    " ".toList ++ path ++ " ".toList ++ decimal status ++ " ".toList ++ decimal elapsedMs ++
    "ms upstream=".toList ++ up.base.toText

variable (H : HttpCrate) (T : Rustls)

/-- The line of `Proxy::handle` for a request that fails. -/
def failureLine (errorText : ForwardError → Str) : Except ForwardError Response → Option Str
  | .ok _ => none
  | .error err => some ("proxy request failed: ".toList ++ errorText err)

/-- `Proxy::handle`, with the lines that it logs for a request, each with its level: those whose
level is enabled. What the tasks of its connections log is not among them. -/
def handleLogged (enabled : Level → Bool) (errorText : ForwardError → Str) (accessLog : Bool)
    (net : Net) (req : Request) (up : Upstream) (clientAddr localAddr : SocketAddr)
    (elapsedMs : ℕ) : Response × List (Level × Str) :=
  let result := forward H T net req up
  let response := match result with
    | .ok resp => resp
    | .error _ => simpleResponse 502 "Bad Gateway".toList
  let failure := (failureLine errorText result).toList.map fun line => (Level.error, line)
  let access :=
    if accessLog then
      [(Level.info, accessLine clientAddr localAddr req response.status elapsedMs up)]
    else []
  let lines := (failure ++ access).filter fun line => enabled line.1
  if (response.headers.get "connection".toList).isNone then
    ({ response with headers := response.headers.remove "connection".toList }, lines)
  else (response, lines)

namespace LoggingRs

/-- `AccessLogEvent`, with its timestamp as it is printed. -/
structure AccessLogEvent where
  timestamp : Str
  clientAddr : SocketAddr
  localBind : SocketAddr
  method : Str
  path : Str
  upstream : Str
  statusCode : ℕ
  latencyMs : ℕ

/-- The line of `log_access`. -/
def accessLine (event : AccessLogEvent) : Str :=
  event.timestamp ++ " ".toList ++ event.clientAddr.display ++ " -> ".toList ++
    event.localBind.display ++ " ".toList ++ event.method ++ " ".toList ++ event.path ++
    " ".toList ++ decimal event.statusCode ++ " ".toList ++ decimal event.latencyMs ++
    "ms upstream=".toList ++ event.upstream

end LoggingRs

end Retrotls
