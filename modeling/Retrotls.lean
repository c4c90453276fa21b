import Retrotls.Lib.Lts
import Retrotls.Lib.Pool
import Retrotls.Lib.Gate
import Retrotls.Lib.Lease
import Retrotls.Lib.Prog
import Retrotls.Lib.Text
import Retrotls.Lib.Options
import Retrotls.Lib.Multimap
import Retrotls.Spec.Http
import Retrotls.Spec.Config
import Retrotls.Spec.Forward
import Retrotls.Spec.Server
import Retrotls.Spec.PidFile
import Retrotls.Spec.Daemon
import Retrotls.Spec.Run
import Retrotls.Spec.ConfigRs
import Retrotls.Spec.HttpRs
import Retrotls.Spec.Args
import Retrotls.Proof.Args
import Retrotls.Proof.Server
import Retrotls.Proof.Drain
import Retrotls.Proof.Wake
import Retrotls.Proof.Keepalive
import Retrotls.Proof.Daemon
import Retrotls.Proof.PidOwner
import Retrotls.Proof.Uri
import Retrotls.Proof.Upstream
import Retrotls.Proof.Crates
import Retrotls.Proof.Startup
import Retrotls.Proof.Join
import Retrotls.Proof.UpstreamUrl
import Retrotls.Proof.Effects
import Retrotls.Proof.Kill
import Retrotls.Proof.Check
import Retrotls.Proof.Agree
import Retrotls.Proof.Reexec
import Retrotls.Proof.Target
import Retrotls.Proof.Endpoint
import Retrotls.Proof.Headers
import Retrotls.Proof.Bind
import Retrotls.Proof.JoinUrl
import Retrotls.Proof.Listeners
import Retrotls.Proof.Counter
import Retrotls.Spec.ProxyRs
import Retrotls.Proof.HopByHop
import Retrotls.Proof.Connection
import Retrotls.Proof.Forwarding
import Retrotls.Lib.Trace
import Retrotls.Proof.Exchange
import Retrotls.Proof.Gateway
import Retrotls.Proof.Lifecycle
import Retrotls.Proof.Progress
import Retrotls.Proof.Requests
import Retrotls.Proof.Sequential
import Retrotls.Proof.Outcome
import Retrotls.Proof.Files
import Retrotls.Proof.FirstStart
import Retrotls.Proof.Siblings
import Retrotls.Spec.AccessLog
import Retrotls.Proof.AccessLog
import Retrotls.Spec.HandleRequest
import Retrotls.Proof.HandleRequest
import Retrotls.Proof.Stages
import Retrotls.Proof.Daemonize
