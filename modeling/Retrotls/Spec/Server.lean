import Retrotls.Spec.Config
import Retrotls.Lib.Lts
import Retrotls.Lib.Pool

/-!
# The tasks of the daemon

`run` from its first bind on, `spawn_listener`, the connection tasks and
`wait_for_in_flight` of `main.rs`, as tasks that take steps in any order. A run of the
daemon is a list of actions (`Server.step`).

* A spawned task takes its first step at any later time, or never.
* The operations on the counter are atomic. Every counted task takes memory, so
  `fetch_add` does not wrap; `fetch_sub` does.
* `notify_waiters` wakes the `Notified` futures that exist, and stores no permit.
* A select loop's listener task returns `Ok(())`, or panics.
-/

namespace Retrotls

/-- A connection task. -/
inductive Conn
  /-- Spawned and not polled yet. -/
  | spawned
  /-- `serve_connection` waits for a request. -/
  | idle
  /-- `Proxy::handle` has a request. -/
  | handling
  /-- `serve_connection` has returned. -/
  | served (ok : Bool)
  /-- The guard's `drop` has run `fetch_sub`. -/
  | released
  /-- It has run `notify_waiters`: the task is over. -/
  | closed
  deriving DecidableEq

inductive ConnAct
  /-- The first poll: `InFlightGuard::new`. -/
  | poll
  | request
  | respond
  | finish (ok : Bool)
  | fetchSub
  | notifyWaiters
  deriving DecidableEq

/-- The body of a connection task. -/
def Conn.next (a : ConnAct) : Conn → Option Conn
  | .spawned => if a = .poll then some .idle else none
  | .idle =>
    match a with
    | .request => some .handling
    | .finish ok => some (.served ok)
    | _ => none
  | .handling =>
    match a with
    | .respond => some .idle
    | .finish ok => some (.served ok)
    | _ => none
  | .served _ => if a = .fetchSub then some .released else none
  | .released => if a = .notifyWaiters then some .closed else none
  | .closed => none

/-- The task holds an `InFlightGuard` that is still counted. -/
def Conn.guarded : Conn → Bool
  | .idle => true
  | .handling => true
  | .served _ => true
  | _ => false

/-- The task's `serve_connection` is over. -/
def Conn.finished : Conn → Bool
  | .served _ => true
  | .released => true
  | .closed => true
  | _ => false

/-- `AtomicUsize::fetch_sub(1)`. -/
def AtomicUsize.fetchSub : ℕ → ℕ
  | 0 => 2 ^ 64 - 1
  | n + 1 => n

/-- What a step of a connection task does to the counter. -/
def ConnAct.count : ConnAct → ℕ → ℕ
  | .poll, n => n + 1
  | .fetchSub, n => AtomicUsize.fetchSub n
  | _, n => n

/-- A listener task, in its select loop. -/
inductive Listener
  | select
  /-- `accept` has returned a connection, whose task is not spawned yet. -/
  | accepted
  | ended (ok : Bool)
  deriving DecidableEq

inductive ListenerAct
  | accept
  | acceptFails
  | spawn
  | breakLoop
  | panic
  deriving DecidableEq

/-- The loop of `spawn_listener`. -/
def Listener.next (shutdown : Bool) (a : ListenerAct) : Listener → Option Listener
  | .select =>
    match a with
    | .accept => some .accepted
    -- `accept failed` is logged only
    | .acceptFails => some .select
    | .breakLoop => if shutdown then some (.ended true) else none
    | .panic => some (.ended false)
    | .spawn => none
  | .accepted =>
    match a with
    | .spawn => some .select
    | .panic => some (.ended false)
    | _ => none
  | .ended _ => none

/-- The connection tasks that a step of a listener spawns. -/
def ListenerAct.spawned : ListenerAct → List Conn
  | .spawn => [.spawned]
  | _ => []

/-- The loop of `wait_for_in_flight`. -/
inductive Waiter
  | load
  | create
  /-- The `Notified` future exists and has not been polled. -/
  | created (woken : Bool)
  | parked (woken : Bool)
  deriving DecidableEq

/-- `run`, from its first bind on. -/
inductive Main
  | binding
  /-- In `wait_for_shutdown_signal`. -/
  | waiting
  /-- Awaiting listener task `k`. -/
  | joining (k : ℕ)
  | draining (w : Waiter)
  /-- `wait_for_in_flight` has returned. -/
  | drained
  | timedOut
  /-- The PID file is removed and `run` has returned. -/
  | finished (timedOut : Bool)
  | failed (err : AppError)
  deriving DecidableEq

inductive MainAct
  | bindFails (source : IoError)
  | ready
  /-- The signal arrives, and `shutdown_tx.send(true)`. -/
  | signal
  | join
  | joinFails (message : Str)
  | startDrain
  | load
  | create
  /-- The first poll of the `Notified` future. -/
  | park
  | resume
  | timeout
  | cleanup
  deriving DecidableEq

/-- The whole daemon. -/
structure Server where
  /-- The listeners that are not bound yet. -/
  toBind : List SocketAddr
  listeners : List Listener
  conns : List Conn
  inFlight : ℕ
  shutdown : Bool
  main : Main
  deriving DecidableEq

/-- `run`, seeing the listener tasks and the counter. -/
def Main.next (s : Server) : Main → MainAct → Option Main
  | .binding, .bindFails source =>
    s.toBind.head?.map fun addr => .failed (.bindFailed addr source)
  | .binding, .ready => if s.toBind = [] then some .waiting else none
  | .waiting, .signal => some (.joining 0)
  | .joining k, .join =>
    if s.listeners[k]? = some (.ended true) then some (.joining (k + 1)) else none
  | .joining k, .joinFails message =>
    if s.listeners[k]? = some (.ended false) then some (.failed (.listenerTask message)) else none
  -- all handles are awaited, in the order of the binds
  | .joining k, .startDrain => if k = s.listeners.length then some (.draining .load) else none
  -- `wait_for_in_flight`: the load comes first, and the future is created after it
  | .draining .load, .load => some (if s.inFlight = 0 then .drained else .draining .create)
  | .draining .create, .create => some (.draining (.created false))
  -- a future that was notified before its first poll is ready at once
  | .draining (.created woken), .park => some (.draining (if woken then .load else .parked false))
  | .draining (.parked true), .resume => some (.draining .load)
  -- the timeout can fire wherever the waiter is
  | .draining _, .timeout => some .timedOut
  | .drained, .cleanup => some (.finished false)
  | .timedOut, .cleanup => some (.finished true)
  | _, _ => none

/-- `notify_waiters`, for the one future there can be. -/
def Main.wake : Main → Main
  | .draining (.created _) => .draining (.created true)
  | .draining (.parked _) => .draining (.parked true)
  | m => m

namespace Server

inductive Act
  /-- A bind succeeds, and the listener task is spawned. -/
  | bind
  | main (a : MainAct)
  | listener (l : ℕ) (a : ListenerAct)
  | conn (c : ℕ) (a : ConnAct)
  deriving DecidableEq

/-- `run` before its first bind. -/
def init (addrs : List SocketAddr) : Server where
  toBind := addrs
  listeners := []
  conns := []
  inFlight := 0
  shutdown := false
  main := .binding

/-- One step of one task. -/
def step (s : Server) : Act → Option Server
  | .bind =>
    match s.main, s.toBind with
    | .binding, _ :: rest => some { s with toBind := rest, listeners := s.listeners ++ [.select] }
    | _, _ => none
  | .main a => (s.main.next s a).map fun m => { s with main := m, shutdown := s.shutdown || a = .signal }
  | .listener l a => (move (Listener.next s.shutdown a) l s.listeners).map fun ls =>
      { s with listeners := ls, conns := s.conns ++ a.spawned }
  | .conn c a => (move (Conn.next a) c s.conns).map fun cs =>
      { s with conns := cs, inFlight := a.count s.inFlight
               main := if a = .notifyWaiters then s.main.wake else s.main }

end Server

end Retrotls
