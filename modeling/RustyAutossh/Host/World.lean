import RustyAutossh.Source.Supervisor

/-!
# The host of the supervisor

Processes, channels, sockets and clocks as the supervisor's awaits see them,
with a log of what it has done. The environment acts on them through `Event`s.
Every fallible system call may fail at any of its uses.
-/

namespace RustyAutossh

/-- A process the supervisor has spawned; `status` is `none` while it is alive. -/
structure Proc where
  pid : UInt32
  spawnedAt : Instant
  status : Option ExitStatus := none
  reaped : Bool := false
  deriving DecidableEq, Repr

/-- What a reader of a TCP connection has been sent, and the error that ends it. -/
structure Conn where
  received : List UInt8 := []
  ended : Option IoError := none
  deriving DecidableEq, Repr

/-- `read_exact` on a connection: enough bytes, an early end, or still waiting. -/
def Conn.readExact (c : Conn) (len : Nat) : Option (Except IoError (List UInt8)) :=
  if len ≤ c.received.length then some (.ok (c.received.take len)) else c.ended.map .error

/-- The sockets of the heartbeat. `conns` lists every connection made to the output
listener in order of arrival; the first `taken` of them have been accepted. -/
structure Net where
  conns : List Conn := []
  taken : Nat := 0
  acceptError : Option IoError := none
  /-- The connection the running probe has accepted. -/
  serving : Option Nat := none
  /-- The outcome of the running probe's connect, write and flush. -/
  written : Option (Except IoError Unit) := none
  /-- The read side of the running probe's own stream. -/
  reply : Conn := {}
  deriving Repr

/-- A point the loop passes: the outcome of a tick, a respawn decision with the outcome,
the status and the lifetime it was taken on, or the lifetime check finding the deadline passed. -/
inductive Mark where
  | ticked (outcome : LoopOutcome)
  | decided (outcome : LoopOutcome) (status : ExitStatus) (lifetime : Duration)
      (decision : RespawnDecision)
  | expired
  deriving DecidableEq, Repr

/-- What the supervisor does to its host, and the points it passes in between. -/
inductive Act where
  | spawned (path : PathBuf) (args : List String) (result : Except IoError UInt32)
  | killed (child : Child) (forced : Bool)
  | emitted (ev : SupervisorEvent)
  | probing (port : UInt16) (payload : List UInt8)
  | probed (result : Option (Except IoError (List UInt8)))
  | passed (mark : Mark)
  deriving Repr

/-- One line of the log: when, with how many live children, and what. -/
structure Entry where
  time : Instant
  alive : Nat
  act : Act
  deriving Repr

/-- The state of the host. The three fault functions give the result of the n-th
`spawn`, `wait` and forced kill. -/
structure World where
  target : Target
  now : Instant
  /-- Seconds since the Unix epoch, unless the wall clock is set before it. -/
  wallClock : Option UInt64
  spawnResult : Nat → Except IoError UInt32
  waitError : Nat → Option IoError
  killError : Nat → Option IoError
  spawns : Nat := 0
  waits : Nat := 0
  kills : Nat := 0
  procs : List Proc := []
  signals : List SupervisorEvent := []
  signalsOpen : Bool := true
  inbox : List SupervisorEvent := []
  inboxOpen : Bool := true
  net : Net := {}
  history : List Entry := []

/-- The number of spawned processes that have not terminated. -/
def World.alive (w : World) : Nat := w.procs.countP (·.status.isNone)

/-- Append a line to the log. -/
def World.log (w : World) (act : Act) : World :=
  { w with history := w.history ++ [⟨w.now, w.alive, act⟩] }

/-- Whether a spawned process is still alive. -/
def World.IsAlive (w : World) (c : Child) : Prop :=
  ∃ p, w.procs[c.index]? = some p ∧ p.status = none

/-- One action of the environment. -/
inductive Event where
  | elapse (d : Duration)
  | setWallClock (t : Option UInt64)
  | exit (index : Nat) (status : ExitStatus)
  | signal (ev : SupervisorEvent)
  | closeSignals
  | consume
  | dropConsumer
  | connect
  | bytes (conn : Nat) (bs : List UInt8)
  | close (conn : Nat) (e : IoError)
  | acceptFails (e : IoError)
  | written (r : Except IoError Unit)
  | replyBytes (bs : List UInt8)
  | replyClose (e : IoError)
  deriving Repr

/-- A process terminates at most once. -/
def Proc.exit (p : Proc) (status : ExitStatus) : Proc :=
  match p.status with
  | none => { p with status := some status }
  | some _ => p

/-- A peer sends no bytes after it has closed. -/
def Conn.feed (c : Conn) (bs : List UInt8) : Conn :=
  match c.ended with
  | none => { c with received := c.received ++ bs }
  | some _ => c

/-- A connection is closed at most once. -/
def Conn.close (c : Conn) (e : IoError) : Conn :=
  match c.ended with
  | none => { c with ended := some e }
  | some _ => c

/-- The effect of one action of the environment. -/
def World.apply (w : World) : Event → World
  | .elapse d => { w with now := w.now + d }
  | .setWallClock t => { w with wallClock := t }
  | .exit i status => { w with procs := w.procs.modify i (·.exit status) }
  | .signal ev => if w.signalsOpen then { w with signals := w.signals ++ [ev] } else w
  | .closeSignals => { w with signalsOpen := false }
  | .consume => { w with inbox := w.inbox.tail }
  | .dropConsumer => { w with inboxOpen := false }
  | .connect => { w with net := { w.net with conns := w.net.conns ++ [{}] } }
  | .bytes i bs => { w with net := { w.net with conns := w.net.conns.modify i (·.feed bs) } }
  | .close i e => { w with net := { w.net with conns := w.net.conns.modify i (·.close e) } }
  | .acceptFails e => { w with net := { w.net with acceptError := some e } }
  | .written r => { w with net := { w.net with written := w.net.written.or (some r) } }
  | .replyBytes bs => { w with net := { w.net with reply := w.net.reply.feed bs } }
  | .replyClose e => { w with net := { w.net with reply := w.net.reply.close e } }

/-- The supervisor together with its host. -/
structure Sys where
  sup : Supervisor
  world : World

end RustyAutossh
