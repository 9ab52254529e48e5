import RustyAutossh.Async.Logic
import RustyAutossh.Host.World

/-!
# The awaits of the supervisor

Each operation is one system call or one await of the loop. Synchronous calls
answer at once; an await is polled again after every action of the environment.
Operations that race two futures poll them in the order of the source.
-/

namespace RustyAutossh

open Async

/-- Which branch of the loop's `select!` completed. -/
inductive Wakeup where
  | exited (result : Except IoError ExitStatus)
  | timer
  | received (ev : Option SupervisorEvent)
  deriving Repr

/-- The operations of the supervisor. -/
inductive Op where
  | target
  | now
  | wallClock
  | this
  | put (self : Supervisor)
  /-- Log a point passed; nothing the supervisor can observe changes. -/
  | trace (mark : Mark)
  | spawn (path : PathBuf) (args : List String)
  | childId (child : Child)
  /-- `kill(pid, SIGTERM)`. -/
  | kill (child : Child)
  /-- `Child::start_kill`. -/
  | startKill (child : Child)
  | wait (child : Child)
  /-- `timeout_at(deadline, child.wait())`. -/
  | waitTimeout (child : Child) (deadline : Instant)
  | send (tx : Sender) (ev : SupervisorEvent)
  | sleepUntil (deadline : Instant)
  /-- The biased `select!` over the child, the timer if armed and the signals if any. -/
  | select (child : Child) (timer : Option Instant) (signals : Bool)
  | startProbe (port : UInt16) (payload : List UInt8)
  /-- `timeout_at(deadline, roundtrip)`, reading from an accepted connection or the own stream. -/
  | roundtrip (accepts : Bool) (len : Nat) (deadline : Instant)

/-- What each operation answers; the `Option` of a timeout is `none` once elapsed. -/
abbrev Op.Answer : Op → Type
  | .target => Target
  | .now => Instant
  | .wallClock => Option UInt64
  | .this => Supervisor
  | .put _ => Unit
  | .trace _ => Unit
  | .spawn _ _ => Except IoError Child
  | .childId _ => Option UInt32
  | .kill _ => Unit
  | .startKill _ => Except IoError Unit
  | .wait _ => Except IoError ExitStatus
  | .waitTimeout _ _ => Option (Except IoError ExitStatus)
  | .send _ _ => Unit
  | .sleepUntil _ => Unit
  | .select _ _ _ => Wakeup
  | .startProbe _ _ => Unit
  | .roundtrip _ _ _ => Option (Except IoError (List UInt8))

/-- An asynchronous computation of the supervisor. -/
abbrev Future := Prog Op Op.Answer AutosshError

/-- The error of waiting for a process that was never spawned. -/
def noSuchProcess : IoError := ⟨10⟩

/-- `Command::spawn`. -/
def World.spawn (w : World) (path : PathBuf) (args : List String) : Except IoError Child × World :=
  let result := w.spawnResult w.spawns
  let logged := { w.log (.spawned path args result) with spawns := w.spawns + 1 }
  match result with
  | .ok pid =>
    (.ok ⟨w.procs.length⟩, { logged with procs := w.procs ++ [{ pid := pid, spawnedAt := w.now }] })
  | .error e => (.error e, logged)

/-- `Child::id`: the process id until the child has been reaped. -/
def World.childId (w : World) (c : Child) : Option UInt32 :=
  (w.procs[c.index]?).bind fun p => if p.reaped then none else some p.pid

/-- `Child::start_kill`. -/
def World.startKill (w : World) (c : Child) : Except IoError Unit × World :=
  let logged := { w.log (.killed c true) with kills := w.kills + 1 }
  match w.killError w.kills with
  | some e => (.error e, logged)
  | none => (.ok (), logged)

/-- Poll `Child::wait`: it resolves only after the process has terminated, and keeps
the status once it has been collected. -/
def World.wait (w : World) (c : Child) : Option (Except IoError ExitStatus) × World :=
  match w.procs[c.index]? with
  | none => (some (.error noSuchProcess), w)
  | some p =>
    match p.status with
    | none => (none, w)
    | some status =>
      if p.reaped then (some (.ok status), w)
      else
        match w.waitError w.waits with
        | some e => (some (.error e), { w with waits := w.waits + 1 })
        | none =>
          (some (.ok status),
            { w with waits := w.waits + 1, procs := w.procs.set c.index { p with reaped := true } })

/-- Poll `Sender::send`: a closed channel refuses the event, a full one makes it wait. -/
def World.send (w : World) (tx : Sender) (ev : SupervisorEvent) : Option Unit × World :=
  if !w.inboxOpen then (some (), w)
  else if w.inbox.length < tx.capacity then
    (some (), { w.log (.emitted ev) with inbox := w.inbox ++ [ev] })
  else (none, w)

/-- Poll the `select!` of the loop. -/
def World.select (w : World) (c : Child) (timer : Option Instant) (signals : Bool) :
    Option Wakeup × World :=
  match w.wait c with
  | (some result, w') => (some (.exited result), w')
  | (none, _) =>
    if timer.any (· ≤ w.now) then (some .timer, w)
    else if signals then
      match w.signals with
      | ev :: rest => (some (.received (some ev)), { w with signals := rest })
      | [] => if w.signalsOpen then (none, w) else (some (.received none), w)
    else (none, w)

/-- Begin a probe: the sockets of an earlier one have been dropped. -/
def World.startProbe (w : World) (port : UInt16) (payload : List UInt8) : World :=
  { w.log (.probing port payload) with
    net := { w.net with serving := none, written := none, reply := {} } }

/-- Accept the oldest waiting connection, unless the probe has one already. -/
def Net.accept (n : Net) : Option IoError × Net :=
  match n.serving with
  | some _ => (none, n)
  | none =>
    match n.acceptError with
    | some e => (some e, { n with acceptError := none })
    | none =>
      if n.taken < n.conns.length then
        (none, { n with serving := some n.taken, taken := n.taken + 1 })
      else (none, n)

/-- Poll the reader of a probe. -/
def Net.read (n : Net) (accepts : Bool) (len : Nat) :
    Option (Except IoError (List UInt8)) × Net :=
  if accepts then
    match n.accept with
    | (some e, n') => (some (.error e), n')
    | (none, n') => ((n'.serving.bind (n'.conns[·]?)).bind (·.readExact len), n')
  else (n.reply.readExact len, n)

/-- Poll a round trip: two-listener mode joins the writer and the reader, echo mode
writes before it reads; either way both have to succeed. -/
def Net.roundtrip (n : Net) (accepts : Bool) (len : Nat) :
    Option (Except IoError (List UInt8)) × Net :=
  match n.written with
  | some (.error e) => (some (.error e), n)
  | some (.ok ()) => n.read accepts len
  | none =>
    if accepts then
      match n.read accepts len with
      | (some (.error e), n') => (some (.error e), n')
      | (_, n') => (none, n')
    else (none, n)

/-- Poll the round trip under its deadline. -/
def World.roundtrip (w : World) (accepts : Bool) (len : Nat) (deadline : Instant) :
    Option (Option (Except IoError (List UInt8))) × World :=
  match w.net.roundtrip accepts len with
  | (some r, n) => (some (some r), { w.log (.probed (some r)) with net := n })
  | (none, n) =>
    if deadline ≤ w.now then (some none, { w.log (.probed none) with net := n })
    else (none, { w with net := n })

/-- Poll an operation. -/
def poll : (op : Op) → Sys → Option op.Answer × Sys
  | .target, s => (some s.world.target, s)
  | .now, s => (some s.world.now, s)
  | .wallClock, s => (some s.world.wallClock, s)
  | .this, s => (some s.sup, s)
  | .put self, s => (some (), { s with sup := self })
  | .trace mark, s => (some (), { s with world := s.world.log (.passed mark) })
  | .spawn path args, s =>
    (some (s.world.spawn path args).1, { s with world := (s.world.spawn path args).2 })
  | .childId c, s => (some (s.world.childId c), s)
  | .kill c, s => (some (), { s with world := s.world.log (.killed c false) })
  | .startKill c, s =>
    (some (s.world.startKill c).1, { s with world := (s.world.startKill c).2 })
  | .wait c, s => ((s.world.wait c).1, { s with world := (s.world.wait c).2 })
  | .waitTimeout c deadline, s =>
    match s.world.wait c with
    | (some r, w) => (some (some r), { s with world := w })
    | (none, w) => (if deadline ≤ w.now then some none else none, { s with world := w })
  | .send tx ev, s => ((s.world.send tx ev).1, { s with world := (s.world.send tx ev).2 })
  | .sleepUntil deadline, s => (if deadline ≤ s.world.now then some () else none, s)
  | .select c timer signals, s =>
    ((s.world.select c timer signals).1, { s with world := (s.world.select c timer signals).2 })
  | .startProbe port payload, s => (some (), { s with world := s.world.startProbe port payload })
  | .roundtrip accepts len deadline, s =>
    ((s.world.roundtrip accepts len deadline).1,
      { s with world := (s.world.roundtrip accepts len deadline).2 })

/-- What happens to the system between two polls. -/
def Sys.apply (s : Sys) (events : List Event) : Sys :=
  { s with world := events.foldl World.apply s.world }

/-- The host as a runtime for the supervisor's tasks. -/
def host : Runtime Op Op.Answer Sys (List Event) where
  poll := poll
  act := fun events s => s.apply events

/-- A year and more, the sleep of a deadline that cannot be represented. -/
def farFuture : Duration := Duration.fromSecs (86400 * 365 * 30)

/-- The deadline of `sleep(d)` and `timeout(d, _)` begun now. -/
def deadlineAfter (os : Target) (now : Instant) (d : Duration) : Instant :=
  (Instant.checkedAdd os now d).getD (now + farFuture)

end RustyAutossh
