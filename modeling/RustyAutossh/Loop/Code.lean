import RustyAutossh.Host.Runtime
import RustyAutossh.Source.Spawner

/-!
# The supervisor loop

`Supervisor::run` spawns the first child and then repeats one turn: check the
lifetime, await one tick of the `select!`, handle its outcome. `runFor n` is the
run cut after `n` turns, so the runs of `run` are those of all `runFor n`.
`let _ = f.await` keeps the failure of `f` from ending the caller.
-/

namespace RustyAutossh

open Async

/-- `.await` on a system call or a leaf future. -/
def await (op : Op) : Future op.Answer := Prog.perform op

/-- `?` on an I/O result. -/
def liftIo {α : Type} : Except IoError α → Future α
  | .ok a => pure a
  | .error e => .fail (.io e)

/-- Assign to fields of the supervisor. -/
def modifySelf (f : Supervisor → Supervisor) : Future Unit := do
  await (.put (f (← await .this)))

/-- `Instant::now() + d`. -/
def nowPlus (d : Duration) : Future Instant := do
  let now ← await .now
  match Instant.checkedAdd (← await .target) now d with
  | some t => pure t
  | none => .abort

/-- `tokio::time::sleep`. -/
def sleep (d : Duration) : Future Unit := do
  let now ← await .now
  await (.sleepUntil (deadlineAfter (← await .target) now d))

/-- `Supervisor::emit`. -/
def emit (ev : SupervisorEvent) : Future Unit := do
  match (← await .this).eventTx with
  | some tx => await (.send tx ev)
  | none => pure ()

/-- `spawn_ssh`. -/
def spawnSsh (sshPath : PathBuf) (args : List String) : Future Child := do
  liftIo (← await (.spawn sshPath args))

/-- `Supervisor::spawn_child`. -/
def spawnChild : Future Unit := do
  let self ← await .this
  let args := injectMonitorForwards self.monitorMode self.sshArgs
  let child ← spawnSsh self.sshPath args
  let pid := (← await (.childId child)).getD 0
  modifySelf fun self => { self with child := some child }
  let now ← await .now
  modifySelf fun self => { self with childSpawnInstant := some now }
  emit (.childSpawned pid)

/-- `Child::kill`: a forced kill, then the wait for it. -/
def Child.kill (child : Child) : Future (Except IoError Unit) := do
  match ← await (.startKill child) with
  | .error e => pure (.error e)
  | .ok () =>
    match ← await (.wait child) with
    | .error e => pure (.error e)
    | .ok _ => pure (.ok ())

/-- `if let Some(pid) = child.id() { kill(pid, SIGTERM) }`. -/
def Child.sigterm (child : Child) : Future Unit := do
  match ← await (.childId child) with
  | some _ => await (.kill child)
  | none => pure ()

/-- The Unix branch of `terminate_child`: SIGTERM, ten seconds of grace, SIGKILL. -/
def terminateUnix (child : Child) : Future (Option ExitStatus) := do
  child.sigterm
  let now ← await .now
  let deadline := deadlineAfter (← await .target) now (Duration.fromSecs 10)
  match ← await (.waitTimeout child deadline) with
  | some (.ok status) => pure (some status)
  | some (.error e) => .fail (.io e)
  | none =>
    let _ ← child.kill
    let status ← liftIo (← await (.wait child))
    pure (some status)

/-- The Windows branch of `terminate_child`: TerminateProcess without grace. -/
def terminateWindows (child : Child) : Future (Option ExitStatus) := do
  let _ ← child.kill
  let status ← liftIo (← await (.wait child))
  pure (some status)

/-- `Supervisor::terminate_child`. -/
def terminateChild : Future (Option ExitStatus) := do
  match (← await .this).child with
  | none => pure none
  | some child =>
    modifySelf fun self => { self with child := none }
    match ← await .target with
    | .unix => terminateUnix child
    | .windows => terminateWindows child

/-- `Supervisor::handle_term_int_signal`. -/
def handleTermIntSignal : Future Unit := do
  let _ ← terminateChild.attempt
  pure ()

/-- `Supervisor::handle_usr1_signal`. -/
def handleUsr1Signal : Future Unit := do
  let _ ← terminateChild.attempt
  spawnChild
  emit .childRespawned

/-- `Supervisor::handle_hup_signal`. -/
def handleHupSignal : Future Unit := do
  modifySelf fun self => { self with retryCount := 0 }
  let _ ← terminateChild.attempt
  spawnChild
  emit .childRespawned

/-- `Supervisor::handle_ctrl_c_break_signal`, the same on both platforms. -/
def handleCtrlCBreakSignal : Future Unit := do
  let _ ← terminateChild.attempt
  pure ()

/-- `ProbeError`. -/
inductive ProbeError where
  | timeout
  | io (source : IoError)
  deriving DecidableEq, Repr

/-- `ProbeLoop::probe`. -/
def ProbeLoop.probe (self : ProbeLoop) (poll : Duration) : Future (Except ProbeError Unit) := do
  let unixTs := (← await .wallClock).getD 0
  let payload := probePayload unixTs self.messageSuffix
  await (.startProbe self.ports.portIn payload)
  let now ← await .now
  let deadline := deadlineAfter (← await .target) now poll
  match ← await (.roundtrip self.listenerOut.isSome payload.length deadline) with
  | some (.ok _) => pure (.ok ())
  | some (.error e) => pure (.error (.io e))
  | none => pure (.error .timeout)

/-- `child_spawn_instant.map(|i| i.elapsed()).unwrap_or(ZERO)`. -/
def childLifetime : Future Duration := do
  match (← await .this).childSpawnInstant with
  | some i => return (← await .now) - i
  | none => pure 0

/-- The branch of the `select!` whose sleep until the next probe elapsed. -/
def probeBranch : Future (LoopOutcome × Option Instant) := do
  let self ← await .this
  match self.monitor with
  | none => pure (.signal .terminate, none)
  | some monitor =>
    match ← monitor.probe self.clock.poll with
    | .ok () =>
      let next ← nowPlus self.clock.poll
      pure (.probeOk, some next)
    | .error _ =>
      let next ← nowPlus self.clock.poll
      pure (.probeTimeout, some next)

/-- The sleep until the next probe, or a year when none is scheduled. -/
def probeSleep (now : Instant) : Option Instant → Duration
  | some t => if t > now then t - now else 0
  | none => Duration.fromSecs (60 * 60 * 24 * 365)

/-- `Supervisor::select_one_tick`, returning the new `next_probe_at` with the outcome. -/
def selectOneTick (nextProbeAt : Option Instant) : Future (LoopOutcome × Option Instant) := do
  let self ← await .this
  let now ← await .now
  match self.child with
  | none => .fail (.internal "supervisor entered select with no live child")
  | some child =>
    let deadline := deadlineAfter (← await .target) now (probeSleep now nextProbeAt)
    -- the sleep branch is enabled only `if next_probe_at.is_some()`
    let timer := if nextProbeAt.isSome then some deadline else none
    match ← await (.select child timer self.signalRx.isSome) with
    | .exited result =>
      let status ← liftIo result
      let lifetime ← childLifetime
      pure (.childExited status lifetime, nextProbeAt)
    | .timer => probeBranch
    | .received (some (.signalReceived kind)) => pure (.signal kind, nextProbeAt)
    | .received _ => pure (.signal .terminate, nextProbeAt)

/-- How a turn of the loop ends when it does not fail. -/
inductive Flow where
  | looping (nextProbeAt : Option Instant)
  | returned
  deriving DecidableEq, Repr

/-- `handle_child_exit` on the supervisor's own record, logged with the outcome it is for. -/
def respawnDecision (outcome : LoopOutcome) (status : ExitStatus) (lifetime : Duration) :
    Future RespawnDecision := do
  let (decision, self) := (← await .this).handleChildExit status lifetime
  await (.put self)
  await (.trace (.decided outcome status lifetime decision))
  pure decision

/-- The first probe after a spawn, if there is a monitor. -/
def firstProbe : Future (Option Instant) := do
  let self ← await .this
  if self.monitor.isSome then
    let next ← nowPlus self.clock.firstPoll
    pure (some next)
  else pure none

/-- The backoff and the spawn that follow a loss. -/
def respawn : Future Unit := do
  sleep (← await .this).clock.gateTime
  spawnChild
  emit .childRespawned

/-- The `LoopOutcome::ChildExited` arm of `run`. -/
def onChildExited (status : ExitStatus) (lifetime : Duration) : Future Flow := do
  emit (.childExited status)
  modifySelf fun self => { self with child := none }
  match ← respawnDecision (.childExited status lifetime) status lifetime with
  | .respawn =>
    respawn
    let next ← firstProbe
    pure (.looping next)
  | .exit .ok => pure .returned
  | .exit .maxLifetimeReached => pure .returned
  | .exit (.maxStartReached attempts) =>
    emit (.maxStartReached attempts)
    .fail (.maxStartReached attempts)
  | .exit .oneShotFailed => .fail (.maxStartReached 1)

/-- The `LoopOutcome::ProbeTimeout` arm of `run`. -/
def onProbeTimeout (nextProbeAt : Option Instant) : Future Flow := do
  emit .probeTimeout
  match ← terminateChild with
  | none => pure (.looping nextProbeAt)
  | some status =>
    emit (.childExited status)
    let lifetime ← childLifetime
    let syntheticStatus := makeFailedStatus (← await .target)
    match ← respawnDecision .probeTimeout syntheticStatus lifetime with
    | .respawn =>
      respawn
      let next ← nowPlus (← await .this).clock.firstPoll
      pure (.looping (some next))
    | .exit (.maxStartReached attempts) =>
      emit (.maxStartReached attempts)
      .fail (.maxStartReached attempts)
    | .exit _ => pure .returned

/-- The `LoopOutcome::Signal` arm of `run`. -/
def onSignal (sig : SignalKind) : Future Flow := do
  emit (.signalReceived sig)
  match sig with
  | .terminate | .interrupt =>
    handleTermIntSignal
    pure .returned
  | .ctrlBreak =>
    handleCtrlCBreakSignal
    pure .returned
  | .userDefined1 =>
    handleUsr1Signal
    let next ← firstProbe
    pure (.looping next)
  | .hangup =>
    handleHupSignal
    let next ← firstProbe
    pure (.looping next)

/-- The return through the lifetime check. -/
def onExpired : Future Flow := do
  await (.trace .expired)
  emit .maxLifetimeReached
  let _ ← terminateChild.attempt
  pure .returned

/-- The `match decision` of `run`. -/
def onOutcome (nextProbeAt : Option Instant) : LoopOutcome → Future Flow
  | .probeOk => pure (.looping nextProbeAt)
  | .childExited status lifetime => onChildExited status lifetime
  | .probeTimeout => onProbeTimeout nextProbeAt
  | .signal sig => onSignal sig

/-- One turn of the `loop` of `run`. -/
def turn (nextProbeAt : Option Instant) : Future Flow := do
  let self ← await .this
  let now ← await .now
  if self.checkLifetime now = some (.exit .maxLifetimeReached) then onExpired
  else
    let (outcome, nextProbeAt) ← selectOneTick nextProbeAt
    await (.trace (.ticked outcome))
    onOutcome nextProbeAt outcome

/-- `Supervisor::run` up to the loop: the initial spawn and the first probe. -/
def startUp : Future Flow := do
  spawnChild
  let next ← firstProbe
  pure (.looping next)

/-- `Supervisor::run` cut after `n` turns of its loop. -/
def runFor : Nat → Future Flow
  | 0 => startUp
  | n + 1 => do
    match ← runFor n with
    | .looping nextProbeAt => turn nextProbeAt
    | .returned => pure .returned

end RustyAutossh
