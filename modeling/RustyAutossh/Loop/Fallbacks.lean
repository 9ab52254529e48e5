import RustyAutossh.Loop.Runs

/-!
# The loop with its fallback arms left open

Four arms of the loop are there for states it should never be in. Here they are
parameters; with the source's own arms for them the loop is the one of the source.
-/

namespace RustyAutossh

open Async Runtime

/-- What the loop does in its fallback arms. -/
structure Fallbacks where
  /-- No child when `select_one_tick` is entered. -/
  noChild : Future (LoopOutcome × Option Instant)
  /-- No monitor when the probe timer fires. -/
  noMonitor : Future (LoopOutcome × Option Instant)
  /-- No spawn instant when a lifetime is computed. -/
  noAge : Future Duration
  /-- No child for `terminate_child` to terminate after a probe timeout. -/
  notTerminated : Option Instant → Future Flow

/-- The arms of the source. -/
def Fallbacks.source : Fallbacks where
  noChild := .fail (.internal "supervisor entered select with no live child")
  noMonitor := pure (.signal .terminate, none)
  noAge := pure 0
  notTerminated next := pure (.looping next)

/-- `childLifetime` with an open arm. -/
def childLifetimeWith (arms : Fallbacks) : Future Duration := do
  match (← await .this).childSpawnInstant with
  | some i => return (← await .now) - i
  | none => arms.noAge

/-- `probeBranch` with an open arm. -/
def probeBranchWith (arms : Fallbacks) : Future (LoopOutcome × Option Instant) := do
  let self ← await .this
  match self.monitor with
  | none => arms.noMonitor
  | some monitor =>
    match ← monitor.probe self.clock.poll with
    | .ok () =>
      let next ← nowPlus self.clock.poll
      pure (.probeOk, some next)
    | .error _ =>
      let next ← nowPlus self.clock.poll
      pure (.probeTimeout, some next)

/-- `selectOneTick` with open arms. -/
def selectOneTickWith (arms : Fallbacks) (nextProbeAt : Option Instant) :
    Future (LoopOutcome × Option Instant) := do
  let self ← await .this
  let now ← await .now
  match self.child with
  | none => arms.noChild
  | some child =>
    let deadline := deadlineAfter (← await .target) now (probeSleep now nextProbeAt)
    let timer := if nextProbeAt.isSome then some deadline else none
    match ← await (.select child timer self.signalRx.isSome) with
    | .exited result =>
      let status ← liftIo result
      let lifetime ← childLifetimeWith arms
      pure (.childExited status lifetime, nextProbeAt)
    | .timer => probeBranchWith arms
    | .received (some (.signalReceived kind)) => pure (.signal kind, nextProbeAt)
    | .received _ => pure (.signal .terminate, nextProbeAt)

/-- `onProbeTimeout` with open arms. -/
def onProbeTimeoutWith (arms : Fallbacks) (nextProbeAt : Option Instant) : Future Flow := do
  emit .probeTimeout
  match ← terminateChild with
  | none => arms.notTerminated nextProbeAt
  | some status =>
    emit (.childExited status)
    let lifetime ← childLifetimeWith arms
    let syntheticStatus := makeFailedStatus (← await .target)
    match ← respawnDecision .probeTimeout syntheticStatus lifetime with
    | .respawn =>
      respawn
      let next ← nowPlus (← await .this).clock.firstPoll
      pure (.looping (some next))
    | .exit (.maxStartReached attempts) =>
      emit (.maxStartReached attempts)
      .fail (.maxStartReached attempts)
    | .exit _ => pure .returned

/-- `onOutcome` with open arms. -/
def onOutcomeWith (arms : Fallbacks) (nextProbeAt : Option Instant) : LoopOutcome → Future Flow
  | .probeTimeout => onProbeTimeoutWith arms nextProbeAt
  | outcome => onOutcome nextProbeAt outcome

/-- `turn` with open arms. -/
def turnWith (arms : Fallbacks) (nextProbeAt : Option Instant) : Future Flow := do
  let self ← await .this
  let now ← await .now
  if self.checkLifetime now = some (.exit .maxLifetimeReached) then onExpired
  else
    let (outcome, nextProbeAt) ← selectOneTickWith arms nextProbeAt
    await (.trace (.ticked outcome))
    onOutcomeWith arms nextProbeAt outcome

/-- `runFor` with open arms. -/
def runForWith (arms : Fallbacks) : Nat → Future Flow
  | 0 => startUp
  | n + 1 => do
    match ← runForWith arms n with
    | .looping nextProbeAt => turnWith arms nextProbeAt
    | .returned => pure .returned

/-- With the source's arms a turn is the turn of the source. -/
theorem turnWith_source (next : Option Instant) : turnWith .source next = turn next := by
  have hselect : selectOneTickWith .source = selectOneTick := rfl
  have houtcome : ∀ next outcome, onOutcomeWith .source next outcome = onOutcome next outcome := by
    intro next outcome
    cases outcome <;> rfl
  unfold turnWith turn
  simp only [hselect, houtcome]

/-- With the source's arms the loop is the loop of the source. -/
theorem runForWith_source (n : Nat) : runForWith .source n = runFor n := by
  induction n with
  | zero => rfl
  | succ n ih =>
    unfold runForWith runFor
    rw [ih]
    congr
    funext flow
    cases flow with
    | looping next => exact turnWith_source next
    | returned => rfl

end RustyAutossh
