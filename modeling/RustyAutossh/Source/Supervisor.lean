import RustyAutossh.Source.Clock
import RustyAutossh.Source.Monitor

/-!
# The supervisor record and its pure decisions

Process handles, channel ends and instants are opaque to the supervisor, so the
two decision methods are functions of the record alone. The loop that calls
them is in `RustyAutossh.Loop.Code`.
-/

namespace RustyAutossh

/-- A handle on a child process: its position among the processes spawned so far. -/
structure Child where
  index : Nat
  deriving DecidableEq, Repr

/-- `mpsc::Sender`: a bounded channel has room for at least one event. -/
structure Sender where
  capacity : Nat
  pos : 0 < capacity
  deriving DecidableEq, Repr

/-- `mpsc::Receiver` of the signal events. -/
structure Receiver where
  deriving DecidableEq, Repr

/-- `Supervisor`. -/
structure Supervisor where
  child : Option Child
  monitor : Option ProbeLoop
  clock : PollClock
  monitorMode : MonitorMode
  sshPath : PathBuf
  sshArgs : List String
  retryCount : UInt32
  lifetimeStart : Instant
  childSpawnInstant : Option Instant
  eventTx : Option Sender
  signalRx : Option Receiver
  oneShot : Bool
  deriving DecidableEq, Repr

/-- `ExitReason`. -/
inductive ExitReason where
  | ok
  | maxStartReached (attempts : UInt32)
  | maxLifetimeReached
  | oneShotFailed
  deriving DecidableEq, Repr

/-- `RespawnDecision`. -/
inductive RespawnDecision where
  | respawn
  | exit (reason : ExitReason)
  deriving DecidableEq, Repr

/-- `LoopOutcome`. -/
inductive LoopOutcome where
  | childExited (status : ExitStatus) (lifetime : Duration)
  | probeOk
  | probeTimeout
  | signal (kind : SignalKind)
  deriving DecidableEq, Repr

/-- `make_failed_status`: the raw encoding of exit code one. -/
def makeFailedStatus : Target → ExitStatus
  | .unix => ⟨256⟩
  | .windows => ⟨1⟩

@[simp] theorem success_makeFailedStatus (os : Target) :
    (makeFailedStatus os).success = false := by
  cases os <;> rfl

/-- `Supervisor::handle_child_exit`: the decision, and the record it leaves. -/
def Supervisor.handleChildExit (self : Supervisor) (status : ExitStatus)
    (lifetime : Duration) : RespawnDecision × Supervisor :=
  if self.oneShot && !status.success then (.exit .oneShotFailed, self)
  else if status.success then
    match self.monitorMode with
    | .none => (.exit .ok, self)
    | .active _ _ => (.respawn, { self with retryCount := 0 })
  else if lifetime ≥ self.clock.gateTime then (.respawn, { self with retryCount := 0 })
  else
    let retryCount := saturatingAddU32 self.retryCount 1
    let self' := { self with retryCount := retryCount }
    match self.clock.maxStart with
    | some cap =>
      if retryCount ≥ cap then (.exit (.maxStartReached retryCount), self') else (.respawn, self')
    | none => (.respawn, self')

/-- `Supervisor::check_lifetime`, reading the clock once. -/
def Supervisor.checkLifetime (self : Supervisor) (now : Instant) : Option RespawnDecision :=
  match self.clock.maxLifetime with
  | none => none
  | some max =>
    if now - self.lifetimeStart ≥ max then some (.exit .maxLifetimeReached) else none

/-- Everything `handleChildExit` can decide, with what it tested and what it stored. -/
inductive Decides (self : Supervisor) (status : ExitStatus) (lifetime : Duration) :
    RespawnDecision → Supervisor → Prop
  | oneShot : self.oneShot = true → status.success = false →
      Decides self status lifetime (.exit .oneShotFailed) self
  | finished : status.success = true → self.monitorMode = .none →
      Decides self status lifetime (.exit .ok) self
  | cleanReset : status.success = true → self.monitorMode ≠ .none →
      Decides self status lifetime .respawn { self with retryCount := 0 }
  | longReset : self.oneShot = false → status.success = false →
      self.clock.gateTime ≤ lifetime →
      Decides self status lifetime .respawn { self with retryCount := 0 }
  | short : self.oneShot = false → status.success = false → lifetime < self.clock.gateTime →
      (∀ cap, self.clock.maxStart = some cap → saturatingAddU32 self.retryCount 1 < cap) →
      Decides self status lifetime .respawn
        { self with retryCount := saturatingAddU32 self.retryCount 1 }
  | capped (cap : UInt32) : self.oneShot = false → status.success = false →
      lifetime < self.clock.gateTime → self.clock.maxStart = some cap →
      cap ≤ saturatingAddU32 self.retryCount 1 →
      Decides self status lifetime (.exit (.maxStartReached (saturatingAddU32 self.retryCount 1)))
        { self with retryCount := saturatingAddU32 self.retryCount 1 }

/-- `handleChildExit` makes one of the decisions listed. -/
theorem Supervisor.handleChildExit_decides (self : Supervisor) (status : ExitStatus)
    (lifetime : Duration) :
    Decides self status lifetime (self.handleChildExit status lifetime).1
      (self.handleChildExit status lifetime).2 := by
  unfold Supervisor.handleChildExit
  split
  · rename_i h
    simp only [Bool.and_eq_true, Bool.not_eq_true'] at h
    exact .oneShot h.1 h.2
  · rename_i hone
    split
    · rename_i hsucc
      split
      · rename_i hmode
        exact .finished hsucc hmode
      · rename_i hmode
        exact .cleanReset hsucc (by simp [hmode])
    · rename_i hfail
      have hfail' : status.success = false := by simpa using hfail
      have hone' : self.oneShot = false := by simpa [hfail'] using hone
      split
      · rename_i hlong
        exact .longReset hone' hfail' hlong
      · rename_i hshort
        have hlt : lifetime < self.clock.gateTime := Nat.lt_of_not_le hshort
        dsimp only
        split
        · rename_i cap hcap
          split
          · rename_i hge
            exact .capped cap hone' hfail' hlt hcap hge
          · rename_i hlt'
            refine .short hone' hfail' hlt fun c hc => ?_
            rw [hcap, Option.some.injEq] at hc
            exact hc ▸ UInt32.not_le.mp hlt'
        · rename_i hcap
          exact .short hone' hfail' hlt (by simp [hcap])

/-- The deadline has passed exactly when the check says so. -/
theorem Supervisor.checkLifetime_eq_some {self : Supervisor} {now : Instant} :
    self.checkLifetime now = some (.exit .maxLifetimeReached) ↔
      ∃ max, self.clock.maxLifetime = some max ∧ max ≤ now - self.lifetimeStart := by
  unfold Supervisor.checkLifetime
  cases self.clock.maxLifetime with
  | none => simp
  | some max => simp

end RustyAutossh
