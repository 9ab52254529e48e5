import RustyAutossh.Source.Mode
import RustyAutossh.Source.Supervisor

/-!
# The library's supervisor and the record it runs

`SshSupervisor::run` resolves the ssh binary, binds the monitor listeners and hands
the ports they got to the loop's own record. The pure parts are here; the order of
its effects is in `RustyAutossh.Loop.Startup`.
-/

namespace RustyAutossh

/-- `SshSupervisor`. -/
structure SshSupervisor where
  sshArgs : List String
  monitorMode : MonitorMode
  sshPath : Option PathBuf
  poll : Duration
  firstPoll : Option Duration
  gateTime : Duration
  maxStart : Option UInt32
  maxLifetime : Option Duration
  eventSender : Option Sender
  message : Option String
  compatibilityMode : CompatibilityMode
  oneShot : Bool
  pidfilePath : Option PathBuf
  logfilePath : Option PathBuf

/-- What a process finds on its platform: two variables of its environment, and how
paths are split and joined there. -/
structure Platform where
  target : Target
  /-- `AUTOSSH_PATH`. -/
  autosshPath : Option OsString
  /-- `PATH`. -/
  path : Option OsString
  /-- `std::env::split_paths`. -/
  splitPaths : OsString → List PathBuf
  /-- `Path::join`. -/
  join : PathBuf → String → PathBuf

/-- The names under which a directory is searched for ssh, in order. -/
def sshNames : Target → List String
  | .unix => ["ssh"]
  | .windows => ["ssh.exe", "ssh"]

/-- `resolve_ssh_path`, over the files that exist. -/
def resolveSshPath (platform : Platform) (isFile : PathBuf → Bool) :
    Except AutosshError PathBuf :=
  match platform.autosshPath with
  | some candidate => .ok candidate
  | none =>
    match platform.path with
    | none => .error (.sshNotFound [])
    | some path =>
      let dirs := platform.splitPaths path
      let candidates := dirs.flatMap fun dir =>
        (sshNames platform.target).map (platform.join dir)
      match candidates.find? isFile with
      | some found => .ok found
      | none => .error (.sshNotFound dirs)

/-- The monitor mode given to the loop: the port is the one that was bound. -/
def SshSupervisor.boundMode (self : SshSupervisor) (monitor : Option ProbeLoop) : MonitorMode :=
  match self.monitorMode, monitor with
  | .active _ (some echo), some m => .active m.ports.portIn (some echo)
  | .active _ none, some m => .active m.ports.portIn none
  | mode, _ => mode

/-- The clock given to the loop. -/
def SshSupervisor.clock (self : SshSupervisor) : PollClock where
  poll := self.poll
  firstPoll := self.firstPoll.getD self.poll
  gateTime := self.gateTime
  maxStart := self.maxStart
  maxLifetime := self.maxLifetime

/-- The record `SshSupervisor::run` builds for the loop. -/
def SshSupervisor.supervisor (self : SshSupervisor) (sshPath : PathBuf)
    (monitor : Option ProbeLoop) (now : Instant) : Supervisor where
  child := none
  monitor := monitor
  clock := self.clock
  monitorMode := self.boundMode monitor
  sshPath := sshPath
  sshArgs := self.sshArgs
  retryCount := 0
  lifetimeStart := now
  childSpawnInstant := none
  eventTx := self.eventSender
  signalRx := some {}
  oneShot := self.oneShot

/-- A mode with a monitor keeps its echo port. -/
theorem SshSupervisor.boundMode_active {self : SshSupervisor} {port : UInt16}
    {echo : Option UInt16} (h : self.monitorMode = .active port echo) (loop : ProbeLoop) :
    self.boundMode (some loop) = .active loop.ports.portIn echo := by
  unfold SshSupervisor.boundMode
  rw [h]
  cases echo <;> rfl

end RustyAutossh
