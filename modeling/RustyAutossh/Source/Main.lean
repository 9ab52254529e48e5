import RustyAutossh.Source.SshSupervisor
import RustyAutossh.Source.Strict

/-!
# The dispatchers

`run` resolves the mode and calls one of two dispatchers. `runDefault` and `runStrict` turn
the arguments and the environment into the supervisor that is run, or into an exit code.
The default arguments are parsed by clap, so its result is an argument here; what detaching
the process does is given by the host.
-/

namespace RustyAutossh

/-- The subcommand, whose shell only the script it prints depends on. -/
inductive Subcommand where
  | completions
  deriving DecidableEq, Repr

/-- The fields of `Cli` the dispatcher reads. -/
structure Cli where
  monitor : Option String := none
  background : Bool := false
  oneShot : Bool := false
  poll : Option UInt64 := none
  firstPoll : Option UInt64 := none
  gateTime : Option UInt64 := none
  maxStart : Option Int64 := none
  maxLifetime : Option UInt64 := none
  sshPath : Option PathBuf := none
  pidFile : Option PathBuf := none
  logFile : Option PathBuf := none
  command : Option Subcommand := none
  sshArgs : List String := []

/-- `SshSupervisorBuilder`. -/
structure SshSupervisorBuilder where
  sshArgs : List String := []
  monitorMode : MonitorMode := .none
  sshPath : Option PathBuf := none
  poll : Option Duration := none
  firstPoll : Option Duration := none
  gateTime : Option Duration := none
  maxStart : Option (Option UInt32) := none
  maxLifetime : Option (Option Duration) := none
  eventSender : Option Sender := none
  message : Option String := none
  compatibilityMode : CompatibilityMode := .default
  oneShot : Bool := false
  pidfilePath : Option PathBuf := none
  logfilePath : Option PathBuf := none

/-- `SshSupervisorBuilder::build`, which never fails. -/
def SshSupervisorBuilder.build (self : SshSupervisorBuilder) : SshSupervisor where
  sshArgs := self.sshArgs
  monitorMode := self.monitorMode
  sshPath := self.sshPath
  poll := self.poll.getD (Duration.fromSecs 600)
  firstPoll := self.firstPoll
  gateTime := self.gateTime.getD (Duration.fromSecs 30)
  maxStart := self.maxStart.getD none
  maxLifetime := self.maxLifetime.getD none
  eventSender := self.eventSender
  message := self.message
  compatibilityMode := self.compatibilityMode
  oneShot := self.oneShot
  pidfilePath := self.pidfilePath
  logfilePath := self.logfilePath

/-- `str::parse::<u16>`. -/
def parseU16 (s : String) : Option UInt16 :=
  ((parseU64 s).filter (· < 2 ^ 16)).map UInt16.ofNat

/-- `str::split_once` at a character. -/
def splitOnce (c : Char) (s : String) : Option (String × String) :=
  match s.toList.dropWhile (· ≠ c) with
  | [] => none
  | _ :: after => some (String.ofList (s.toList.takeWhile (· ≠ c)), String.ofList after)

/-- `parse_monitor_value`. -/
def parseMonitorValue (val : Option String) : Except String MonitorMode :=
  match val with
  | none => .ok .none
  | some s =>
    match splitOnce ':' s with
    | some (p, e) =>
      match parseU16 p with
      | none => .error ("invalid -M port '" ++ p ++ "'")
      | some port =>
        match parseU16 e with
        | none => .error ("invalid -M echo '" ++ e ++ "'")
        | some echo => if port = 0 then .ok .none else .ok (.active port (some echo))
    | none =>
      match parseU16 s with
      | none => .error ("invalid -M port '" ++ s ++ "'")
      | some port => if port = 0 then .ok .none else .ok (.active port none)

example : parseMonitorValue (some "20000:7") = .ok (.active 20000 (some 7)) := by rfl

example : parseMonitorValue (some "0:x") = .error "invalid -M echo 'x'" := by rfl

/-- The clock flags of the default dispatcher. -/
def Cli.clockFlags (cli : Cli) : ClockFlags where
  poll := cli.poll.map fun n => Duration.fromSecs n.toNat
  firstPoll := cli.firstPoll.map fun n => Duration.fromSecs n.toNat
  gateTime := cli.gateTime.map fun n => Duration.fromSecs n.toNat
  -- `n as u32` keeps the low 32 bits
  maxStart := cli.maxStart.map fun n =>
    if n < 0 then none else some (UInt32.ofNat n.toInt.toNat)
  maxLifetime := cli.maxLifetime.map fun n =>
    if n = 0 then none else some (Duration.fromSecs n.toNat)

/-- `pidfile_path_from_cli_or_env`. -/
def pidfilePathFromCliOrEnv (cliPath : Option PathBuf) (env : EnvSnapshot) : Option PathBuf :=
  match cliPath with
  | some p => some p
  | none => env.vars "AUTOSSH_PIDFILE"

/-- `logfile_path_from_cli_or_env`. -/
def logfilePathFromCliOrEnv (cliPath : Option PathBuf) (env : EnvSnapshot) : Option PathBuf :=
  match cliPath with
  | some p => some p
  | none => env.vars "AUTOSSH_LOGFILE"

/-- `map_error`. -/
def mapError : AutosshError → UInt8
  | .sshNotFound _ => 1
  | .maxStartReached _ => 1
  | _ => 2

/-- `map_strict_error`. -/
def mapStrictError : AutosshError → UInt8
  | .sshNotFound _ => 1
  | .maxStartReached _ => 1
  | _ => 2

/-- What detaching does to the process on a host. -/
structure DaemonHost where
  target : Target
  /-- `daemonize_unix` with the log path, in the process that goes on. -/
  daemonizeUnix : Option PathBuf → Except AutosshError Unit
  /-- `detach_windows`. -/
  detachWindows : Except AutosshError Unit

/-- How `perform_daemonize_default` ends. -/
inductive Daemonized where
  | returns
  | exits (code : UInt8)
  | fails (e : AutosshError)
  deriving DecidableEq, Repr

/-- `perform_daemonize_default`. -/
def performDaemonizeDefault (host : DaemonHost) (logfile : Option PathBuf) (env : EnvSnapshot) :
    Daemonized :=
  match host.target with
  | .unix =>
    match host.daemonizeUnix (logfile.or (env.vars "AUTOSSH_LOGFILE")) with
    | .ok () => .returns
    | .error e => .fails e
  | .windows =>
    if (env.vars "RUSTY_AUTOSSH_DETACHED").isSome then .returns
    else
      match host.detachWindows with
      | .ok () => .exits 0
      | .error e => .fails e

/-- What a dispatcher comes to: the process exits, or a supervisor is run. -/
inductive Dispatch where
  | exit (code : UInt8)
  | run (supervisor : SshSupervisor)

/-- The end of a dispatcher: the process is detached if asked for, and the supervisor run. -/
def dispatch (background : Bool) (daemonized : Daemonized) (onError : AutosshError → UInt8)
    (builder : SshSupervisorBuilder) : Dispatch :=
  if background then
    match daemonized with
    | .returns => .run builder.build
    | .exits code => .exit code
    | .fails e => .exit (onError e)
  else .run builder.build

/-- `run_default`, from what clap makes of the arguments, up to the run of the supervisor. -/
def runDefault (host : DaemonHost) (env : EnvSnapshot) (parsed : Except UInt8 Cli) : Dispatch :=
  match parsed with
  | .error code => .exit code
  | .ok cli =>
    match cli.command with
    | some .completions => .exit 0
    | none =>
      match parseMonitorValue cli.monitor with
      | .error _ => .exit 2
      | .ok monitorMode =>
        let clock := PollClock.resolveFromEnvAndFlags env cli.clockFlags cli.background
        let builder : SshSupervisorBuilder :=
          { sshArgs := cli.sshArgs, monitorMode := monitorMode, poll := some clock.poll,
            firstPoll := some clock.firstPoll, gateTime := some clock.gateTime,
            maxStart := some clock.maxStart, maxLifetime := some clock.maxLifetime,
            oneShot := cli.oneShot }
        let builder := match cli.sshPath with
          | some path => { builder with sshPath := some path }
          | none => builder
        let builder := match env.getStr "AUTOSSH_MESSAGE" with
          | some msg => { builder with message := some msg }
          | none => builder
        let builder := match pidfilePathFromCliOrEnv cli.pidFile env with
          | some path => { builder with pidfilePath := some path }
          | none => builder
        let builder := match logfilePathFromCliOrEnv cli.logFile env with
          | some path => { builder with logfilePath := some path }
          | none => builder
        dispatch cli.background (performDaemonizeDefault host cli.logFile env) mapError builder

/-- `run_strict` up to the run of the supervisor. -/
def runStrict (host : DaemonHost) (env : EnvSnapshot) (args : List OsString) : Dispatch :=
  match parseArgv args with
  | .error _ => .exit 1
  | .ok parsed =>
    if parsed.version then .exit 0
    else
      match parseMonitorValue parsed.monitor with
      | .error _ => .exit 1
      | .ok monitorMode =>
        let clock := PollClock.resolveFromEnvAndFlags env {} parsed.background
        let builder : SshSupervisorBuilder :=
          { sshArgs := parsed.sshArgs, monitorMode := monitorMode, poll := some clock.poll,
            firstPoll := some clock.firstPoll, gateTime := some clock.gateTime,
            maxStart := some clock.maxStart, maxLifetime := some clock.maxLifetime,
            oneShot := parsed.oneShot, compatibilityMode := .strict }
        let builder := match env.getStr "AUTOSSH_MESSAGE" with
          | some msg => { builder with message := some msg }
          | none => builder
        let builder := match env.vars "AUTOSSH_PIDFILE" with
          | some path => { builder with pidfilePath := some path }
          | none => builder
        let builder := match env.vars "AUTOSSH_LOGFILE" with
          | some path => { builder with logfilePath := some path }
          | none => builder
        dispatch parsed.background (performDaemonizeDefault host none env) mapStrictError builder

/-- `&argv[start..]`, which panics exactly where this is `none`. -/
def sliceFrom (argv : List OsString) (start : Nat) : Option (List OsString) :=
  if start ≤ argv.length then some (argv.drop start) else none

/-- The `argv0` of `run`. -/
def argv0 (argv : List OsString) : OsString := argv.head?.getD (.utf8 "rusty-autossh")

/-- The mode `run` resolves, or `none` where it panics. -/
def runMode (target : Target) (env : EnvSnapshot) (argv : List OsString) :
    Option CompatibilityMode :=
  (sliceFrom argv 1).map fun args => resolve target args env (argv0 argv)

/-- `run` for the arguments of a process, which clap reads with `tryParse`; `none` where it
panics. -/
def run (host : DaemonHost) (env : EnvSnapshot) (tryParse : List OsString → Except UInt8 Cli)
    (argv : List OsString) : Option Dispatch :=
  match runMode host.target env argv with
  | some .strict => (sliceFrom argv 1).map (runStrict host env)
  | some .default => some (runDefault host env (tryParse argv))
  | none => none

end RustyAutossh
