import RustyAutossh.Source.Main
import RustyAutossh.Loop.Startup

/-!
# Which setting wins

The supervisor a dispatcher runs takes a setting from the command line, else from the
environment, else the default. Two settings fall out: no dispatcher looks at the port
variable, and a message that is not UTF-8 is dropped.
-/

namespace RustyAutossh

/-- The settings a command line gives. -/
structure Requested where
  monitor : Option String
  sshPath : Option PathBuf
  pidFile : Option PathBuf
  logFile : Option PathBuf

/-- The settings of the default arguments. -/
def Cli.requested (cli : Cli) : Requested := ⟨cli.monitor, cli.sshPath, cli.pidFile, cli.logFile⟩

/-- The settings of the strict arguments, which have a flag only for the monitor. -/
def StrictArgs.requested (args : StrictArgs) : Requested := ⟨args.monitor, none, none, none⟩

/-- How the supervisor that is run comes from the settings, the environment and the clock. -/
structure BuiltFrom (req : Requested) (env : EnvSnapshot) (clock : PollClock)
    (s : SshSupervisor) : Prop where
  monitor : parseMonitorValue req.monitor = .ok s.monitorMode
  sshPath : s.sshPath = req.sshPath
  message : s.message = env.getStr "AUTOSSH_MESSAGE"
  pidfile : s.pidfilePath = req.pidFile.or (env.vars "AUTOSSH_PIDFILE")
  logfile : s.logfilePath = req.logFile.or (env.vars "AUTOSSH_LOGFILE")
  clock : s.clock = clock

/-- What is run is what was built. -/
theorem dispatch_eq_run {background : Bool} {daemonized : Daemonized}
    {onError : AutosshError → UInt8} {builder : SshSupervisorBuilder} {s : SshSupervisor}
    (h : dispatch background daemonized onError builder = .run s) : s = builder.build := by
  unfold dispatch at h
  split at h
  · split at h <;> cases h
    rfl
  · cases h
    rfl

theorem pidfilePathFromCliOrEnv_eq (cliPath : Option PathBuf) (env : EnvSnapshot) :
    pidfilePathFromCliOrEnv cliPath env = cliPath.or (env.vars "AUTOSSH_PIDFILE") := by
  cases cliPath <;> rfl

theorem logfilePathFromCliOrEnv_eq (cliPath : Option PathBuf) (env : EnvSnapshot) :
    logfilePathFromCliOrEnv cliPath env = cliPath.or (env.vars "AUTOSSH_LOGFILE") := by
  cases cliPath <;> rfl

/-- Past its checks the default dispatcher ends with a builder made so. -/
theorem runDefault_eq_dispatch (host : DaemonHost) (env : EnvSnapshot) {cli : Cli}
    {mode : MonitorMode} (hcommand : cli.command = none)
    (hmonitor : parseMonitorValue cli.monitor = .ok mode) :
    ∃ builder : SshSupervisorBuilder,
      BuiltFrom cli.requested env
        (PollClock.resolveFromEnvAndFlags env cli.clockFlags cli.background) builder.build ∧
      runDefault host env (.ok cli) =
        dispatch cli.background (performDaemonizeDefault host cli.logFile env) mapError builder := by
  simp only [runDefault, hcommand, hmonitor, pidfilePathFromCliOrEnv_eq,
    logfilePathFromCliOrEnv_eq]
  refine ⟨_, ?_, rfl⟩
  cases hpath : cli.sshPath <;> cases hmessage : env.getStr "AUTOSSH_MESSAGE" <;>
    cases hpid : cli.pidFile.or (env.vars "AUTOSSH_PIDFILE") <;>
    cases hlog : cli.logFile.or (env.vars "AUTOSSH_LOGFILE") <;>
    exact ⟨hmonitor, hpath.symm, hmessage.symm, hpid.symm, hlog.symm, rfl⟩

/-- Past its checks the strict dispatcher does too. -/
theorem runStrict_eq_dispatch (host : DaemonHost) (env : EnvSnapshot) {args : List OsString}
    {parsed : StrictArgs} {mode : MonitorMode} (hparse : parseArgv args = .ok parsed)
    (hversion : parsed.version = false) (hmonitor : parseMonitorValue parsed.monitor = .ok mode) :
    ∃ builder : SshSupervisorBuilder,
      BuiltFrom parsed.requested env
        (PollClock.resolveFromEnvAndFlags env {} parsed.background) builder.build ∧
      runStrict host env args =
        dispatch parsed.background (performDaemonizeDefault host none env) mapStrictError
          builder := by
  simp only [runStrict, hparse, hversion, hmonitor]
  refine ⟨_, ?_, rfl⟩
  cases hmessage : env.getStr "AUTOSSH_MESSAGE" <;>
    cases hpid : env.vars "AUTOSSH_PIDFILE" <;> cases hlog : env.vars "AUTOSSH_LOGFILE" <;>
    exact ⟨hmonitor, rfl, hmessage.symm, hpid.symm, hlog.symm, rfl⟩

/-- The supervisor of the default dispatcher. -/
theorem runDefault_builtFrom {host : DaemonHost} {env : EnvSnapshot} {cli : Cli}
    {s : SshSupervisor} (h : runDefault host env (.ok cli) = .run s) :
    BuiltFrom cli.requested env
      (PollClock.resolveFromEnvAndFlags env cli.clockFlags cli.background) s := by
  cases hcommand : cli.command with
  | some command =>
    simp only [runDefault, hcommand] at h
    cases h
  | none =>
    cases hmonitor : parseMonitorValue cli.monitor with
    | error msg =>
      simp only [runDefault, hcommand, hmonitor] at h
      cases h
    | ok mode =>
      obtain ⟨builder, hbuilt, heq⟩ := runDefault_eq_dispatch host env hcommand hmonitor
      rwa [dispatch_eq_run (heq.symm.trans h)]

/-- The supervisor of the strict dispatcher. -/
theorem runStrict_builtFrom {host : DaemonHost} {env : EnvSnapshot} {args : List OsString}
    {s : SshSupervisor} (h : runStrict host env args = .run s) :
    ∃ parsed, parseArgv args = .ok parsed ∧ BuiltFrom parsed.requested env
      (PollClock.resolveFromEnvAndFlags env {} parsed.background) s := by
  cases hparse : parseArgv args with
  | error e =>
    simp only [runStrict, hparse] at h
    cases h
  | ok parsed =>
    refine ⟨parsed, rfl, ?_⟩
    cases hversion : parsed.version with
    | true =>
      simp only [runStrict, hparse, hversion] at h
      cases h
    | false =>
      cases hmonitor : parseMonitorValue parsed.monitor with
      | error msg =>
        simp only [runStrict, hparse, hversion, hmonitor] at h
        cases h
      | ok mode =>
        obtain ⟨builder, hbuilt, heq⟩ := runStrict_eq_dispatch host env hparse hversion hmonitor
        rwa [dispatch_eq_run (heq.symm.trans h)]

/-- The monitor mode the settings ask for: the flag's value, else the variable's, which has
to be text. -/
def monitorSetting (req : Requested) (env : EnvSnapshot) : Except String MonitorMode :=
  match req.monitor with
  | some value => parseMonitorValue (some value)
  | none =>
    match env.vars "AUTOSSH_PORT" with
    | none => .ok .none
    | some (.utf8 value) => parseMonitorValue (some value)
    | some (.other _) => .error "invalid AUTOSSH_PORT"

/-- The platform's two variables are those of the environment. -/
def Platform.InEnv (platform : Platform) (env : EnvSnapshot) : Prop :=
  platform.autosshPath = env.vars "AUTOSSH_PATH" ∧ platform.path = env.vars "PATH"

/-- The supervisor takes each setting from the command line, else from the environment, else
the default: no monitor, the search for ssh, no pidfile, no logfile, no message. -/
structure Uses (req : Requested) (env : EnvSnapshot) (s : SshSupervisor) : Prop where
  monitor : monitorSetting req env = .ok s.monitorMode
  ssh : ∀ (m : Machine) (site : Site), m.InEnv env → s.resolve m site =
    resolveSshPath { m.toPlatform with autosshPath := req.sshPath.or (env.vars "AUTOSSH_PATH") }
      fun p => (site.files p).isSome
  pidfile : s.pidfilePath = req.pidFile.or (env.vars "AUTOSSH_PIDFILE")
  logfile : s.logfilePath = req.logFile.or (env.vars "AUTOSSH_LOGFILE")
  message : s.message.map .utf8 = env.vars "AUTOSSH_MESSAGE"

/-- The port variable adds nothing to the command line, and the message is text. -/
structure Honours (req : Requested) (env : EnvSnapshot) : Prop where
  port : req.monitor = none → ∀ value, env.vars "AUTOSSH_PORT" = some value →
    ∃ text, value = .utf8 text ∧ parseMonitorValue (some text) = .ok .none
  message : ∀ value, env.vars "AUTOSSH_MESSAGE" = some value → ∃ text, value = .utf8 text

/-- The flag's value is honoured; the variable's only where it asks for no monitor. -/
theorem BuiltFrom.monitor_iff {req : Requested} {env : EnvSnapshot} {clock : PollClock}
    {s : SshSupervisor} (h : BuiltFrom req env clock s) :
    monitorSetting req env = .ok s.monitorMode ↔
      (req.monitor = none → ∀ value, env.vars "AUTOSSH_PORT" = some value →
        ∃ text, value = .utf8 text ∧ parseMonitorValue (some text) = .ok .none) := by
  have hmode := h.monitor
  unfold monitorSetting
  cases hreq : req.monitor with
  | some value =>
    rw [hreq] at hmode
    exact ⟨fun _ hnone => absurd hnone (by simp), fun _ => hmode⟩
  | none =>
    rw [hreq] at hmode
    rw [← Except.ok.inj hmode]
    cases hport : env.vars "AUTOSSH_PORT" with
    | none => exact ⟨fun _ _ value hvalue => absurd hvalue (by simp), fun _ => rfl⟩
    | some value =>
      cases value with
      | utf8 text =>
        constructor
        · rintro htext - value hvalue
          obtain rfl := Option.some.inj hvalue
          exact ⟨text, rfl, htext⟩
        · intro hall
          obtain ⟨text', heq, htext⟩ := hall rfl _ rfl
          cases heq
          exact htext
      | other bytes =>
        constructor
        · intro hother
          cases hother
        · intro hall
          obtain ⟨text', heq, -⟩ := hall rfl _ rfl
          cases heq

/-- The message is the variable's exactly where that is text. -/
theorem BuiltFrom.message_iff {req : Requested} {env : EnvSnapshot} {clock : PollClock}
    {s : SshSupervisor} (h : BuiltFrom req env clock s) :
    s.message.map .utf8 = env.vars "AUTOSSH_MESSAGE" ↔
      ∀ value, env.vars "AUTOSSH_MESSAGE" = some value → ∃ text, value = .utf8 text := by
  rw [h.message, EnvSnapshot.getStr]
  cases env.vars "AUTOSSH_MESSAGE" with
  | none => simp
  | some value =>
    cases value with
    | utf8 text => simp [OsString.toStr]
    | other bytes => simp [OsString.toStr]

/-- The ssh binary is the flag's, else the variable's, else searched for. -/
theorem BuiltFrom.ssh {req : Requested} {env : EnvSnapshot} {clock : PollClock}
    {s : SshSupervisor} (h : BuiltFrom req env clock s) (m : Machine) (site : Site)
    (henv : m.InEnv env) : s.resolve m site =
      resolveSshPath { m.toPlatform with autosshPath := req.sshPath.or (env.vars "AUTOSSH_PATH") }
        fun p => (site.files p).isSome := by
  rw [SshSupervisor.resolve, h.sshPath]
  cases req.sshPath with
  | some p => rfl
  | none =>
    rw [Option.none_or, ← henv.1]

/-- A supervisor built so uses every setting if and only if the two gaps do not matter. -/
theorem BuiltFrom.uses_iff {req : Requested} {env : EnvSnapshot} {clock : PollClock}
    {s : SshSupervisor} (h : BuiltFrom req env clock s) : Uses req env s ↔ Honours req env :=
  ⟨fun huses => ⟨h.monitor_iff.mp huses.monitor, h.message_iff.mp huses.message⟩,
    fun hhonours => ⟨h.monitor_iff.mpr hhonours.port, h.ssh, h.pidfile, h.logfile,
      h.message_iff.mpr hhonours.message⟩⟩

/-- In both modes the supervisor that is run takes every setting from where it belongs if
and only if a monitor flag is given or the port variable asks for none, and the message
variable is text. -/
theorem settings_precedence_iff (host : DaemonHost) (env : EnvSnapshot) :
    (∀ cli s, runDefault host env (.ok cli) = .run s →
      (Uses cli.requested env s ↔ Honours cli.requested env)) ∧
    ∀ args s, runStrict host env args = .run s → ∃ parsed, parseArgv args = .ok parsed ∧
      (Uses parsed.requested env s ↔ Honours parsed.requested env) := by
  refine ⟨fun cli s h => (runDefault_builtFrom h).uses_iff, fun args s h => ?_⟩
  obtain ⟨parsed, hparse, hbuilt⟩ := runStrict_builtFrom h
  exact ⟨parsed, hparse, hbuilt.uses_iff⟩

/-- A host that detaches without errors. -/
def DaemonHost.plain : DaemonHost := ⟨.unix, fun _ => .ok (), .ok ()⟩

/-- An environment that sets only the port variable. -/
def EnvSnapshot.withPort (value : OsString) : EnvSnapshot :=
  ⟨fun key => if key = "AUTOSSH_PORT" then some value else none⟩

/-- The supervisor that monitors nothing and runs ssh with a host. -/
def SshSupervisor.toHost : SshSupervisor where
  sshArgs := ["host"]
  monitorMode := .none
  sshPath := none
  poll := Duration.fromSecs 600
  firstPoll := some (Duration.fromSecs 600)
  gateTime := Duration.fromSecs 30
  maxStart := none
  maxLifetime := none
  eventSender := none
  message := none
  compatibilityMode := .default
  oneShot := false
  pidfilePath := none
  logfilePath := none

/-- A monitor flag, whatever the variable says. -/
theorem settings_precedence_iff_flag :
    Uses ⟨some "0", none, none, none⟩ (.withPort (.utf8 "20000")) .toHost := by
  refine ((settings_precedence_iff .plain (.withPort (.utf8 "20000"))).1
    { monitor := some "0", sshArgs := ["host"] } .toHost rfl).mpr ⟨fun hnone => ?_, ?_⟩
  · cases hnone
  · intro value hvalue
    cases hvalue

/-- Without the flag, port 20000 in the variable monitors nothing, and a value that is no
port is no error. -/
theorem port_variable_ignored :
    (runDefault .plain (.withPort (.utf8 "20000")) (.ok { sshArgs := ["host"] }) = .run .toHost ∧
      ¬Uses ⟨none, none, none, none⟩ (.withPort (.utf8 "20000")) .toHost) ∧
    runDefault .plain (.withPort (.utf8 "x")) (.ok { sshArgs := ["host"] }) = .run .toHost := by
  refine ⟨⟨rfl, fun h => ?_⟩, rfl⟩
  have hmode : monitorSetting ⟨none, none, none, none⟩ (.withPort (.utf8 "20000")) =
      .ok (.active 20000 none) := by rfl
  cases hmode.symm.trans h.monitor

end RustyAutossh
