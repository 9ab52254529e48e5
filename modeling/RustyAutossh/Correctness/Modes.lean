import RustyAutossh.Correctness.Activation
import RustyAutossh.Correctness.ExitCode

/-!
# The mode does not change the supervision

The two modes parse their arguments differently, and each has a dispatcher of its own. From the
same options both come to the same supervisor, except for the mode it carries, and no effect of
a run depends on that. What is left of the mode is the code of a malformed monitor value.
-/

namespace RustyAutossh

open Async

/-- The arguments clap parses where the strict parser has parsed these. -/
def StrictArgs.toCli (args : StrictArgs) : Cli where
  monitor := args.monitor
  background := args.background
  oneShot := args.oneShot
  sshArgs := args.sshArgs

/-- The same supervisor in another mode. -/
def SshSupervisor.inMode (self : SshSupervisor) (mode : CompatibilityMode) : SshSupervisor :=
  { self with compatibilityMode := mode }

/-- The log is opened in both modes alike; only the writer that is kept differs. -/
theorem Machine.initLogfile_site (m : Machine) (path : Option PathBuf)
    (mode mode' : CompatibilityMode) (site : Site) :
    (m.initLogfile path mode site).2 = (m.initLogfile path mode' site).2 := by
  cases path with
  | none => rfl
  | some p =>
    cases hopen : m.openError p with
    | none => simp only [Machine.initLogfile, hopen]
    | some source => simp only [Machine.initLogfile, hopen]

/-- The mode a supervisor carries changes neither the result of its run nor an effect. -/
theorem SshSupervisor.run_inMode (self : SshSupervisor) (mode : CompatibilityMode) (m : Machine)
    (n : Nat) (script : List (List Event)) (site : Site) :
    (self.inMode mode).run m n script site = self.run m n script site := by
  have hresolve : (self.inMode mode).resolve m site = self.resolve m site := rfl
  have hbind : (self.inMode mode).bindMonitor m site = self.bindMonitor m site := rfl
  have hwrite (site' : Site) :
      (self.inMode mode).writePidfile m site' = self.writePidfile m site' := rfl
  have hsup (path : PathBuf) (monitor : Option ProbeLoop) (now : Instant) :
      (self.inMode mode).supervisor path monitor now = self.supervisor path monitor now := rfl
  unfold SshSupervisor.run
  simp only [hresolve, hbind, hwrite, hsup]
  cases self.resolve m site with
  | error e => rfl
  | ok sshPath =>
    rcases self.bindMonitor m site with ⟨e | monitor, ports⟩
    · rfl
    · dsimp only
      rcases self.writePidfile m ports with ⟨e | pidfile, written⟩
      · rfl
      · dsimp only
        have hlog : (m.initLogfile (self.inMode mode).logfilePath
            (self.inMode mode).compatibilityMode written).2 =
            (m.initLogfile self.logfilePath self.compatibilityMode written).2 :=
          m.initLogfile_site _ _ _ written
        obtain ⟨log, files, hok⟩ := m.initLogfile_ok self.logfilePath self.compatibilityMode written
        obtain ⟨log', files', hok'⟩ := m.initLogfile_ok (self.inMode mode).logfilePath
          (self.inMode mode).compatibilityMode written
        rw [hok, hok'] at hlog
        obtain rfl : files' = files := congrArg Site.files hlog
        rw [hok, hok']

/-- How the dispatchers compare: they refuse a malformed monitor value, each with its own code,
and else they leave with one code or run one supervisor, each in its own mode. -/
inductive Alike (malformed : Prop) : Dispatch → Dispatch → Prop
  | refuses : malformed → Alike malformed (.exit 1) (.exit 2)
  | exits (code : UInt8) : ¬ malformed → Alike malformed (.exit code) (.exit code)
  | runs (s : SshSupervisor) : ¬ malformed → Alike malformed (.run (s.inMode .strict)) (.run s)

/-- After detaching, or without, both go on alike. -/
theorem alike_dispatch {malformed : Prop} (hwell : ¬ malformed) (background : Bool)
    (daemonized : Daemonized) {strict default : SshSupervisorBuilder}
    (h : strict.build = default.build.inMode .strict) :
    Alike malformed (dispatch background daemonized mapStrictError strict)
      (dispatch background daemonized mapError default) := by
  have hruns : Alike malformed (.run strict.build) (.run default.build) := h ▸ .runs _ hwell
  cases background with
  | false => exact hruns
  | true =>
    cases daemonized with
    | returns => exact hruns
    | exits code => exact .exits code hwell
    | fails e =>
      have hcode : mapError e = mapStrictError e :=
        (congrFun CompatibilityMode.strict.onError_eq e).symm
      show Alike malformed (.exit (mapStrictError e)) (.exit (mapError e))
      rw [hcode]
      exact .exits _ hwell

/-- From the same options the two dispatchers come to the same end. -/
theorem alike_dispatchers (host : DaemonHost) (env : EnvSnapshot) {args : List OsString}
    {parsed : StrictArgs} (hparse : parseArgv args = .ok parsed)
    (hversion : parsed.version = false) :
    Alike (∃ msg, parseMonitorValue parsed.monitor = .error msg) (runStrict host env args)
      (runDefault host env (.ok parsed.toCli)) := by
  have hmonitor : parsed.toCli.monitor = parsed.monitor := rfl
  have hcommand : parsed.toCli.command = none := rfl
  have hclock : parsed.toCli.clockFlags = {} := rfl
  have hpidfile : pidfilePathFromCliOrEnv parsed.toCli.pidFile env =
    env.vars "AUTOSSH_PIDFILE" := rfl
  have hlogfile : logfilePathFromCliOrEnv parsed.toCli.logFile env =
    env.vars "AUTOSSH_LOGFILE" := rfl
  cases hmode : parseMonitorValue parsed.monitor with
  | error msg =>
    simp only [runStrict, hparse, hversion, runDefault, hcommand, hmonitor, hmode]
    exact .refuses ⟨msg, rfl⟩
  | ok mode =>
    simp only [runStrict, hparse, hversion, runDefault, hcommand, hmonitor, hmode, hclock,
      hpidfile, hlogfile]
    refine alike_dispatch (by rintro ⟨msg, hmsg⟩; cases hmsg) parsed.background _ ?_
    cases env.getStr "AUTOSSH_MESSAGE" <;> cases env.vars "AUTOSSH_PIDFILE" <;>
      cases env.vars "AUTOSSH_LOGFILE" <;> rfl

/-- A program that only leaves does so at once. -/
theorem Computer.main_of_exit {c : Computer} {argv : List OsString} {code : UInt8}
    (h : run c.daemon c.env c.tryParse argv = some (.exit code)) (n : Nat)
    (script : List (List Event)) (site : Site) :
    c.main argv n script site = (some code, site) := by
  cases hmode : runMode c.daemon.target c.env argv with
  | none =>
    simp only [RustyAutossh.run, hmode] at h
    cases h
  | some mode => simp only [Computer.main, hmode, h]

/-- From the same options the program does the same in both modes, over every script: the same
spawns, kills, probes and waits, the same files and ports, and the same exit code. Only a
malformed monitor value has a code of its own in each mode, 1 and 2. -/
theorem modes_supervise_alike (c : Computer) (first first' : OsString) (args args' : List OsString)
    (n : Nat) (script : List (List Event)) (site : Site) {parsed : StrictArgs}
    (hstrict : resolve c.daemon.target args c.env first = .strict)
    (hdefault : resolve c.daemon.target args' c.env first' = .default)
    (hparse : parseArgv args = .ok parsed) (hversion : parsed.version = false)
    (hclap : c.tryParse (first' :: args') = .ok parsed.toCli) :
    (c.main (first :: args) n script site).2 = (c.main (first' :: args') n script site).2 ∧
    ((∃ msg, parseMonitorValue parsed.monitor = .error msg) →
      (c.main (first :: args) n script site).1 = some 1 ∧
        (c.main (first' :: args') n script site).1 = some 2) ∧
    ((¬ ∃ msg, parseMonitorValue parsed.monitor = .error msg) →
      (c.main (first :: args) n script site).1 = (c.main (first' :: args') n script site).1) := by
  have hrun := run_cons c.daemon c.env c.tryParse first args
  have hrun' := run_cons c.daemon c.env c.tryParse first' args'
  rw [if_pos hstrict] at hrun
  rw [if_neg (by rw [hdefault]; decide), hclap] at hrun'
  have halike := alike_dispatchers c.daemon c.env hparse hversion
  generalize runStrict c.daemon c.env args = strict at halike hrun
  generalize runDefault c.daemon c.env (.ok parsed.toCli) = default at halike hrun'
  cases halike with
  | refuses hmalformed =>
    rw [Computer.main_of_exit hrun, Computer.main_of_exit hrun']
    exact ⟨rfl, fun _ => ⟨rfl, rfl⟩, fun hwell => absurd hmalformed hwell⟩
  | exits code hwell =>
    rw [Computer.main_of_exit hrun, Computer.main_of_exit hrun']
    exact ⟨rfl, fun hmalformed => absurd hmalformed hwell, fun _ => rfl⟩
  | runs s hwell =>
    have hsame : c.futuresBlockingRun (s.inMode .strict) n script site =
        c.futuresBlockingRun s n script site := by
      unfold Computer.futuresBlockingRun
      rw [s.run_inMode]
    rw [Computer.main_of_run hrun, Computer.main_of_run hrun', hsame]
    exact ⟨rfl, fun hmalformed => absurd hmalformed hwell, fun _ => rfl⟩

/-- A plain machine whose clap knows one command line. -/
def Computer.parsing (args : StrictArgs) : Computer :=
  { Computer.plain with tryParse := fun _ => .ok args.toCli }

/-- `autossh -1 host` and `rusty-autossh --one-shot host` with an ssh that crashes. -/
theorem modes_supervise_alike_oneShot :
    ((Computer.parsing ⟨none, false, false, true, ["host"]⟩).main
        (["autossh", "-1", "host"].map .utf8) 1 [[.exit 0 ⟨256⟩]]
        ⟨[], fun _ => none, .initial .unix⟩).1 =
      ((Computer.parsing ⟨none, false, false, true, ["host"]⟩).main
        (["rusty-autossh", "--one-shot", "host"].map .utf8) 1 [[.exit 0 ⟨256⟩]]
        ⟨[], fun _ => none, .initial .unix⟩).1 := by
  obtain ⟨-, -, hcode⟩ := modes_supervise_alike
    (Computer.parsing ⟨none, false, false, true, ["host"]⟩) (.utf8 "autossh")
    (.utf8 "rusty-autossh") (["-1", "host"].map .utf8) (["--one-shot", "host"].map .utf8) 1
    [[.exit 0 ⟨256⟩]] ⟨[], fun _ => none, .initial .unix⟩ (by decide +kernel) (by decide +kernel)
    rfl rfl rfl
  refine hcode ?_
  rintro ⟨msg, hmsg⟩
  cases hmsg

end RustyAutossh
