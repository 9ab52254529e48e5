import RustyAutossh.Loop.Startup
import RustyAutossh.Source.Daemonizer
import RustyAutossh.Source.Main

/-!
# The startup of a detached process

With `-f` a dispatcher detaches the process and then runs the supervisor, whose startup opens
the log path once more. `Os.launch` is both on a Unix system, with the directory and the file
system each open meets.
-/

namespace RustyAutossh

/-- `SshSupervisor::run` up to the log: the ssh binary, the monitor, the pidfile. -/
def SshSupervisor.acquire (self : SshSupervisor) (m : Machine) (site : Site) :
    Except AutosshError Unit :=
  match self.resolve m site with
  | .error e => .error e
  | .ok _ =>
    match self.bindMonitor m site with
    | (.error e, _) => .error e
    | (.ok _, site) =>
      match self.writePidfile m site with
      | (.error e, _) => .error e
      | (.ok _, _) => .ok ()

/-- A run whose resources cannot be acquired fails with the same error. -/
theorem SshSupervisor.run_of_acquire_error {self : SshSupervisor} {m : Machine} {site : Site}
    {e : AutosshError} (h : self.acquire m site = .error e) (n : Nat)
    (script : List (List Event)) : (self.run m n script site).1 = .fail e := by
  unfold SshSupervisor.acquire at h
  unfold SshSupervisor.run
  cases hresolve : self.resolve m site with
  | error e' =>
    simp only [hresolve, Except.error.injEq] at h
    rw [h]
  | ok sshPath =>
    simp only [hresolve] at h
    rcases hbind : self.bindMonitor m site with ⟨e' | monitor, site'⟩
    · simp only [hbind, Except.error.injEq] at h
      rw [h]
    · simp only [hbind] at h
      rcases hwrite : self.writePidfile m site' with ⟨e' | pidfile, site''⟩
      · simp only [hwrite, Except.error.injEq] at h
        simp only [hwrite, h]
      · simp only [hwrite] at h
        cases h

section Os

variable {Dir Place Fs : Type}

/-- `fallback_to_stderr`, which warns once. -/
def fallbackToStderr (path : PathBuf) (p : Process Dir Place Fs) : Process Dir Place Fs :=
  match p.warned with
  | some _ => p
  | none => { p with warned := some path }

/-- `init_logfile` in the process's directory. -/
def Os.initLogfile (os : Os Dir Place Fs) (path : Option PathBuf) (mode : CompatibilityMode)
    (p : Process Dir Place Fs) :
    Except AutosshError (Option WorkerGuard) × Process Dir Place Fs :=
  match path with
  | none => (.ok none, p)
  | some path =>
    match os.openLog path p with
    | (some _, p) => (.ok none, fallbackToStderr path p)
    | (none, p) => (.ok (match mode with | .default => some {} | .strict => none), p)

/-- The process once the log has been opened, or has not. -/
theorem Os.initLogfile_some (os : Os Dir Place Fs) (path : PathBuf) (mode : CompatibilityMode)
    {p : Process Dir Place Fs} (h : p.warned = none) {refused : Option IoError} {fs : Fs}
    (hopen : os.openAppend (os.locate p.cwd path) p.fs = (refused, fs)) :
    ∃ guard, os.initLogfile (some path) mode p = (.ok guard,
      ⟨p.cwd, fs, p.opened ++ [(os.locate p.cwd path, refused)], refused.map fun _ => path⟩) := by
  simp only [Os.initLogfile, os.openLog_eq hopen, fallbackToStderr, h]
  cases refused with
  | none => exact ⟨_, rfl⟩
  | some source => exact ⟨_, rfl⟩

/-- It has the result of the run's own `init_logfile` on a machine that refuses the same
opens. -/
theorem Os.initLogfile_fst (os : Os Dir Place Fs) (m : Machine) (site : Site)
    (p : Process Dir Place Fs)
    (h : ∀ path, m.openError path = (os.openAppend (os.locate p.cwd path) p.fs).1)
    (path : Option PathBuf) (mode : CompatibilityMode) :
    (os.initLogfile path mode p).1 = (m.initLogfile path mode site).1 := by
  unfold Os.initLogfile Machine.initLogfile Os.openLog
  cases path with
  | none => rfl
  | some path =>
    rcases hopen : os.openAppend (os.locate p.cwd path) p.fs with ⟨_ | e, fs⟩ <;>
      cases mode <;> simp only [h path, hopen]

/-- Detaching the process where `-f` asks for it. -/
def Os.detach (os : Os Dir Place Fs) (background : Bool) (logfile : Option PathBuf)
    (p : Process Dir Place Fs) : Except AutosshError Unit × Process Dir Place Fs :=
  if background then os.daemonizeUnix logfile p else (.ok (), p)

/-- `SshSupervisor::run` up to and with the log, on the machine and the site it meets. -/
def Os.startRun (os : Os Dir Place Fs) (self : SshSupervisor) (m : Machine) (site : Site)
    (p : Process Dir Place Fs) : Except AutosshError (Option WorkerGuard) × Process Dir Place Fs :=
  match self.acquire m site with
  | .error e => (.error e, p)
  | .ok () => os.initLogfile self.logfilePath self.compatibilityMode p

/-- The end of a dispatcher and the start of the supervisor's run. -/
def Os.launch (os : Os Dir Place Fs) (background : Bool) (self : SshSupervisor) (m : Machine)
    (site : Site) (p : Process Dir Place Fs) :
    Except AutosshError (Option WorkerGuard) × Process Dir Place Fs :=
  match os.detach background self.logfilePath p with
  | (.error e, p) => (.error e, p)
  | (.ok (), p) => os.startRun self m site p

/-- What detaching comes to for the dispatchers. -/
def Os.host (os : Os Dir Place Fs) (p : Process Dir Place Fs) : DaemonHost where
  target := .unix
  daemonizeUnix logfile := (os.daemonizeUnix logfile p).1
  detachWindows := .ok ()

end Os

end RustyAutossh
