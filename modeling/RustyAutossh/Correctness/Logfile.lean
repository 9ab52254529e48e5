import RustyAutossh.Loop.Daemon
import RustyAutossh.Correctness.Precedence
import RustyAutossh.Correctness.Startup

/-!
# The log path of a detached process

The supervisor's run takes a log path it cannot open for none and warns. Detaching opens the
same path before it changes the directory, and fails where it cannot. So with `-f` the path
has to open there, and has to lead to the same file from `/`.
-/

namespace RustyAutossh

variable {Dir Place Fs : Type}

/-- Binding fails over a port, or for the reasons it checks itself. -/
def AutosshError.OfBind (e : AutosshError) : Prop :=
  (∃ port source, e = .monitorBindFailed port source) ∨ ∃ tag, e = .internal tag

private theorem error_of_bind {α β : Type} {x : Except AutosshError α}
    {f : α → Except AutosshError β} {e : AutosshError} (h : x >>= f = .error e) :
    x = .error e ∨ ∃ a, f a = .error e := by
  cases x with
  | error e' => exact .inl (congrArg Except.error (Except.error.inj h))
  | ok a => exact .inr ⟨a, h⟩

private theorem bindReuseaddr_error {tcp : TcpStack} {held : List UInt16} {port : UInt16}
    {e : AutosshError} (h : bindReuseaddr tcp held port = .error e) : e.OfBind := by
  unfold bindReuseaddr at h
  split at h
  · cases h
  · exact .inl ⟨_, _, (Except.error.inj h).symm⟩

private theorem localPort_error {tcp : TcpStack} {listener : TcpListener} {asked : UInt16}
    {e : AutosshError} (h : localPort tcp listener asked = .error e) : e.OfBind := by
  unfold localPort at h
  split at h
  · cases h
  · exact .inl ⟨_, _, (Except.error.inj h).symm⟩

theorem ProbeLoop.bind_error {tcp : TcpStack} {held : List UInt16} {mode : MonitorMode}
    {message : Option String} {e : AutosshError}
    (h : ProbeLoop.bind tcp held mode message = .error e) : e.OfBind := by
  unfold ProbeLoop.bind at h
  split at h
  · exact .inr ⟨_, (Except.error.inj h).symm⟩
  · split at h
    · exact .inr ⟨_, (Except.error.inj h).symm⟩
    · rcases error_of_bind h with hin | ⟨listenerIn, h⟩
      · exact bindReuseaddr_error hin
      rcases error_of_bind h with hport | ⟨inPort, h⟩
      · exact localPort_error hport
      rcases error_of_bind h with hout | ⟨listenerOut, h⟩
      · exact bindReuseaddr_error hout
      rcases error_of_bind h with hport | ⟨outPort, h⟩
      · exact localPort_error hport
      · cases h
    · rcases error_of_bind h with hin | ⟨listenerIn, h⟩
      · exact bindReuseaddr_error hin
      rcases error_of_bind h with hport | ⟨inPort, h⟩
      · exact localPort_error hport
      · cases h

theorem SshSupervisor.resolve_error {self : SshSupervisor} {m : Machine} {site : Site}
    {e : AutosshError} (h : self.resolve m site = .error e) : ∃ dirs, e = .sshNotFound dirs := by
  unfold SshSupervisor.resolve resolveSshPath at h
  simp only at h
  repeat' split at h
  all_goals first
    | exact ⟨_, (Except.error.inj h).symm⟩
    | cases h

theorem SshSupervisor.bindMonitor_error {self : SshSupervisor} {m : Machine} {site : Site}
    {e : AutosshError} (h : (self.bindMonitor m site).1 = .error e) : e.OfBind := by
  unfold SshSupervisor.bindMonitor at h
  cases hmode : self.monitorMode with
  | none =>
    simp only [hmode] at h
    cases h
  | active port echo =>
    simp only [hmode] at h
    rcases hbind : m.bindLoop (.active port echo) self.message site with ⟨e' | loop, site'⟩
    · simp only [hbind, Except.error.injEq] at h
      subst h
      have hpure := m.bindLoop_fst (.active port echo) self.message site
      rw [hbind] at hpure
      exact ProbeLoop.bind_error hpure.symm
    · simp only [hbind] at h
      cases h

theorem SshSupervisor.writePidfile_error {self : SshSupervisor} {m : Machine} {site : Site}
    {e : AutosshError} (h : (self.writePidfile m site).1 = .error e) :
    ∃ path source, e = .pidfileWrite path source := by
  unfold SshSupervisor.writePidfile at h
  cases hpath : self.pidfilePath with
  | none =>
    simp only [hpath] at h
    cases h
  | some path =>
    simp only [hpath, Machine.writePid] at h
    cases hwrite : m.writeError path with
    | none =>
      simp only [hwrite] at h
      cases h
    | some source =>
      simp only [hwrite, Except.error.injEq] at h
      exact ⟨path, source, h.symm⟩

/-- No error of the steps before the log is about the log. -/
theorem SshSupervisor.acquire_error {self : SshSupervisor} {m : Machine} {site : Site}
    {e : AutosshError} (h : self.acquire m site = .error e) (path : PathBuf) (source : IoError) :
    e ≠ .logfileWrite path source := by
  unfold SshSupervisor.acquire at h
  rintro rfl
  cases hresolve : self.resolve m site with
  | error e =>
    simp only [hresolve, Except.error.injEq] at h
    obtain ⟨dirs, rfl⟩ := resolve_error hresolve
    cases h
  | ok sshPath =>
    simp only [hresolve] at h
    rcases hbind : self.bindMonitor m site with ⟨e | monitor, site'⟩
    · simp only [hbind, Except.error.injEq] at h
      obtain ⟨port, source, rfl⟩ | ⟨tag, rfl⟩ := bindMonitor_error (congrArg Prod.fst hbind) <;>
        cases h
    · simp only [hbind] at h
      rcases hwrite : self.writePidfile m site' with ⟨e | pidfile, site''⟩
      · simp only [hwrite, Except.error.injEq] at h
        obtain ⟨path, source, rfl⟩ := writePidfile_error (congrArg Prod.fst hwrite)
        cases h
      · simp only [hwrite] at h
        cases h

/-- The resources are acquired exactly where a run starts. -/
theorem SshSupervisor.acquire_eq_ok_iff {self : SshSupervisor} {m : Machine} {site : Site} :
    self.acquire m site = .ok () ↔ self.Starts m site := by
  have hwrite (site' : Site) : (∃ pidfile, (self.writePidfile m site').1 = .ok pidfile) ↔
      ∀ path, self.pidfilePath = some path → m.writeError path = none := by
    unfold SshSupervisor.writePidfile Machine.writePid
    cases self.pidfilePath with
    | none => simp
    | some path => cases hrefused : m.writeError path <;> simp [hrefused]
  unfold SshSupervisor.acquire
  constructor
  · intro h
    cases hresolve : self.resolve m site with
    | error e =>
      simp only [hresolve] at h
      cases h
    | ok sshPath =>
      simp only [hresolve] at h
      rcases hbind : self.bindMonitor m site with ⟨e | monitor, site'⟩
      · simp only [hbind] at h
        cases h
      · simp only [hbind] at h
        rcases hpidfile : self.writePidfile m site' with ⟨e | pidfile, site''⟩
        · simp only [hpidfile] at h
          cases h
        · exact ⟨⟨sshPath, hresolve⟩, ⟨monitor, by rw [hbind]⟩,
            (hwrite site').mp ⟨pidfile, by rw [hpidfile]⟩⟩
  · rintro ⟨⟨sshPath, hresolve⟩, ⟨monitor, hbind⟩, hnone⟩
    obtain ⟨pidfile, hpidfile⟩ := (hwrite (self.bindMonitor m site).2).mpr hnone
    have hbound : self.bindMonitor m site = (.ok monitor, (self.bindMonitor m site).2) :=
      Prod.ext hbind rfl
    have hwritten : self.writePidfile m (self.bindMonitor m site).2 =
        (.ok pidfile, (self.writePidfile m (self.bindMonitor m site).2).2) :=
      Prod.ext hpidfile rfl
    rw [hresolve]
    simp only
    rw [hbound]
    simp only
    rw [hwritten]

/-- A dispatcher detaches the process with the log path of the supervisor it then runs. -/
theorem dispatch_host (os : Os Dir Place Fs) (p : Process Dir Place Fs) (background : Bool)
    (logfile : Option PathBuf) (env : EnvSnapshot) (onError : AutosshError → UInt8)
    {builder : SshSupervisorBuilder}
    (h : builder.build.logfilePath = logfile.or (env.vars "AUTOSSH_LOGFILE")) :
    dispatch background (performDaemonizeDefault (os.host p) logfile env) onError builder =
      match (os.detach background builder.build.logfilePath p).1 with
      | .ok () => .run builder.build
      | .error e => .exit (onError e) := by
  rw [h]
  cases background with
  | false => rfl
  | true =>
    simp only [dispatch, performDaemonizeDefault, Os.host, Os.detach, if_true]
    cases (os.daemonizeUnix (logfile.or (env.vars "AUTOSSH_LOGFILE")) p).1 <;> rfl

/-- The default dispatcher comes to the launch of its supervisor. -/
theorem runDefault_host (os : Os Dir Place Fs) (p : Process Dir Place Fs) (env : EnvSnapshot)
    {cli : Cli} {mode : MonitorMode} (hcommand : cli.command = none)
    (hmonitor : parseMonitorValue cli.monitor = .ok mode) :
    ∃ self : SshSupervisor, self.logfilePath = cli.logFile.or (env.vars "AUTOSSH_LOGFILE") ∧
      runDefault (os.host p) env (.ok cli) =
        match (os.detach cli.background self.logfilePath p).1 with
        | .ok () => .run self
        | .error e => .exit (mapError e) := by
  obtain ⟨builder, hbuilt, heq⟩ := runDefault_eq_dispatch (os.host p) env hcommand hmonitor
  exact ⟨builder.build, hbuilt.logfile,
    heq.trans (dispatch_host os p cli.background cli.logFile env mapError hbuilt.logfile)⟩

/-- So does the strict one. -/
theorem runStrict_host (os : Os Dir Place Fs) (p : Process Dir Place Fs) (env : EnvSnapshot)
    {args : List OsString} {parsed : StrictArgs} {mode : MonitorMode}
    (hparse : parseArgv args = .ok parsed) (hversion : parsed.version = false)
    (hmonitor : parseMonitorValue parsed.monitor = .ok mode) :
    ∃ self : SshSupervisor, self.logfilePath = env.vars "AUTOSSH_LOGFILE" ∧
      runStrict (os.host p) env args =
        match (os.detach parsed.background self.logfilePath p).1 with
        | .ok () => .run self
        | .error e => .exit (mapStrictError e) := by
  obtain ⟨builder, hbuilt, heq⟩ :=
    runStrict_eq_dispatch (os.host p) env hparse hversion hmonitor
  exact ⟨builder.build, hbuilt.logfile,
    heq.trans (dispatch_host os p parsed.background none env mapStrictError hbuilt.logfile)⟩

/-- A startup that a log path does not stop: it does not fail over the path, it warns where an
open is refused, and it opens the path only where it leads from the directory of the
invocation. -/
structure Os.Handled (os : Os Dir Place Fs) (logfile : Option PathBuf) (dir : Dir)
    (result : Except AutosshError (Option WorkerGuard) × Process Dir Place Fs) : Prop where
  goesOn : ∀ path source, result.1 ≠ .error (.logfileWrite path source)
  warns : ∀ place source, (place, some source) ∈ result.2.opened → result.2.warned = logfile
  sameFile : ∀ path place refused, logfile = some path → (place, refused) ∈ result.2.opened →
    place = os.locate dir path

/-- With `-f` the log path opens twice where the program is invoked, and, if the process is
detached and the run starts, it leads from `/` to the same place. -/
def Os.Unaffected (os : Os Dir Place Fs) (background : Bool) (self : SshSupervisor)
    (m : Machine) (site : Site) (dir : Dir) (fs : Fs) : Prop :=
  background = true → ∀ path, self.logfilePath = some path →
    ∃ fs₁ fs₂, os.openAppend (os.locate dir path) fs = (none, fs₁) ∧
      os.openAppend (os.locate dir path) fs₁ = (none, fs₂) ∧
      ((os.start fs₂).1 = none → self.Starts m site →
        os.locate os.root path = os.locate dir path)

/-- A startup that has opened the path only where it should, each time with success. -/
theorem Os.handled_of_opened {os : Os Dir Place Fs} {logfile : Option PathBuf} {dir : Dir}
    {result : Except AutosshError (Option WorkerGuard) × Process Dir Place Fs}
    (hgoesOn : ∀ path source, result.1 ≠ .error (.logfileWrite path source))
    (hopened : ∀ place refused, (place, refused) ∈ result.2.opened →
      refused = none ∧ ∀ path, logfile = some path → place = os.locate dir path) :
    os.Handled logfile dir result := by
  refine ⟨hgoesOn, fun place source hmem => ?_, fun path place refused hpath hmem => ?_⟩
  · cases (hopened place _ hmem).1
  · exact (hopened place refused hmem).2 path hpath

/-- The start of a run handles the log path if that leads where it should. -/
theorem Os.startRun_handled_iff (os : Os Dir Place Fs) (self : SshSupervisor) (m : Machine)
    (site : Site) (dir : Dir) {p : Process Dir Place Fs} (hwarned : p.warned = none)
    (hopened : ∀ place refused, (place, refused) ∈ p.opened →
      refused = none ∧ ∀ path, self.logfilePath = some path → place = os.locate dir path) :
    os.Handled self.logfilePath dir (os.startRun self m site p) ↔
      ∀ path, self.logfilePath = some path → self.acquire m site = .ok () →
        os.locate p.cwd path = os.locate dir path := by
  unfold Os.startRun
  cases hacquire : self.acquire m site with
  | error e =>
    refine ⟨fun _ path _ h => (nomatch h), fun _ => handled_of_opened (fun path source he => ?_)
      hopened⟩
    exact SshSupervisor.acquire_error hacquire path source (Except.error.inj he)
  | ok u =>
    cases hpath : self.logfilePath with
    | none =>
      rw [hpath] at hopened
      exact ⟨fun _ path h => (nomatch h), fun _ => handled_of_opened (fun _ _ he => nomatch he)
        hopened⟩
    | some path =>
      rcases hopen : os.openAppend (os.locate p.cwd path) p.fs with ⟨refused, fs⟩
      obtain ⟨guard, heq⟩ := os.initLogfile_some path self.compatibilityMode hwarned hopen
      rw [heq]
      constructor
      · rintro hhandled _ ⟨⟩ -
        exact hhandled.sameFile path _ refused rfl (by simp)
      · intro hsame
        refine ⟨fun _ _ he => (nomatch he), fun place source hmem => ?_, ?_⟩
        · rcases List.mem_append.mp hmem with hbefore | hlast
          · cases (hopened place _ hbefore).1
          · obtain ⟨rfl, rfl⟩ := Prod.mk.inj (List.mem_singleton.mp hlast)
            rfl
        · rintro _ place result ⟨⟩ hmem
          rcases List.mem_append.mp hmem with hbefore | hlast
          · exact (hopened place result hbefore).2 path hpath
          · obtain ⟨rfl, rfl⟩ := Prod.mk.inj (List.mem_singleton.mp hlast)
            exact hsame path rfl rfl

/-- With the opens of detaching behind it, a start handles the log path if that leads to the
same place from `/`, or the process is not detached, or the run fails before the log. -/
theorem Os.launch_handled_iff (os : Os Dir Place Fs) (self : SshSupervisor) (m : Machine)
    (site : Site) (dir : Dir) {p p' : Process Dir Place Fs}
    (hdetach : os.detach true self.logfilePath p = os.daemonize p') (hwarned : p'.warned = none)
    (hopened : ∀ place refused, (place, refused) ∈ p'.opened →
      refused = none ∧ ∀ path, self.logfilePath = some path → place = os.locate dir path) :
    os.Handled self.logfilePath dir (os.launch true self m site p) ↔
      ∀ path, self.logfilePath = some path → (os.start p'.fs).1 = none →
        self.acquire m site = .ok () → os.locate os.root path = os.locate dir path := by
  rw [Os.launch, hdetach, Os.daemonize]
  rcases hstart : os.start p'.fs with ⟨_ | reason, fs⟩
  · refine (os.startRun_handled_iff self m site dir (p := { p' with fs := fs, cwd := os.root })
      hwarned hopened).trans ?_
    exact ⟨fun h path hpath _ => h path hpath, fun h path hpath => h path hpath rfl⟩
  · exact ⟨fun _ path _ h => (nomatch h), fun _ => handled_of_opened (fun _ _ he => nomatch he)
      hopened⟩

/-- Detaching ends the startup over a log path that does not open, or opens it twice where
the program was invoked and goes on in `/`. -/
theorem Os.daemonizeUnix_cases (os : Os Dir Place Fs) (path : PathBuf) (dir : Dir) (fs : Fs) :
    (∃ source, (os.daemonizeUnix (some path) (.invoked dir fs)).1 =
        .error (.logfileWrite path source) ∧
      ∀ fs₁ fs₂, os.openAppend (os.locate dir path) fs = (none, fs₁) →
        os.openAppend (os.locate dir path) fs₁ ≠ (none, fs₂)) ∨
    ∃ fs₁ fs₂, os.openAppend (os.locate dir path) fs = (none, fs₁) ∧
      os.openAppend (os.locate dir path) fs₁ = (none, fs₂) ∧
      os.daemonizeUnix (some path) (.invoked dir fs) = os.daemonize
        ⟨dir, fs₂, [(os.locate dir path, none), (os.locate dir path, none)], none⟩ := by
  rcases hfirst : os.openAppend (os.locate dir path) fs with ⟨_ | source, fs₁⟩
  · have hopen := os.openLog_eq (p := .invoked dir fs) hfirst
    rcases hsecond : os.openAppend (os.locate dir path) fs₁ with ⟨_ | source, fs₂⟩
    · refine .inr ⟨fs₁, fs₂, rfl, hsecond, ?_⟩
      simp only [Os.daemonizeUnix, hopen]
      rw [os.openLog_eq hsecond]
      rfl
    · refine .inl ⟨source, ?_, ?_⟩
      · simp only [Os.daemonizeUnix, hopen]
        rw [os.openLog_eq hsecond]
      · rintro _ fs₃ ⟨⟩ hok
        rw [hsecond] at hok
        cases hok
  · refine .inl ⟨source, ?_, fun _ _ h => nomatch h⟩
    have hopen := os.openLog_eq (p := .invoked dir fs) hfirst
    simp only [Os.daemonizeUnix, hopen]

/-- A start of the program handles its log path exactly where `-f` does not affect it. -/
theorem logfile_handled_iff (os : Os Dir Place Fs) (background : Bool) (self : SshSupervisor)
    (m : Machine) (site : Site) (dir : Dir) (fs : Fs) :
    os.Handled self.logfilePath dir (os.launch background self m site (.invoked dir fs)) ↔
      os.Unaffected background self m site dir fs := by
  cases background with
  | false =>
    refine (os.startRun_handled_iff self m site dir rfl (by simp [Process.invoked])).trans ?_
    exact ⟨fun _ h => (nomatch h), fun _ path _ _ => rfl⟩
  | true =>
    rcases Option.eq_none_or_eq_some self.logfilePath with hpath | ⟨path, hpath⟩
    · have hdetach : os.detach true self.logfilePath (.invoked dir fs) =
          os.daemonize (.invoked dir fs) := by
        rw [hpath]
        rfl
      refine (os.launch_handled_iff self m site dir hdetach rfl
        (by simp [Process.invoked])).trans ?_
      simp [Os.Unaffected, hpath]
    · rcases os.daemonizeUnix_cases path dir fs with ⟨source, herror, hrefused⟩ |
        ⟨fs₁, fs₂, hfirst, hsecond, heq⟩
      · have hfails : (os.launch true self m site (.invoked dir fs)).1 =
            .error (.logfileWrite path source) := by
          rw [Os.launch, Os.detach, if_pos rfl, hpath]
          rcases hdaemon : os.daemonizeUnix (some path) (.invoked dir fs) with ⟨r, p⟩
          rw [hdaemon] at herror
          subst herror
          rfl
        constructor
        · exact fun hhandled => absurd hfails (hhandled.goesOn path source)
        · intro h
          obtain ⟨fs₁, fs₂, hfirst, hsecond, -⟩ := h rfl path hpath
          exact absurd hsecond (hrefused fs₁ fs₂ hfirst)
      · have hdetach : os.detach true self.logfilePath (.invoked dir fs) = os.daemonize
            ⟨dir, fs₂, [(os.locate dir path, none), (os.locate dir path, none)], none⟩ := by
          rw [hpath]
          exact heq
        refine (os.launch_handled_iff self m site dir hdetach rfl
          (by simp +contextual [hpath])).trans ?_
        simp [Os.Unaffected, hpath, hfirst, hsecond, SshSupervisor.acquire_eq_ok_iff]

/-- A system that names a directory by its path without the last slash, and refuses to open
some files. -/
def Os.refusing (refused : List (List UInt8)) : Os (List UInt8) (List UInt8) Unit where
  root := []
  locate dir path := if path.isAbsolute then path.bytes else dir ++ [47] ++ path.bytes
  locate_absolute dir path h := by rw [if_pos h, if_pos h]
  openAppend place fs := (if place ∈ refused then some ⟨13⟩ else none, fs)
  start fs := (none, fs)

/-- The supervisor of the port tests with a log path. -/
def SshSupervisor.withLogfile (path : PathBuf) : SshSupervisor :=
  { SshSupervisor.onPort 20000 with logfilePath := some path }

/-- In the background a relative path is opened in two directories, and a path that cannot be
opened ends the program. -/
theorem logfile_differs_in_background :
    ¬ (Os.refusing []).Handled (some (.utf8 "a.log")) (intoBytes "/home/u")
        ((Os.refusing []).launch true (.withLogfile (.utf8 "a.log")) (.refusing fun _ => none)
          ⟨[], fun _ => none, .initial .unix⟩ (.invoked (intoBytes "/home/u") ())) ∧
      ¬ (Os.refusing [intoBytes "/a.log"]).Handled (some (.utf8 "/a.log")) (intoBytes "/home/u")
        ((Os.refusing [intoBytes "/a.log"]).launch true (.withLogfile (.utf8 "/a.log"))
          (.refusing fun _ => none) ⟨[], fun _ => none, .initial .unix⟩
          (.invoked (intoBytes "/home/u") ())) := by
  constructor
  · intro h
    have hsame := h.sameFile (.utf8 "a.log") (intoBytes "/a.log") none rfl (by decide +kernel)
    revert hsame
    decide +kernel
  · intro h
    exact h.goesOn (.utf8 "/a.log") ⟨13⟩ (by rfl)

end RustyAutossh
