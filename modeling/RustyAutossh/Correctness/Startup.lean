import RustyAutossh.Loop.Startup
import RustyAutossh.Correctness.Ports

/-!
# Startup in order, and what a run leaves behind

A step of the startup that fails leaves the ports, the files and the processes as the run
found them. A run that has returned has closed its monitor listeners and has asked for
the removal of its pidfile, which the system may refuse.
-/

namespace RustyAutossh

open Async Runtime

/-- Opening and closing a listener changes nothing. -/
private theorem Site.close_opened (site : Site) (l : TcpListener) :
    Site.close { site with listening := l.port :: site.listening } l = site := by
  simp [Site.close]

/-- A listener opens on a port nobody listened on, or nothing happens. -/
private theorem Machine.bindReuseaddr_cases (m : Machine) (port : UInt16) (site : Site) :
    (∃ e, m.bindReuseaddr port site = (.error e, site)) ∨
      ∃ l : TcpListener, l.port ∉ site.listening ∧ m.bindReuseaddr port site =
        (.ok l, { site with listening := l.port :: site.listening }) := by
  unfold Machine.bindReuseaddr
  cases h : RustyAutossh.bindReuseaddr m.tcp site.listening port with
  | error e => exact .inl ⟨e, rfl⟩
  | ok l => exact .inr ⟨l, m.tcp.listen_fresh (bindReuseaddr_eq_ok h), rfl⟩

/-- A bind fails and restores the site, or opens listeners whose drop closes them again. -/
theorem Machine.bindLoop_cases (m : Machine) (mode : MonitorMode) (message : Option String)
    (site : Site) : (∃ e, m.bindLoop mode message site = (.error e, site)) ∨
      ∃ loop ports, m.bindLoop mode message site = (.ok loop, { site with listening := ports }) ∧
        ∀ fs w, Site.dropMonitor ⟨ports, fs, w⟩ (some loop) = ⟨site.listening, fs, w⟩ := by
  unfold Machine.bindLoop
  split
  · exact .inl ⟨_, rfl⟩
  · cases mode with
    | none => exact .inl ⟨_, rfl⟩
    | active port echo =>
      rcases m.bindReuseaddr_cases port site with ⟨e, hin⟩ | ⟨lin, -, hin⟩
      · cases echo <;> exact .inl ⟨e, by simp only [hin]⟩
      · cases hp : localPort m.tcp lin port with
        | error e =>
          cases echo <;> exact .inl ⟨e, by simp only [hin, hp, Site.close_opened]⟩
        | ok inPort =>
          cases echo with
          | some echo =>
            refine .inr ⟨⟨lin, none, message, ⟨inPort, echo⟩⟩, lin.port :: site.listening,
              by simp only [hin, hp], fun fs w => ?_⟩
            simp [Site.dropMonitor, Site.close]
          | none =>
            simp only [hin, hp]
            rcases m.bindReuseaddr_cases (if port = 0 then 0 else saturatingAddU16 port 1)
                { site with listening := lin.port :: site.listening } with
              ⟨e, hout⟩ | ⟨lout, hfresh, hout⟩
            · exact .inl ⟨e, by simp only [hout, Site.close_opened]⟩
            · have hne : lout.port ≠ lin.port := by
                intro heq
                exact hfresh (heq ▸ List.mem_cons_self)
              cases hq : localPort m.tcp lout
                  (if port = 0 then 0 else saturatingAddU16 port 1) with
              | error e =>
                refine .inl ⟨e, ?_⟩
                simp only [hout, hq]
                simp [Site.close]
              | ok outPort =>
                refine .inr ⟨⟨lin, some lout, message, ⟨inPort, outPort⟩⟩,
                  lout.port :: lin.port :: site.listening, by simp only [hout, hq],
                  fun fs w => ?_⟩
                simp [Site.dropMonitor, Site.close, hne]

/-- The monitor of a run fails to open and restores the site, or its drop does. -/
theorem SshSupervisor.bindMonitor_cases (self : SshSupervisor) (m : Machine) (site : Site) :
    (∃ e, self.bindMonitor m site = (.error e, site)) ∨
      ∃ monitor ports, self.bindMonitor m site = (.ok monitor, { site with listening := ports }) ∧
        ∀ fs w, Site.dropMonitor ⟨ports, fs, w⟩ monitor = ⟨site.listening, fs, w⟩ := by
  unfold SshSupervisor.bindMonitor
  cases self.monitorMode with
  | none => exact .inr ⟨none, site.listening, rfl, fun _ _ => rfl⟩
  | active port echo =>
    rcases m.bindLoop_cases (.active port echo) self.message site with
      ⟨e, hbind⟩ | ⟨loop, ports, hbind, hdrop⟩
    · exact .inl ⟨e, by simp only [hbind]⟩
    · exact .inr ⟨some loop, ports, by simp only [hbind], hdrop⟩

/-- Binding with its effects on the ports has the result of the pure function. -/
theorem Machine.bindLoop_fst (m : Machine) (mode : MonitorMode) (message : Option String)
    (site : Site) : (m.bindLoop mode message site).1 =
      ProbeLoop.bind m.tcp site.listening mode message := by
  unfold Machine.bindLoop ProbeLoop.bind Machine.bindReuseaddr
  split
  · rfl
  · cases mode with
    | none => rfl
    | active port echo =>
      cases hin : RustyAutossh.bindReuseaddr m.tcp site.listening port with
      | error e => cases echo <;> simp only [hin] <;> rfl
      | ok lin =>
        cases hp : localPort m.tcp lin port with
        | error e => cases echo <;> simp [hin, hp, Bind.bind, Except.bind]
        | ok inPort =>
          cases echo with
          | some echo => simp [hin, hp, Bind.bind, Except.bind, Pure.pure, Except.pure]
          | none =>
            cases hout : RustyAutossh.bindReuseaddr m.tcp (lin.port :: site.listening)
                (if port = 0 then 0 else saturatingAddU16 port 1) with
            | error e => simp [hin, hp, hout, Bind.bind, Except.bind]
            | ok lout =>
              cases hq : localPort m.tcp lout
                  (if port = 0 then 0 else saturatingAddU16 port 1) with
              | error e => simp [hin, hp, hout, hq, Bind.bind, Except.bind]
              | ok outPort =>
                simp [hin, hp, hout, hq, Bind.bind, Except.bind, Pure.pure, Except.pure]

/-- Every step before the spawn succeeds. -/
structure SshSupervisor.Starts (sup : SshSupervisor) (m : Machine) (site : Site) : Prop where
  resolve : ∃ sshPath, sup.resolve m site = .ok sshPath
  bind : ∃ monitor, (sup.bindMonitor m site).1 = .ok monitor
  write : ∀ path, sup.pidfilePath = some path → m.writeError path = none

section Run

variable {self : SshSupervisor} {m : Machine} {site : Site}

/-- The loop's record and its host, as the startup hands them over. -/
def SshSupervisor.handOver (self : SshSupervisor) (sshPath : PathBuf)
    (monitor : Option ProbeLoop) (w : World) : Sys :=
  ⟨self.supervisor sshPath monitor w.now, w⟩

/-- A pidfile that cannot be written fails and leaves the site; one that can is written. -/
theorem SshSupervisor.writePidfile_cases (self : SshSupervisor) (m : Machine)
    (site : Site) :
    (∃ path source, self.pidfilePath = some path ∧ m.writeError path = some source ∧
      self.writePidfile m site = (.error (.pidfileWrite path source), site)) ∨
    ((∀ path, self.pidfilePath = some path → m.writeError path = none) ∧
      ∃ files, self.writePidfile m site =
        (.ok (self.pidfilePath.map PidfileGuard.mk), { site with files := files })) := by
  unfold SshSupervisor.writePidfile Machine.writePid
  cases self.pidfilePath with
  | none => exact .inr ⟨by simp, site.files, rfl⟩
  | some path =>
    cases hw : m.writeError path with
    | some source => exact .inl ⟨path, source, rfl, hw, by simp only [hw]⟩
    | none => exact .inr ⟨by simp [hw], _, by simp only [hw]; rfl⟩

/-- Opening the log never fails, and touches files only. -/
theorem Machine.initLogfile_ok (m : Machine) (path : Option PathBuf)
    (mode : CompatibilityMode) (site : Site) : ∃ log files,
      m.initLogfile path mode site = (.ok log, { site with files := files }) := by
  unfold Machine.initLogfile
  cases path with
  | none => exact ⟨none, site.files, rfl⟩
  | some path =>
    cases ho : m.openError path with
    | some e => exact ⟨none, site.files, by simp only [ho]⟩
    | none => exact ⟨_, _, by simp only [ho]; rfl⟩

/-- Dropping the guard touches files only. -/
theorem Machine.dropGuard_eq (m : Machine) (pidfile : Option PidfileGuard)
    (site : Site) : ∃ files, m.dropGuard pidfile site = { site with files := files } ∧
      ∀ path, pidfile = some ⟨path⟩ → m.removeError path = none → files path = none := by
  unfold Machine.dropGuard
  cases pidfile with
  | none => exact ⟨site.files, rfl, by simp⟩
  | some pidfile =>
    cases hr : m.removeError pidfile.path with
    | some e =>
      refine ⟨site.files, by simp only [hr], ?_⟩
      rintro path ⟨⟩ hnone
      rw [hr] at hnone
      cases hnone
    | none =>
      refine ⟨_, by simp only [hr]; rfl, ?_⟩
      rintro path ⟨⟩ -
      simp

/-- A failed resolve ends the run before anything is touched. -/
theorem SshSupervisor.run_of_resolve_error {e : AutosshError} (h : self.resolve m site = .error e)
    (n : Nat) (script : List (List Event)) : self.run m n script site = (.fail e, site) := by
  unfold SshSupervisor.run
  simp only [h]

/-- A failed bind ends the run with the site as it was found. -/
theorem SshSupervisor.run_of_bind_error {sshPath : PathBuf} {e : AutosshError}
    (hresolve : self.resolve m site = .ok sshPath) (h : (self.bindMonitor m site).1 = .error e)
    (n : Nat) (script : List (List Event)) : self.run m n script site = (.fail e, site) := by
  unfold SshSupervisor.run
  rcases self.bindMonitor_cases m site with ⟨e', hbind⟩ | ⟨monitor, ports, hbind, -⟩
  · rw [hbind, Except.error.injEq] at h
    simp only [hresolve, hbind, h]
  · rw [hbind] at h
    cases h

/-- A failed pidfile write ends the run with the site as it was found. -/
theorem SshSupervisor.run_of_write_error {sshPath path : PathBuf} {monitor : Option ProbeLoop}
    {source : IoError} (hresolve : self.resolve m site = .ok sshPath)
    (hbind : (self.bindMonitor m site).1 = .ok monitor) (hpath : self.pidfilePath = some path)
    (h : m.writeError path = some source) (n : Nat) (script : List (List Event)) :
    self.run m n script site = (.fail (.pidfileWrite path source), site) := by
  unfold SshSupervisor.run
  rcases self.bindMonitor_cases m site with ⟨e, hb⟩ | ⟨monitor, ports, hb, hdrop⟩
  · rw [hb] at hbind
    cases hbind
  · rcases self.writePidfile_cases m { site with listening := ports } with
      ⟨path', source', hpath', hsource, hw⟩ | ⟨hnone, -⟩
    · rw [hpath, Option.some.injEq] at hpath'
      subst hpath'
      rw [h, Option.some.injEq] at hsource
      subst hsource
      simp only [hresolve, hb, hw, hdrop]
    · rw [hnone path hpath] at h
      cases h

/-- A run whose startup succeeds is an execution of the loop; once that has returned, the
ports are as they were found and the guard has been dropped. -/
theorem SshSupervisor.run_of_starts (h : self.Starts m site) (n : Nat)
    (script : List (List Event)) : ∃ sshPath monitor,
      let outcome := execute n script (self.handOver sshPath monitor site.world)
      (self.run m n script site).1 = outcome.out ∧
      (self.run m n script site).2.world = outcome.state.world ∧
      (IsClosed outcome.out → (self.run m n script site).2.listening = site.listening ∧
        ∀ path, self.pidfilePath = some path → m.removeError path = none →
          (self.run m n script site).2.files path = none) := by
  obtain ⟨sshPath, hresolve⟩ := h.resolve
  obtain ⟨monitor', hbind'⟩ := h.bind
  rcases self.bindMonitor_cases m site with ⟨e, hbind⟩ | ⟨monitor, ports, hbind, hdrop⟩
  · rw [hbind] at hbind'
    cases hbind'
  · rcases self.writePidfile_cases m { site with listening := ports } with
      ⟨path, source, hpath, hsource, -⟩ | ⟨-, files, hwrite⟩
    · rw [h.write path hpath] at hsource
      cases hsource
    · obtain ⟨log, files', hlog⟩ := m.initLogfile_ok self.logfilePath self.compatibilityMode
        { site with listening := ports, files := files }
      refine ⟨sshPath, monitor, ?_⟩
      unfold SshSupervisor.run
      simp only [hresolve, hbind, hwrite, hlog, hdrop, SshSupervisor.handOver]
      generalize execute n script ⟨self.supervisor sshPath monitor site.world.now, site.world⟩ =
        outcome
      obtain ⟨files'', hguard, hremoved⟩ := m.dropGuard_eq (self.pidfilePath.map PidfileGuard.mk)
        ⟨site.listening, files', outcome.state.world⟩
      have hclean : ∀ path, self.pidfilePath = some path → m.removeError path = none →
          files'' path = none := by
        intro path hpath
        exact hremoved path (by rw [hpath]; rfl)
      rcases outcome with ⟨out, t, rest⟩
      cases out with
      | ret flow =>
        cases flow with
        | looping next => exact ⟨rfl, rfl, fun hclosed => hclosed.elim⟩
        | returned =>
          simp only [hguard]
          exact ⟨trivial, trivial, fun _ => ⟨trivial, hclean⟩⟩
      | fail e =>
        simp only [hguard]
        exact ⟨trivial, trivial, fun _ => ⟨trivial, hclean⟩⟩
      | abort =>
        simp only [hguard]
        exact ⟨trivial, trivial, fun hclosed => hclosed.elim⟩
      | pending => exact ⟨rfl, rfl, fun hclosed => hclosed.elim⟩

/-- A failed first spawn ends the run of the loop with nothing spawned. -/
theorem execute_of_spawn_error {s₀ : Sys} {e : IoError}
    (h : s₀.world.spawnResult s₀.world.spawns = .error e) (n : Nat)
    (script : List (List Event)) :
    execute n script s₀ = ⟨.fail (.io e), s₀.afterFailedSpawn s₀.sup.argv e, script⟩ := by
  have hspawn : s₀.world.spawn s₀.sup.sshPath s₀.sup.argv =
      (.error e, (s₀.afterFailedSpawn s₀.sup.argv e).world) := by
    simp [World.spawn, h, Sys.afterFailedSpawn]
  have hchild : host.drive spawnChild script s₀ =
      ⟨.fail (.io e), s₀.afterFailedSpawn s₀.sup.argv e, script⟩ := by
    refine (drive_call_of_ready (a := s₀.sup) rfl script).trans ?_
    refine (drive_call_of_ready (a := .error e) (t := s₀.afterFailedSpawn s₀.sup.argv e)
      ?_ script).trans rfl
    show (some (s₀.world.spawn s₀.sup.sshPath s₀.sup.argv).1,
      Sys.mk s₀.sup (s₀.world.spawn s₀.sup.sshPath s₀.sup.argv).2) = _
    rw [hspawn]
    rfl
  have hzero : execute 0 script s₀ =
      ⟨.fail (.io e), s₀.afterFailedSpawn s₀.sup.argv e, script⟩ := by
    rw [execute, runFor, startUp, drive_bind, hchild]
  rw [execute_of_le (Nat.zero_le n) (by rw [hzero]; simp), hzero]

/-- A step of the startup that fails ends the run with its error before a later step has had
any effect: the ports, the files and the processes are as they were found, or, where it is
the spawn, no process is there. A run that has returned has closed every monitor listener,
and has removed the pidfile it wrote unless the system refused to. -/
theorem SshSupervisor.run_startup_ordered (self : SshSupervisor) (m : Machine) (site : Site)
    (n : Nat) (script : List (List Event)) :
    (∀ e, self.resolve m site = .error e → self.run m n script site = (.fail e, site)) ∧
    (∀ sshPath e, self.resolve m site = .ok sshPath → (self.bindMonitor m site).1 = .error e →
      self.run m n script site = (.fail e, site)) ∧
    (∀ sshPath monitor path source, self.resolve m site = .ok sshPath →
      (self.bindMonitor m site).1 = .ok monitor → self.pidfilePath = some path →
      m.writeError path = some source →
      self.run m n script site = (.fail (.pidfileWrite path source), site)) ∧
    (∀ e, self.Starts m site → site.world.spawnResult site.world.spawns = .error e →
      (self.run m n script site).1 = .fail (.io e) ∧
      (self.run m n script site).2.world.procs = site.world.procs) ∧
    (IsClosed (self.run m n script site).1 →
      (self.run m n script site).2.listening = site.listening ∧
      (self.Starts m site → ∀ path, self.pidfilePath = some path → m.removeError path = none →
        (self.run m n script site).2.files path = none)) := by
  refine ⟨fun e h => run_of_resolve_error h n script,
    fun sshPath e hr hb => run_of_bind_error hr hb n script,
    fun sshPath monitor path source hr hb hp hw => run_of_write_error hr hb hp hw n script,
    fun e hstarts hspawn => ?_, fun hclosed => ?_⟩
  · obtain ⟨sshPath, monitor, hout, hworld, -⟩ := run_of_starts hstarts n script
    rw [hout, hworld, execute_of_spawn_error hspawn]
    exact ⟨rfl, rfl⟩
  · by_cases hstarts : self.Starts m site
    · obtain ⟨sshPath, monitor, hout, -, hclean⟩ := run_of_starts hstarts n script
      obtain ⟨hports, hfiles⟩ := hclean (hout ▸ hclosed)
      exact ⟨hports, fun _ => hfiles⟩
    · refine ⟨?_, fun h => absurd h hstarts⟩
      cases hr : self.resolve m site with
      | error e => rw [run_of_resolve_error hr]
      | ok sshPath =>
        cases hb : (self.bindMonitor m site).1 with
        | error e => rw [run_of_bind_error hr hb]
        | ok monitor =>
          cases hp : self.pidfilePath with
          | none => exact absurd ⟨⟨_, hr⟩, ⟨_, hb⟩, by simp [hp]⟩ hstarts
          | some path =>
            cases hw : m.writeError path with
            | some source => rw [run_of_write_error hr hb hp hw]
            | none => exact absurd ⟨⟨_, hr⟩, ⟨_, hb⟩, by simp [hp, hw]⟩ hstarts

end Run

/-- A machine on which a port can be listened on if and only if nobody does, with an ssh
binary named by the environment, and the removals it refuses. -/
def Machine.refusing (removeError : PathBuf → Option IoError) : Machine where
  target := .unix
  autosshPath := some (.utf8 "/usr/bin/ssh")
  path := none
  splitPaths _ := []
  join dir _ := dir
  tcp := .vacant
  pid := 42
  writeError _ := none
  openError _ := none
  removeError := removeError

/-- A supervisor with monitor port 20000 and a pidfile, which looks for ssh. -/
def SshSupervisor.withPidfile (path : PathBuf) : SshSupervisor :=
  { SshSupervisor.onPort 20000 with sshPath := none, pidfilePath := some path }

/-- A Terminate ends the run: both monitor ports are free again and the pidfile is gone. -/
theorem SshSupervisor.run_startup_ordered_terminated :
    ((SshSupervisor.withPidfile (.utf8 "/run/p")).run (.refusing fun _ => none) 1
      [[.signal (.signalReceived .terminate)], [.exit 0 ⟨15⟩]]
      ⟨[22], fun _ => none, .initial .unix⟩).2.listening = [22] := by
  have h := SshSupervisor.run_startup_ordered (.withPidfile (.utf8 "/run/p"))
    (.refusing fun _ => none) ⟨[22], fun _ => none, .initial .unix⟩ 1
    [[.signal (.signalReceived .terminate)], [.exit 0 ⟨15⟩]]
  exact (h.2.2.2.2 (by decide +kernel)).1

/-- Where the system refuses to remove the file, the run returns and leaves its pidfile. -/
theorem SshSupervisor.run_leaves_pidfile :
    ((SshSupervisor.withPidfile (.utf8 "/run/p")).run (.refusing fun _ => some ⟨13⟩) 1
        [[.signal (.signalReceived .terminate)], [.exit 0 ⟨15⟩]]
        ⟨[22], fun _ => none, .initial .unix⟩).1 = .ret .returned ∧
      ((SshSupervisor.withPidfile (.utf8 "/run/p")).run (.refusing fun _ => some ⟨13⟩) 1
        [[.signal (.signalReceived .terminate)], [.exit 0 ⟨15⟩]]
        ⟨[22], fun _ => none, .initial .unix⟩).2.files (.utf8 "/run/p") =
          some (intoBytes "42\n") := by
  decide +kernel

end RustyAutossh
