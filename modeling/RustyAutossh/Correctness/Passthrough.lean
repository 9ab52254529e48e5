import RustyAutossh.Correctness.Activation
import RustyAutossh.Correctness.ExitCode
import RustyAutossh.Correctness.Lossless

/-!
# From the arguments of the process to those of ssh

The parser, the dispatcher, the startup and the loop each hand the arguments of ssh on. Put
together: every ssh the program ever spawns is the binary that was found, given the forwards of
the monitor that was bound and then what stood behind the options of the process.
-/

namespace RustyAutossh

open Async

/-- The supervisor of the strict dispatcher has the arguments its parser left for ssh. -/
theorem runStrict_sshArgs {host : DaemonHost} {env : EnvSnapshot} {args : List OsString}
    {s : SshSupervisor} (h : runStrict host env args = .run s) :
    ∃ parsed, parseArgv args = .ok parsed ∧ s.sshArgs = parsed.sshArgs := by
  cases hparse : parseArgv args with
  | error e =>
    simp only [runStrict, hparse] at h
    cases h
  | ok parsed =>
    refine ⟨parsed, rfl, ?_⟩
    simp only [runStrict, hparse] at h
    split at h
    · cases h
    · split at h
      · cases h
      · rw [dispatch_eq_run h]
        cases env.getStr "AUTOSSH_MESSAGE" <;> cases env.vars "AUTOSSH_PIDFILE" <;>
          cases env.vars "AUTOSSH_LOGFILE" <;> rfl

/-- The supervisor of the default dispatcher has those clap left. -/
theorem runDefault_sshArgs {host : DaemonHost} {env : EnvSnapshot} {parsed : Except UInt8 Cli}
    {s : SshSupervisor} (h : runDefault host env parsed = .run s) :
    ∃ cli, parsed = .ok cli ∧ s.sshArgs = cli.sshArgs := by
  cases parsed with
  | error code => cases h
  | ok cli =>
    refine ⟨cli, rfl, ?_⟩
    simp only [runDefault] at h
    split at h
    · cases h
    · split at h
      · cases h
      · rw [dispatch_eq_run h]
        cases cli.sshPath <;> cases env.getStr "AUTOSSH_MESSAGE" <;>
          cases pidfilePathFromCliOrEnv cli.pidFile env <;>
          cases logfilePathFromCliOrEnv cli.logFile env <;> rfl

/-- What a run does to its world: nothing, or what the loop does to it with the binary that was
found and the monitor that was bound. -/
theorem SshSupervisor.run_world_cases (self : SshSupervisor) (m : Machine) (n : Nat)
    (script : List (List Event)) (site : Site) :
    (self.run m n script site).2.world = site.world ∨ ∃ sshPath monitor,
      self.resolve m site = .ok sshPath ∧ (self.bindMonitor m site).1 = .ok monitor ∧
      (self.run m n script site).2.world =
        (execute n script (self.handOver sshPath monitor site.world)).state.world := by
  cases hresolve : self.resolve m site with
  | error e => exact .inl (by rw [run_of_resolve_error hresolve])
  | ok sshPath =>
    rcases self.bindMonitor_cases m site with ⟨e, hbind⟩ | ⟨monitor, ports, hbind, hdrop⟩
    · exact .inl (by rw [run_of_bind_error hresolve (congrArg Prod.fst hbind)])
    rcases self.writePidfile_cases m { site with listening := ports } with
      ⟨path, source, hpath, hsource, -⟩ | ⟨-, files, hwrite⟩
    · exact .inl (by
        rw [run_of_write_error hresolve (congrArg Prod.fst hbind) hpath hsource])
    obtain ⟨log, files', hlog⟩ := m.initLogfile_ok self.logfilePath self.compatibilityMode
      { site with listening := ports, files := files }
    refine .inr ⟨sshPath, monitor, rfl, congrArg Prod.fst hbind, ?_⟩
    unfold SshSupervisor.run
    simp only [hresolve, hbind, hwrite, hlog, hdrop, SshSupervisor.handOver]
    generalize execute n script ⟨self.supervisor sshPath monitor site.world.now, site.world⟩ =
      outcome
    obtain ⟨files'', hguard, -⟩ := m.dropGuard_eq (self.pidfilePath.map PidfileGuard.mk)
      ⟨site.listening, files', outcome.state.world⟩
    rcases outcome with ⟨out, t, rest⟩
    rcases out with flow | e | _ | _
    · cases flow with
      | looping next => rfl
      | returned => simp only [hguard]
    · simp only [hguard]
    · simp only [hguard]
    · rfl

/-- Each spawn in a log runs the ssh binary that was found, with the forwards of the monitor
that was bound and then the given arguments. -/
def SpawnsWith (c : Computer) (s : SshSupervisor) (site : Site) (user : List String)
    (log : List Entry) : Prop :=
  ∀ e ∈ log, ∀ path args result, e.act = .spawned path args result →
    s.resolve c.machine site = .ok path ∧ ∃ monitor,
      (s.bindMonitor c.machine site).1 = .ok monitor ∧
      args = injectMonitorForwards (s.boundMode monitor) user

/-- Every spawn of the program is given the supervisor's arguments. -/
private theorem main_spawnsWith {c : Computer} {argv : List OsString} {s : SshSupervisor}
    {site : Site} (hprocs : site.world.procs = []) (hhistory : site.world.history = [])
    (hrun : run c.daemon c.env c.tryParse argv = some (.run s)) (n : Nat)
    (script : List (List Event)) :
    SpawnsWith c s site s.sshArgs (c.main argv n script site).2.world.history := by
  intro e he path args result hact
  rw [Computer.main_of_run hrun] at he
  unfold Computer.futuresBlockingRun at he
  have hfresh : e ∉ site.world.history := by simp [hhistory]
  cases hruntime : c.runtimeError with
  | some error =>
    rw [hruntime] at he
    exact absurd he hfresh
  | none =>
    rw [hruntime] at he
    replace he : e ∈ (s.run c.machine n script site).2.world.history := he
    rcases s.run_world_cases c.machine n script site with
      hsame | ⟨sshPath, monitor, hresolve, hbind, hworld⟩
    · exact absurd (hsame ▸ he) hfresh
    · rw [hworld] at he
      have hs : (s.handOver sshPath monitor site.world).Fresh := ⟨rfl, hprocs, hhistory⟩
      obtain ⟨out, t, hend, hgrows⟩ := execute_logGrows hs.still n script
      obtain ⟨rfl, rfl⟩ := hend.spawn_line hs e (hgrows.subset he) path args result hact
      exact ⟨hresolve, monitor, hbind, rfl⟩

/-- How plain arguments that are accepted end in those of ssh: behind the options come the
separator or, without one, a rest in which no option is left. -/
theorem Plain.exists_user {argv : List OsString} {a : StrictArgs} (hplain : Plain argv)
    (h : parseArgv argv = .ok a) : ∃ (units : List StrictUnit) (sep : List String),
      argv = (units.flatMap StrictUnit.tokens ++ sep ++ a.sshArgs).map .utf8 ∧
        (sep = ["--"] ∨ sep = [] ∧ Continues a.sshArgs) := by
  obtain ⟨units, sep, rfl, hsep, -⟩ := hplain.lossless h
  refine ⟨units, sep, rfl, ?_⟩
  rcases hsep with rfl | rfl
  · rw [List.append_nil] at h
    have hssh := (parseArgv_commandLine units a.sshArgs).symm.trans h
    exact .inr ⟨rfl, continues_of_length hssh (Nat.zero_add _).symm⟩
  · exact .inl rfl

/-- Every ssh the program spawns, over every script, is the binary that was found, given the
forwards of the monitor that was bound and then the user's arguments: those clap parsed, or
those the strict parser left. Of plain arguments the latter are what stands behind the options
and the separator of the process. -/
theorem main_passes_arguments (c : Computer) (argv : List OsString) (n : Nat)
    (script : List (List Event)) (site : Site) (hprocs : site.world.procs = [])
    (hhistory : site.world.history = []) {s : SshSupervisor}
    (hrun : run c.daemon c.env c.tryParse argv = some (.run s)) :
    ∃ user, SpawnsWith c s site user (c.main argv n script site).2.world.history ∧
      (runMode c.daemon.target c.env argv = some .default → ∃ cli, c.tryParse argv = .ok cli ∧
        user = cli.sshArgs) ∧
      (runMode c.daemon.target c.env argv = some .strict → ∃ parsed,
        parseArgv argv.tail = .ok parsed ∧ user = parsed.sshArgs ∧
        (Plain argv.tail → ∃ (units : List StrictUnit) (sep : List String),
          argv.tail = (units.flatMap StrictUnit.tokens ++ sep ++ user).map .utf8 ∧
            (sep = ["--"] ∨ sep = [] ∧ Continues user))) := by
  refine ⟨s.sshArgs, main_spawnsWith hprocs hhistory hrun n script, fun hmode => ?_,
    fun hmode => ?_⟩
  · rw [run, hmode] at hrun
    exact runDefault_sshArgs (Option.some.inj hrun)
  · cases argv with
    | nil => cases hmode
    | cons first args =>
      rw [runMode_cons, Option.some.injEq] at hmode
      rw [run_cons, if_pos hmode, Option.some.injEq] at hrun
      obtain ⟨parsed, hparse, hargs⟩ := runStrict_sshArgs hrun
      exact ⟨parsed, hparse, hargs, fun hplain => hargs ▸ hplain.exists_user hparse⟩

/-- An autossh that respawns its ssh twice passes on what stands behind the separator. -/
theorem main_passes_arguments_separator :
    ∃ (s : SshSupervisor) (user : List String) (units : List StrictUnit) (sep : List String),
      SpawnsWith .plain s ⟨[], fun _ => none, .initial .unix⟩ user
        (Computer.plain.main (["autossh", "-M", "0", "--", "-N", "host"].map .utf8) 2
          [[.signal (.signalReceived .hangup)], [.exit 0 ⟨15⟩]]
          ⟨[], fun _ => none, .initial .unix⟩).2.world.history ∧
      ["-M", "0", "--", "-N", "host"].map OsString.utf8 =
        (units.flatMap StrictUnit.tokens ++ sep ++ user).map .utf8 := by
  obtain ⟨user, hspawns, -, hstrict⟩ := main_passes_arguments .plain
    (["autossh", "-M", "0", "--", "-N", "host"].map .utf8) 2
    [[.signal (.signalReceived .hangup)], [.exit 0 ⟨15⟩]] ⟨[], fun _ => none, .initial .unix⟩
    rfl rfl rfl
  obtain ⟨-, -, -, hplain⟩ := hstrict rfl
  obtain ⟨units, sep, hsplit, -⟩ := hplain
    ⟨["-M", "0", "--", "-N", "host"], rfl, by decide +kernel, by decide +kernel⟩
  exact ⟨_, user, units, sep, hspawns, hsplit⟩

end RustyAutossh
