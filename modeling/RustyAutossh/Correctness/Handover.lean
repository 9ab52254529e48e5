import RustyAutossh.Correctness.Activation
import RustyAutossh.Correctness.Detach
import RustyAutossh.Correctness.Precedence

/-!
# What detaching on Windows hands over

With `-f` the process that was started on Windows starts the program once more and ends. The
second process reads its arguments off the line that was built for it, has one more variable
in its environment, and goes on to the run of the supervisor.
-/

namespace RustyAutossh

/-- The environment of the detached child, which inherits it with the marker set. -/
def EnvSnapshot.marked (env : EnvSnapshot) : EnvSnapshot where
  vars key := if key = "RUSTY_AUTOSSH_DETACHED" then some (.utf8 "1") else env.vars key

/-- A Windows host with what `detach_windows` answers there. -/
def DaemonHost.windows (detached : Except AutosshError Unit) : DaemonHost :=
  ⟨.windows, fun _ => .ok (), detached⟩

/-- What a process on Windows passes to another: `current_exe`, and text as UTF-16 units with
`encode_wide` and back with `from_wide`. -/
structure Respawn where
  currentExe : OsString
  encodeWide : OsString → List UInt16
  fromWide : List UInt16 → OsString

/-- The arguments the detached child reads. -/
def Respawn.childArgv (r : Respawn) (args : List OsString) : List OsString :=
  (received (cmdlineBuf (r.encodeWide r.currentExe) (args.map r.encodeWide))).map r.fromWide

/-- The arguments survive: the units hold them without a NUL, the path has no quote in it, and
each argument is plain. -/
structure Respawn.Keeps (r : Respawn) (args : List OsString) : Prop where
  inverse : ∀ s ∈ r.currentExe :: args, r.fromWide (r.encodeWide s) = s
  noNul : ∀ s ∈ r.currentExe :: args, 0 ∉ r.encodeWide s
  noQuote : 0x22 ∉ r.encodeWide r.currentExe
  plain : ∀ s ∈ args, CommandLine.Plain (r.encodeWide s)

/-- The child has the path of the program and the same arguments. -/
theorem Respawn.childArgv_eq {r : Respawn} {args : List OsString} (h : r.Keeps args) :
    r.childArgv args = r.currentExe :: args := by
  have hread : received (cmdlineBuf (r.encodeWide r.currentExe) (args.map r.encodeWide)) =
      (r.currentExe :: args).map r.encodeWide := by
    rw [received_cmdlineBuf (h.noNul _ List.mem_cons_self) ?nul]
    · exact (CommandLine.parse_quoted_iff h.noQuote _).mpr (List.forall_mem_map.mpr h.plain)
    case nul => exact List.forall_mem_map.mpr fun s hs => h.noNul s (List.mem_cons_of_mem _ hs)
  rw [childArgv, hread, List.map_map]
  exact (List.map_congr_left h.inverse).trans (List.map_id _)

namespace EnvSnapshot

/-- Only the marker is another in the child. -/
theorem vars_marked (env : EnvSnapshot) {key : String} (h : key ≠ "RUSTY_AUTOSSH_DETACHED") :
    env.marked.vars key = env.vars key := if_neg h

theorem getStr_marked (env : EnvSnapshot) {key : String} (h : key ≠ "RUSTY_AUTOSSH_DETACHED") :
    env.marked.getStr key = env.getStr key := by
  rw [getStr, vars_marked env h]
  rfl

end EnvSnapshot

theorem resolve_marked (target : Target) (args : List OsString) (env : EnvSnapshot)
    (argv0 : OsString) : resolve target args env.marked argv0 = resolve target args env argv0 := by
  have hactivates : envActivates env.marked = envActivates env := by
    rw [envActivates, env.getStr_marked (by decide)]
    rfl
  rw [resolve, hactivates]
  rfl

/-- The clock is read off other variables. -/
theorem resolveFromEnvAndFlags_marked (env : EnvSnapshot) (flags : ClockFlags)
    (background : Bool) : PollClock.resolveFromEnvAndFlags env.marked flags background =
      PollClock.resolveFromEnvAndFlags env flags background := by
  have hclock : PollClock.resolveFromEnv env.marked = PollClock.resolveFromEnv env := by
    unfold PollClock.resolveFromEnv
    rw [env.getStr_marked (by decide), env.getStr_marked (by decide),
      env.getStr_marked (by decide), env.getStr_marked (by decide),
      env.getStr_marked (by decide)]
  rw [PollClock.resolveFromEnvAndFlags, hclock]
  rfl

/-- With the marker set, detaching comes back at once, as it does where it goes on in place. -/
theorem performDaemonizeDefault_marked (detached : Except AutosshError Unit)
    (logfile : Option PathBuf) (env : EnvSnapshot) :
    performDaemonizeDefault (.windows detached) logfile env.marked =
      performDaemonizeDefault .plain logfile env := rfl

/-- Without it, detaching is up to the new process. -/
theorem performDaemonizeDefault_unmarked {env : EnvSnapshot}
    (h : env.vars "RUSTY_AUTOSSH_DETACHED" = none) (detached : Except AutosshError Unit)
    (logfile : Option PathBuf) : performDaemonizeDefault (.windows detached) logfile env =
      match detached with
      | .ok () => .exits 0
      | .error e => .fails e := by
  simp only [performDaemonizeDefault, DaemonHost.windows, h, Option.isSome_none]
  rfl

/-- What the dispatcher of the detached child comes to is what detaching in place does. -/
theorem runDefault_marked (detached : Except AutosshError Unit) (env : EnvSnapshot)
    (parsed : Except UInt8 Cli) :
    runDefault (.windows detached) env.marked parsed = runDefault .plain env parsed := by
  cases parsed with
  | error code => rfl
  | ok cli =>
    unfold runDefault
    simp only [performDaemonizeDefault_marked, resolveFromEnvAndFlags_marked,
      pidfilePathFromCliOrEnv_eq, logfilePathFromCliOrEnv_eq]
    rw [env.getStr_marked (by decide), env.vars_marked (by decide), env.vars_marked (by decide)]

theorem runStrict_marked (detached : Except AutosshError Unit) (env : EnvSnapshot)
    (args : List OsString) :
    runStrict (.windows detached) env.marked args = runStrict .plain env args := by
  unfold runStrict
  simp only [performDaemonizeDefault_marked, resolveFromEnvAndFlags_marked]
  rw [env.getStr_marked (by decide), env.vars_marked (by decide), env.vars_marked (by decide)]

/-- What a process with these arguments comes to, in the mode it has on Windows, if detaching
goes on in place. -/
def runInPlace (env : EnvSnapshot) (tryParse : List OsString → Except UInt8 Cli)
    (argv : List OsString) : Option Dispatch :=
  (runMode .windows env argv).map fun
    | .strict => runStrict .plain env argv.tail
    | .default => runDefault .plain env (tryParse argv)

/-- Whether the arguments ask for the background, in the mode they have on Windows. -/
def asksBackground (env : EnvSnapshot) (tryParse : List OsString → Except UInt8 Cli)
    (argv : List OsString) : Bool :=
  match runMode .windows env argv with
  | some .strict => (parseArgv argv.tail).toOption.any StrictArgs.background
  | some .default => (tryParse argv).toOption.any Cli.background
  | none => false

/-- How a process on Windows compares with one that detaches in place: it leaves with the same
code, or it runs the supervisor itself, or it was asked for the background and leaves where the
other runs one, with 0 if there is a new process. -/
inductive HandsOver (background : Bool) (windows : Except AutosshError Unit → Dispatch)
    (inPlace : Dispatch) : Prop
  | leaves (code : UInt8) : inPlace = .exit code → (∀ detached, windows detached = .exit code) →
      HandsOver background windows inPlace
  | stays (s : SshSupervisor) : background = false → inPlace = .run s →
      (∀ detached, windows detached = .run s) → HandsOver background windows inPlace
  | detaches (s : SshSupervisor) : background = true → inPlace = .run s →
      windows (.ok ()) = .exit 0 → (∀ reason, windows (.error (.daemonize reason)) = .exit 2) →
      HandsOver background windows inPlace

/-- Where detaching in place leads to an exit, so does detaching on Windows. -/
theorem HandsOver.of_exit {background : Bool} {windows : Except AutosshError Unit → Dispatch}
    {code : UInt8} (h : HandsOver background windows (.exit code))
    (detached : Except AutosshError Unit) : windows detached = .exit code := by
  cases h with
  | leaves _ heq hall => rw [hall, heq]
  | stays _ _ heq => cases heq
  | detaches _ _ heq => cases heq

/-- Where it leads to a run, the process runs the supervisor itself or has detached. -/
theorem HandsOver.of_run {background : Bool} {windows : Except AutosshError Unit → Dispatch}
    {s : SshSupervisor} (h : HandsOver background windows (.run s)) :
    (background = false → ∀ detached, windows detached = .run s) ∧
      (background = true → windows (.ok ()) = .exit 0 ∧
        ∀ reason, windows (.error (.daemonize reason)) = .exit 2) := by
  cases h with
  | leaves _ heq => cases heq
  | stays _ hback heq hall => exact ⟨fun _ _ => by rw [hall, heq], by simp [hback]⟩
  | detaches _ hback _ hexits hfails => exact ⟨by simp [hback], fun _ => ⟨hexits, hfails⟩⟩

/-- Detaching is the last thing before the run. -/
theorem handsOver_dispatch {env : EnvSnapshot} (h : env.vars "RUSTY_AUTOSSH_DETACHED" = none)
    (background : Bool) (logfile : Option PathBuf) {onError : AutosshError → UInt8}
    (honError : ∀ reason, onError (.daemonize reason) = 2) (builder : SshSupervisorBuilder) :
    HandsOver background (fun detached => dispatch background
        (performDaemonizeDefault (.windows detached) logfile env) onError builder)
      (dispatch background (performDaemonizeDefault .plain logfile env) onError builder) := by
  cases background with
  | false => exact .stays builder.build rfl rfl fun _ => rfl
  | true =>
    simp only [performDaemonizeDefault_unmarked h]
    exact .detaches builder.build rfl rfl rfl fun reason => congrArg Dispatch.exit (honError reason)

theorem handsOver_runDefault {env : EnvSnapshot}
    (h : env.vars "RUSTY_AUTOSSH_DETACHED" = none) (parsed : Except UInt8 Cli) :
    HandsOver (parsed.toOption.any Cli.background)
      (fun detached => runDefault (.windows detached) env parsed)
      (runDefault .plain env parsed) := by
  cases parsed with
  | error code => exact .leaves code rfl fun _ => rfl
  | ok cli =>
    cases hcommand : cli.command with
    | some command =>
      have hexit : ∀ host, runDefault host env (.ok cli) = .exit 0 := fun host => by
        simp only [runDefault, hcommand]
      exact .leaves 0 (hexit _) fun _ => hexit _
    | none =>
      cases hmonitor : parseMonitorValue cli.monitor with
      | error msg =>
        have hexit : ∀ host, runDefault host env (.ok cli) = .exit 2 := fun host => by
          simp only [runDefault, hcommand, hmonitor]
        exact .leaves 2 (hexit _) fun _ => hexit _
      | ok mode =>
        simp only [runDefault, hcommand, hmonitor]
        exact handsOver_dispatch h cli.background _ (fun _ => rfl) _

theorem handsOver_runStrict {env : EnvSnapshot}
    (h : env.vars "RUSTY_AUTOSSH_DETACHED" = none) (args : List OsString) :
    HandsOver ((parseArgv args).toOption.any StrictArgs.background)
      (fun detached => runStrict (.windows detached) env args) (runStrict .plain env args) := by
  cases hparse : parseArgv args with
  | error e =>
    have hexit : ∀ host, runStrict host env args = .exit 1 := fun host => by
      simp only [runStrict, hparse]
    exact .leaves 1 (hexit _) fun _ => hexit _
  | ok parsed =>
    cases hversion : parsed.version with
    | true =>
      have hexit : ∀ host, runStrict host env args = .exit 0 := fun host => by
        simp only [runStrict, hparse, hversion, if_true]
      exact .leaves 0 (hexit _) fun _ => hexit _
    | false =>
      cases hmonitor : parseMonitorValue parsed.monitor with
      | error msg =>
        have hexit : ∀ host, runStrict host env args = .exit 1 := fun host => by
          simp only [runStrict, hparse, hversion, hmonitor]
          rfl
        exact .leaves 1 (hexit _) fun _ => hexit _
      | ok mode =>
        simp only [runStrict, hparse, hversion, hmonitor]
        exact handsOver_dispatch h parsed.background _ (fun _ => rfl) _

theorem runInPlace_cons (env : EnvSnapshot) (tryParse : List OsString → Except UInt8 Cli)
    (first : OsString) (args : List OsString) : runInPlace env tryParse (first :: args) =
      some (if resolve .windows args env first = .strict then runStrict .plain env args
        else runDefault .plain env (tryParse (first :: args))) := by
  rw [runInPlace, runMode_cons]
  cases resolve .windows args env first with
  | strict => rfl
  | default => rfl

theorem asksBackground_cons (env : EnvSnapshot) (tryParse : List OsString → Except UInt8 Cli)
    (first : OsString) (args : List OsString) : asksBackground env tryParse (first :: args) =
      if resolve .windows args env first = .strict
        then (parseArgv args).toOption.any StrictArgs.background
        else (tryParse (first :: args)).toOption.any Cli.background := by
  rw [asksBackground, runMode_cons]
  cases resolve .windows args env first with
  | strict => rfl
  | default => rfl

/-- Whatever a process with the marker is given, it does not detach. -/
theorem run_marked (detached : Except AutosshError Unit) (env : EnvSnapshot)
    (tryParse : List OsString → Except UInt8 Cli) (argv : List OsString) :
    run (.windows detached) env.marked tryParse argv = runInPlace env tryParse argv := by
  cases argv with
  | nil => rfl
  | cons first args =>
    rw [run_cons, runInPlace_cons, resolve_marked, runStrict_marked, runDefault_marked]
    rfl

/-- A process without the marker hands over. -/
theorem run_handsOver {env : EnvSnapshot} (h : env.vars "RUSTY_AUTOSSH_DETACHED" = none)
    (tryParse : List OsString → Except UInt8 Cli) (first : OsString) (args : List OsString) :
    ∃ windows inPlace, HandsOver (asksBackground env tryParse (first :: args)) windows inPlace ∧
      runInPlace env tryParse (first :: args) = some inPlace ∧
      ∀ detached, run (.windows detached) env tryParse (first :: args) =
        some (windows detached) := by
  have hrun : ∀ detached, run (.windows detached) env tryParse (first :: args) =
      some (if resolve .windows args env first = .strict
        then runStrict (.windows detached) env args
        else runDefault (.windows detached) env (tryParse (first :: args))) := fun detached =>
    run_cons (.windows detached) env tryParse first args
  refine ⟨_, _, ?_, runInPlace_cons env tryParse first args, hrun⟩
  rw [asksBackground_cons]
  split
  · exact handsOver_runStrict h args
  · exact handsOver_runDefault h (tryParse (first :: args))

/-- On Windows exactly one process comes to the run of a supervisor, the one it would be if
detaching went on in place. A process with the marker never detaches, and one that is not asked
for the background runs the supervisor itself. One that is leaves, with 0 if there is a new
process and else with 2, and the child reads the path of the program and the same arguments; so
it runs that supervisor if they stand for the same mode and options behind this path. -/
theorem windows_hands_over (r : Respawn) (env : EnvSnapshot)
    (tryParse : List OsString → Except UInt8 Cli) (first : OsString) (args : List OsString)
    (hmarker : env.vars "RUSTY_AUTOSSH_DETACHED" = none) (hkeeps : r.Keeps args) :
    (∀ detached argv, run (.windows detached) env.marked tryParse argv =
      runInPlace env tryParse argv) ∧
    r.childArgv args = r.currentExe :: args ∧
    (∀ code, runInPlace env tryParse (first :: args) = some (.exit code) → ∀ detached,
      run (.windows detached) env tryParse (first :: args) = some (.exit code)) ∧
    ∀ s, runInPlace env tryParse (first :: args) = some (.run s) →
      (asksBackground env tryParse (first :: args) = false → ∀ detached,
        run (.windows detached) env tryParse (first :: args) = some (.run s)) ∧
      (asksBackground env tryParse (first :: args) = true →
        run (.windows (.ok ())) env tryParse (first :: args) = some (.exit 0) ∧
        (∀ reason, run (.windows (.error (.daemonize reason))) env tryParse (first :: args) =
          some (.exit 2)) ∧
        (resolve .windows args env r.currentExe = resolve .windows args env first →
          tryParse (r.currentExe :: args) = tryParse (first :: args) → ∀ detached,
          run (.windows detached) env.marked tryParse (r.childArgv args) = some (.run s))) := by
  have hargv : r.childArgv args = r.currentExe :: args := Respawn.childArgv_eq hkeeps
  obtain ⟨windows, inPlace, hhands, hinPlace, hrun⟩ := run_handsOver hmarker tryParse first args
  refine ⟨fun detached argv => run_marked detached env tryParse argv, hargv, fun code hcode => ?_,
    fun s hs => ?_⟩
  · intro detached
    obtain rfl := Option.some.inj (hinPlace.symm.trans hcode)
    rw [hrun, hhands.of_exit]
  · obtain rfl := Option.some.inj (hinPlace.symm.trans hs)
    obtain ⟨hstays, hdetaches⟩ := hhands.of_run
    refine ⟨fun hnone detached => by rw [hrun, hstays hnone], fun hasks => ?_⟩
    obtain ⟨hexits, hfails⟩ := hdetaches hasks
    refine ⟨by rw [hrun, hexits], fun reason => by rw [hrun, hfails], ?_⟩
    intro hmode hclap detached
    rw [run_marked, hargv, runInPlace_cons, hmode, hclap, ← runInPlace_cons, hs]

/-- A program in a directory, with text in ASCII. -/
def Respawn.ascii : Respawn where
  currentExe := .utf8 "C:\\bin\\autossh.exe"
  encodeWide s := wide s.toStringLossy
  fromWide units := .utf8 (String.ofList (units.map fun u => Char.ofNat u.toNat))

/-- An autossh in the background leaves its ssh to a second one. -/
theorem windows_hands_over_background :
    ∃ s : SshSupervisor, s.sshArgs = ["a b"] ∧
      run (.windows (.ok ())) ⟨fun _ => none⟩ (fun _ => .error 2)
        (["autossh", "-f", "a b"].map .utf8) = some (.exit 0) ∧
      run (.windows (.ok ())) (EnvSnapshot.marked ⟨fun _ => none⟩) (fun _ => .error 2)
        (Respawn.ascii.childArgv (["-f", "a b"].map .utf8)) = some (.run s) := by
  obtain ⟨-, -, -, hruns⟩ := windows_hands_over .ascii ⟨fun _ => none⟩ (fun _ => .error 2)
    (.utf8 "autossh") (["-f", "a b"].map .utf8) rfl
    ⟨by decide +kernel, by decide +kernel, by decide +kernel,
      by unfold CommandLine.Plain; decide +kernel⟩
  obtain ⟨hexits, -, hchild⟩ := (hruns _ rfl).2 (by decide +kernel)
  exact ⟨_, rfl, hexits, hchild (by decide +kernel) rfl (.ok ())⟩

end RustyAutossh
