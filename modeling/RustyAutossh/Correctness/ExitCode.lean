import RustyAutossh.Loop.Program
import RustyAutossh.Correctness.Deadlines
import RustyAutossh.Correctness.Logfile

/-!
# What the exit code says

The process that goes on leaves with 0 where it was told to stop, its lifetime was over or its
child was done, with 1 where it found no ssh binary or gave up, and with 2 where a system call
failed. Which of them it is can be read off the last point that its log passes.
-/

namespace RustyAutossh

open Async

/-- The exit code of a loop that ends after this point. -/
def Mark.code : Mark → UInt8
  | .expired => 0
  | .ticked (.signal kind) => if kind.stops then 0 else 2
  | .decided _ _ _ (.exit .ok) => 0
  | .decided _ _ _ (.exit (.maxStartReached _)) => 1
  -- the catch-all arm after a failed probe returns as if all were well
  | .decided outcome _ _ (.exit .oneShotFailed) => if outcome = .probeTimeout then 0 else 1
  | _ => 2

/-- The exit code a log stands for: that of the last point passed. -/
def verdict (es : List Entry) : UInt8 := ((marks es).getLast?.map Mark.code).getD 2

/-- The last point of the later stretch decides. -/
theorem verdict_append_of_last {es fs : List Entry} (ms : List Mark) {m : Mark}
    (h : marks fs = ms ++ [m]) : verdict (es ++ fs) = m.code := by
  rw [verdict, marks_append, h, ← List.append_assoc, List.getLast?_concat]
  rfl

/-- The log tells the exit code of a loop that has ended; one that goes on has passed no
point that ends it. -/
def Tells (es : List Entry) : End AutosshError Flow → Prop
  | .ret (.looping _) => verdict es = 2
  | .ret .returned => verdict es = 0
  | .fail e => verdict es = mapError e
  | .abort => True
  | .pending => True

/-- A launch ends a loop only over a spawn that fails. -/
theorem Launches.tells {s t : Sys} {announced : List SupervisorEvent} {es fs : List Entry}
    {out : End AutosshError Flow} (h : Launches s announced fs out t) (hes : verdict es = 2) :
    Tells es out := by
  cases h with
  | failed => exact hes
  | looping => exact hes
  | overflow => trivial

/-- A turn that ends the loop passes a point with the code of its result. -/
theorem Turn.tells {s t : Sys} {next : Option Instant} {c : Child} {es fs : List Entry}
    {out : End AutosshError Flow} (h : Turn s next c fs out t) (hes : verdict es = 2) :
    Tells (es ++ fs) out := by
  cases h with
  | expired _ hem hterm =>
    refine verdict_append_of_last [] (m := .expired) ?_
    simp [hem.marks_eq, hterm.marks_eq]
  | waitFailed =>
    rw [List.append_nil]
    exact hes
  | probeOverflow => trivial
  | probeOk _ hticks =>
    refine verdict_append_of_last [] (m := .ticked .probeOk) ?_
    rw [marks_append, hticks.marks_eq]
    rfl
  | terminateFailed _ hticks hem hterm =>
    refine verdict_append_of_last [] (m := .ticked .probeTimeout) ?_
    simp [hticks.marks_eq, hem.marks_eq, hterm.marks_eq]
  | @lost es' fs' outcome status lifetime a t decision sup out _ hlost hdec hset =>
    have hlast : verdict (es ++ (es' ++ a.line (.passed (.decided outcome status lifetime decision))
        :: fs')) = Mark.code (.decided outcome status lifetime decision) := by
      refine verdict_append_of_last (marks es') ?_
      rw [marks_append, marks_passed_cons, hset.marks_eq]
    cases hset with
    | respawn _ _ hl => exact hl.tells hlast
    | finished => exact hlast
    | capped => exact hlast
    | oneShotExit hne => exact hlast.trans (if_neg hne)
    | oneShotTimeout heq => exact hlast.trans (if_pos heq)
  | @stopped kind _ _ _ _ _ _ _ hstops hem hterm =>
    refine (verdict_append_of_last [] (m := .ticked (.signal kind)) ?_).trans
      (if_pos hstops)
    simp [hem.marks_eq, hterm.marks_eq]
  | @renewed kind _ _ _ _ _ _ _ _ _ _ hrenews hem hterm hl =>
    refine hl.tells ((verdict_append_of_last [] (m := .ticked (.signal kind)) ?_).trans ?_)
    · simp [hem.marks_eq, hterm.marks_eq, hl.marks_eq]
    · simp [Mark.code, hrenews]

/-- The log of a run tells its exit code. -/
theorem RunEnd.tells {s₀ t : Sys} {n : Nat} {out : End AutosshError Flow} (h : RunEnd s₀ n out t)
    (hs : s₀.Fresh) : Tells t.world.history out := by
  refine h.invariant (fun out _ es => Tells es out) (fun hl => hl.tells ?_)
    (fun _ hes hturn => hturn.tells hes) hs
  rw [verdict, hl.marks_eq]
  rfl

/-- Why the program leaves with a code after it has come to the run of a supervisor, and what
it has done by then. -/
inductive ExitsFor (c : Computer) (s : SshSupervisor) (site : Site) (after : World) :
    UInt8 → Prop
  | noRuntime : c.runtimeError ≠ none → after = site.world → ExitsFor c s site after 2
  | noSsh {e : AutosshError} : c.runtimeError = none →
      s.resolve c.machine site = .error e → after = site.world → ExitsFor c s site after 1
  | noStart {path : PathBuf} : c.runtimeError = none → s.resolve c.machine site = .ok path →
      ¬ s.Starts c.machine site → after = site.world → ExitsFor c s site after 2
  | ended : c.runtimeError = none → s.Starts c.machine site →
      ExitsFor c s site after (verdict after.history)
  | panicked {d : Duration} : c.runtimeError = none → s.Starts c.machine site →
      d = s.clock.firstPoll ∨ d = s.clock.poll →
      Instant.checkedAdd after.target after.now d = none → ExitsFor c s site after 101

/-- A startup that fails leaves everything as it was, with an error that it has met at the
binary, the ports or the pidfile. -/
theorem SshSupervisor.run_of_not_starts {s : SshSupervisor} {m : Machine} {site : Site}
    (h : ¬ s.Starts m site) (n : Nat) (script : List (List Event)) :
    ∃ e, s.run m n script site = (.fail e, site) ∧
      (s.resolve m site = .error e ∧ mapError e = 1 ∨
        (∃ path, s.resolve m site = .ok path) ∧ mapError e = 2) := by
  cases hresolve : s.resolve m site with
  | error e =>
    refine ⟨e, run_of_resolve_error hresolve n script, .inl ⟨rfl, ?_⟩⟩
    obtain ⟨dirs, rfl⟩ := resolve_error hresolve
    rfl
  | ok path =>
    cases hbind : (s.bindMonitor m site).1 with
    | error e =>
      refine ⟨e, run_of_bind_error hresolve hbind n script, .inr ⟨⟨path, rfl⟩, ?_⟩⟩
      obtain ⟨port, source, rfl⟩ | ⟨tag, rfl⟩ := bindMonitor_error hbind
      · rfl
      · rfl
    | ok monitor =>
      have hwrite : ∃ p source, s.pidfilePath = some p ∧ m.writeError p = some source := by
        by_contra hnone
        refine h ⟨⟨path, hresolve⟩, ⟨monitor, hbind⟩, fun p hp => ?_⟩
        cases hw : m.writeError p with
        | none => rfl
        | some source => exact (hnone ⟨p, source, hp, hw⟩).elim
      obtain ⟨p, source, hp, hw⟩ := hwrite
      exact ⟨_, run_of_write_error hresolve hbind hp hw n script, .inr ⟨⟨path, rfl⟩, rfl⟩⟩

/-- A loop that has come to its end leaves with the code its log tells, or it has panicked
where a probe could not be armed. -/
private theorem exitsFor_of_execute {c : Computer} {s : SshSupervisor} {site : Site}
    (hruntime : c.runtimeError = none) (hstarts : s.Starts c.machine site) {s₀ t : Sys} {n : Nat}
    {out : End AutosshError Flow} (hs : s₀.Fresh) (hclock : s₀.sup.clock = s.clock)
    (hrun : RunEnd s₀ n out t) {code : UInt8} (hcode : exitCode mapError out = some code) :
    ExitsFor c s site t.world code := by
  have htells := hrun.tells hs
  have hended : verdict t.world.history = code → ExitsFor c s site t.world code := fun h =>
    h ▸ .ended hruntime hstarts
  cases out with
  | ret flow =>
    cases flow with
    | looping next => cases hcode
    | returned => exact hended (htells.trans (Option.some.inj hcode))
  | fail e => exact hended (htells.trans (Option.some.inj hcode))
  | abort =>
    obtain ⟨es, hruns⟩ := hrun.runs
    have hclock' : t.sup.clock = s.clock := hruns.settings.clock.trans hclock
    have hcannot := hrun.abort_cannotArm hs
    cases Option.some.inj hcode
    by_cases hfirst : t.Representable t.sup.clock.firstPoll
    · refine .panicked hruntime hstarts (.inr (congrArg _ hclock')) (by_contra fun hpoll => ?_)
      exact hcannot ⟨hfirst, hpoll⟩
    · exact .panicked hruntime hstarts (.inl (congrArg _ hclock')) (by_contra hfirst)
  | pending => cases hcode

/-- Whatever the arguments, the environment, the machine and the script are: a program that has
come to the run of a supervisor and leaves does so with the code that its startup, its log and
its clock stand for. -/
theorem main_exit_code (c : Computer) (argv : List OsString) (n : Nat)
    (script : List (List Event)) (site : Site) (hprocs : site.world.procs = [])
    (hhistory : site.world.history = []) {s : SshSupervisor}
    (hrun : run c.daemon c.env c.tryParse argv = some (.run s)) {code : UInt8}
    (hcode : (c.main argv n script site).1 = some code) :
    ExitsFor c s site (c.main argv n script site).2.world code := by
  rw [Computer.main_of_run hrun] at hcode ⊢
  unfold Computer.futuresBlockingRun at hcode ⊢
  cases hruntime : c.runtimeError with
  | some e =>
    rw [hruntime] at hcode
    cases Option.some.inj hcode
    exact .noRuntime (by simp [hruntime]) rfl
  | none =>
    rw [hruntime] at hcode
    by_cases hstarts : s.Starts c.machine site
    · obtain ⟨sshPath, monitor, hout, hworld, -⟩ :=
        SshSupervisor.run_of_starts hstarts n script
      have hs : (s.handOver sshPath monitor site.world).Fresh := ⟨rfl, hprocs, hhistory⟩
      show ExitsFor c s site (s.run c.machine n script site).2.world code
      replace hcode : exitCode mapError (s.run c.machine n script site).1 = some code := hcode
      rw [hout] at hcode
      rw [hworld]
      refine exitsFor_of_execute hruntime hstarts hs rfl
        (runEnd_of_execute hs.still fun hpend => ?_) hcode
      rw [hpend] at hcode
      cases hcode
    · obtain ⟨e, heq, hwhy⟩ := SshSupervisor.run_of_not_starts hstarts n script
      show ExitsFor c s site (s.run c.machine n script site).2.world code
      replace hcode : exitCode mapError (s.run c.machine n script site).1 = some code := hcode
      rw [heq] at hcode ⊢
      cases Option.some.inj hcode
      rcases hwhy with ⟨hresolve, hone⟩ | ⟨⟨path, hresolve⟩, htwo⟩
      · exact hone ▸ .noSsh hruntime hresolve rfl
      · exact htwo ▸ .noStart hruntime hresolve hstarts rfl

/-- A machine whose environment only names the ssh binary. -/
def Computer.plain : Computer where
  env := ⟨fun key => if key = "AUTOSSH_PATH" then some (.utf8 "/usr/bin/ssh") else none⟩
  daemon := .plain
  base := .refusing fun _ => none
  tryParse _ := .error 2
  runtimeError := none

/-- A one-shot autossh whose ssh fails leaves with 1. -/
theorem main_exit_code_oneShot : ∃ s,
    run Computer.plain.daemon Computer.plain.env Computer.plain.tryParse
      (["autossh", "-1", "host"].map .utf8) = some (.run s) ∧
    ExitsFor .plain s ⟨[], fun _ => none, .initial .unix⟩
      (Computer.plain.main (["autossh", "-1", "host"].map .utf8) 1 [[.exit 0 ⟨256⟩]]
        ⟨[], fun _ => none, .initial .unix⟩).2.world 1 := by
  refine ⟨_, rfl, ?_⟩
  exact main_exit_code .plain _ 1 [[.exit 0 ⟨256⟩]] ⟨[], fun _ => none, .initial .unix⟩ rfl rfl rfl
    (by decide +kernel)

end RustyAutossh
