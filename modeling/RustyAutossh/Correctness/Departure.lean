import RustyAutossh.Correctness.ExitCode
import RustyAutossh.Correctness.SingleChild

/-!
# What a program that leaves has given back

The monitor and the pidfile's guard are dropped however the run ends, also where a panic unwinds
the stack. The child is not: a run that returns has seen it terminate, and a panic drops only
the handle.
-/

namespace RustyAutossh

open Async Runtime

/-- A run that is over, even by a panic, has closed its listeners and dropped its guard. -/
theorem SshSupervisor.run_gives_back (self : SshSupervisor) (m : Machine) (n : Nat)
    (script : List (List Event)) (site : Site) {onError : AutosshError → UInt8} {code : UInt8}
    (hover : exitCode onError (self.run m n script site).1 = some code) :
    (self.run m n script site).2.listening = site.listening ∧
    (self.Starts m site → ∀ path, self.pidfilePath = some path → m.removeError path = none →
      (self.run m n script site).2.files path = none) := by
  cases hresolve : self.resolve m site with
  | error e =>
    rw [run_of_resolve_error hresolve]
    refine ⟨rfl, fun hstarts => ?_⟩
    obtain ⟨sshPath, hok⟩ := hstarts.resolve
    cases hresolve.symm.trans hok
  | ok sshPath =>
    rcases self.bindMonitor_cases m site with ⟨e, hbind⟩ | ⟨monitor, ports, hbind, hdrop⟩
    · rw [run_of_bind_error hresolve (congrArg Prod.fst hbind)]
      refine ⟨rfl, fun hstarts => ?_⟩
      obtain ⟨monitor, hok⟩ := hstarts.bind
      rw [hbind] at hok
      cases hok
    rcases self.writePidfile_cases m { site with listening := ports } with
      ⟨path, source, hpath, hsource, -⟩ | ⟨-, files, hwrite⟩
    · rw [run_of_write_error hresolve (congrArg Prod.fst hbind) hpath hsource]
      refine ⟨rfl, fun hstarts => ?_⟩
      rw [hstarts.write path hpath] at hsource
      cases hsource
    obtain ⟨log, files', hlog⟩ := m.initLogfile_ok self.logfilePath self.compatibilityMode
      { site with listening := ports, files := files }
    unfold SshSupervisor.run at hover ⊢
    simp only [hresolve, hbind, hwrite, hlog, hdrop] at hover ⊢
    generalize execute n script ⟨self.supervisor sshPath monitor site.world.now, site.world⟩ =
      outcome at hover ⊢
    obtain ⟨files'', hguard, hremoved⟩ := m.dropGuard_eq (self.pidfilePath.map PidfileGuard.mk)
      ⟨site.listening, files', outcome.state.world⟩
    have hclean : ∀ path, self.pidfilePath = some path → m.removeError path = none →
        files'' path = none := fun path hpath => hremoved path (by rw [hpath]; rfl)
    rcases outcome with ⟨flow | e | - | -, t, rest⟩
    · cases flow with
      | looping next => cases hover
      | returned =>
        simp only [hguard]
        exact ⟨trivial, fun _ => hclean⟩
    · simp only [hguard]
      exact ⟨trivial, fun _ => hclean⟩
    · simp only [hguard]
      exact ⟨trivial, fun _ => hclean⟩
    · cases hover

/-- At most the process spawned last is alive after an execution, and none if it has returned
or failed. -/
private theorem execute_alive {s₀ : Sys} (hs : s₀.Fresh) (n : Nat) (script : List (List Event)) :
    (execute n script s₀).state.world.Single ∧
      (IsClosed (execute n script s₀).out → (execute n script s₀).state.world.alive = 0) := by
  refine ⟨execute_single hs n script, fun hclosed => ?_⟩
  have hend : (execute n script s₀).out ≠ .pending := by
    intro heq
    rw [heq] at hclosed
    exact hclosed
  exact (World.still_iff _).mp ((runEnd_of_execute hs.still hend).still hs.still hclosed)

/-- What a program that has come to the run of a supervisor leaves behind, over every script:
its listeners are closed and its pidfile is gone unless the system refuses to remove it, and no
ssh is alive, whether it was told to stop, gave up or failed. A panic leaves at most the one that
was spawned last. -/
theorem main_leaves_nothing (c : Computer) (argv : List OsString) (n : Nat)
    (script : List (List Event)) (site : Site) (hprocs : site.world.procs = [])
    (hhistory : site.world.history = []) {s : SshSupervisor}
    (hrun : run c.daemon c.env c.tryParse argv = some (.run s)) {code : UInt8}
    (hcode : (c.main argv n script site).1 = some code) :
    (c.main argv n script site).2.listening = site.listening ∧
    (c.runtimeError = none → s.Starts c.machine site → ∀ path, s.pidfilePath = some path →
      c.machine.removeError path = none → (c.main argv n script site).2.files path = none) ∧
    (code ≠ 101 → (c.main argv n script site).2.world.alive = 0) ∧
    (c.main argv n script site).2.world.alive ≤ 1 ∧
    ∀ child, (c.main argv n script site).2.world.IsAlive child →
      child.index + 1 = (c.main argv n script site).2.world.procs.length := by
  have hnone : site.world.alive = 0 := by simp [World.alive, hprocs]
  have hlast : ∀ child, site.world.IsAlive child → child.index + 1 = site.world.procs.length :=
    fun child halive => absurd halive.alive_pos (by simp [hnone])
  rw [Computer.main_of_run hrun] at hcode ⊢
  unfold Computer.futuresBlockingRun at hcode ⊢
  cases hruntime : c.runtimeError with
  | some e =>
    exact ⟨rfl, fun h => (by cases h), fun _ => hnone, hnone.le.trans (Nat.zero_le 1),
      hlast⟩
  | none =>
    rw [hruntime] at hcode
    replace hcode : exitCode mapError (s.run c.machine n script site).1 = some code := hcode
    obtain ⟨hports, hfiles⟩ := s.run_gives_back c.machine n script site hcode
    refine ⟨hports, fun _ => hfiles, ?_⟩
    show (code ≠ 101 → (s.run c.machine n script site).2.world.alive = 0) ∧
      (s.run c.machine n script site).2.world.alive ≤ 1 ∧
      ∀ child, (s.run c.machine n script site).2.world.IsAlive child →
        child.index + 1 = (s.run c.machine n script site).2.world.procs.length
    by_cases hstarts : s.Starts c.machine site
    · obtain ⟨sshPath, monitor, hout, hworld, -⟩ := SshSupervisor.run_of_starts hstarts n script
      have hs : (s.handOver sshPath monitor site.world).Fresh := ⟨rfl, hprocs, hhistory⟩
      obtain ⟨hsingle, hzero⟩ := execute_alive hs n script
      rw [hout] at hcode
      rw [hworld]
      refine ⟨fun hne => hzero ?_, hsingle.now, hsingle.last⟩
      -- of the ends with an exit code only the panic is not a return
      cases hend : (execute n script (s.handOver sshPath monitor site.world)).out with
      | ret flow =>
        cases flow with
        | looping next =>
          rw [hend] at hcode
          cases hcode
        | returned => trivial
      | fail e => trivial
      | abort =>
        rw [hend] at hcode
        exact absurd (Option.some.inj hcode).symm hne
      | pending =>
        rw [hend] at hcode
        cases hcode
    · obtain ⟨e, heq, -⟩ := SshSupervisor.run_of_not_starts hstarts n script
      rw [heq]
      exact ⟨fun _ => hnone, hnone.le.trans (Nat.zero_le 1), hlast⟩

/-- A machine whose environment asks for the longest poll interval and a pidfile. -/
def Computer.polling : Computer :=
  { Computer.plain with
    env := ⟨fun key => if key = "AUTOSSH_POLL" then some (.utf8 "18446744073709551615")
      else if key = "AUTOSSH_PIDFILE" then some (.utf8 "/run/p")
      else Computer.plain.env.vars key⟩ }

/-- An autossh that cannot arm its first probe panics: the ports and the pidfile are given back,
and its ssh goes on. -/
theorem main_leaves_nothing_panic : ∃ left,
    (Computer.polling.main (["autossh", "-M", "20000", "host"].map .utf8) 0 []
      ⟨[22], fun _ => none, .initial .unix⟩) = (some 101, left) ∧
    left.listening = [22] ∧ left.files (.utf8 "/run/p") = none ∧ left.world.alive = 1 := by
  have hcode : (Computer.polling.main (["autossh", "-M", "20000", "host"].map .utf8) 0 []
      ⟨[22], fun _ => none, .initial .unix⟩).1 = some 101 := by decide +kernel
  obtain ⟨hports, hfiles, -⟩ := main_leaves_nothing .polling
    (["autossh", "-M", "20000", "host"].map .utf8) 0 [] ⟨[22], fun _ => none, .initial .unix⟩
    rfl rfl rfl hcode
  refine ⟨_, Prod.ext hcode rfl, hports, ?_, by decide +kernel⟩
  exact hfiles rfl ⟨⟨_, rfl⟩, ⟨_, rfl⟩, fun _ _ => rfl⟩ (.utf8 "/run/p") rfl rfl

end RustyAutossh
