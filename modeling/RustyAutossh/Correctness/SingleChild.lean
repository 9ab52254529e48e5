import RustyAutossh.Loop.Relaunch

/-!
# One live child at a time

Every spawn of a run is made with no process alive, whichever way the earlier
child was lost and whichever calls have failed. A run that has returned, with or
without an error, leaves no process alive.
-/

namespace RustyAutossh

open Async Runtime

/-- A launch with no process alive spawns alone. -/
theorem Launches.spawns_alone {s t : Sys} {announced : List SupervisorEvent} {es : List Entry}
    {out : End AutosshError Flow} (h : Launches s announced es out t) (hs : s.world.Still) :
    ∀ e ∈ es, e.IsSpawn → e.alive = 0 := by
  intro e he hspawn
  have hcore := mem_core he hspawn.isCore
  rw [h.core_eq, List.mem_singleton] at hcore
  rw [hcore]
  exact s.world.still_iff.mp hs

/-- Every spawn of a turn is made alone. -/
theorem Turn.spawns_alone {s t : Sys} {next : Option Instant} {c : Child} {es : List Entry}
    {out : End AutosshError Flow} (h : Turn s next c es out t) (htop : LoopTop s next c) :
    ∀ e ∈ es, e.IsSpawn → e.alive = 0 := by
  rcases h.relaunch_cases with hrelaunch | ⟨hnone, -⟩
  · cases hrelaunch with
    | intro _ hnone _ hstill hl =>
      intro e he hspawn
      rcases List.mem_append.mp he with he | he
      · exact absurd hspawn (hnone e he)
      · exact hl.spawns_alone (hstill htop.only) e he hspawn
  · exact fun e he hspawn => absurd hspawn (hnone e he)

/-- Every spawn of a run from a fresh supervisor is made alone. -/
theorem RunEnd.spawns_alone {s₀ t : Sys} {n : Nat} {out : End AutosshError Flow}
    (h : RunEnd s₀ n out t) (hs : s₀.Fresh) : t.world.SpawnsAlone := by
  refine h.invariant (fun _ _ es => ∀ e ∈ es, e.IsSpawn → e.alive = 0)
    (fun hl => hl.spawns_alone hs.still) (fun hr ih hturn e he => ?_) hs
  rcases List.mem_append.mp he with he | he
  · exact ih e he
  · exact hturn.spawns_alone hr.loopTop e he

/-- No execution, finished or suspended, has spawned next to a live process. -/
theorem execute_spawns_alone {s₀ : Sys} (hs : s₀.Fresh) (n : Nat) (script : List (List Event)) :
    (execute n script s₀).state.world.SpawnsAlone := by
  obtain ⟨out, t, hrun, hgrows⟩ := execute_logGrows hs.still n script
  exact fun e he => hrun.spawns_alone hs e (hgrows.subset he)

/-- So at most one process is alive after it, the one spawned last, and at each of its lines. -/
theorem execute_single {s₀ : Sys} (hs : s₀.Fresh) (n : Nat) (script : List (List Event)) :
    (execute n script s₀).state.world.Single :=
  (host_single.drive (runFor n) script s₀ (execute_spawns_alone hs n script)).2
    ⟨(s₀.world.still_iff.mp hs.still).le.trans (Nat.zero_le 1), by simp [hs.history],
      fun c hc => absurd hc.alive_pos (by simp [s₀.world.still_iff.mp hs.still])⟩

/-- At most one spawned process is alive at any moment of a run, every spawn is made with
none alive, and a run that has returned or failed leaves none alive. -/
theorem run_single_child (s₀ : Sys) (hs : s₀.Fresh) (n : Nat) (script : List (List Event)) :
    (execute n script s₀).state.world.alive ≤ 1 ∧
      (∀ e ∈ (execute n script s₀).state.world.history,
        e.alive ≤ 1 ∧ (e.IsSpawn → e.alive = 0)) ∧
      (IsClosed (execute n script s₀).out → (execute n script s₀).state.world.alive = 0) := by
  have halone := execute_spawns_alone hs n script
  have hsingle := execute_single hs n script
  refine ⟨hsingle.now, fun e he => ⟨hsingle.past e he, halone e he⟩, fun hclosed => ?_⟩
  have hend : (execute n script s₀).out ≠ .pending := by
    intro heq
    rw [heq] at hclosed
    exact hclosed
  exact (World.still_iff _).mp ((runEnd_of_execute hs.still hend).still hs.still hclosed)

/-- A run in which the first child crashes and its replacement is terminated by a signal. -/
theorem run_single_child_crash_then_signal :
    (execute 2 [[.exit 0 ⟨256⟩], [.elapse (Duration.fromSecs 30)],
        [.signal (.signalReceived .terminate)], [.exit 1 ⟨15⟩]]
      ⟨.initial, .initial .unix⟩).state.world.alive = 0 :=
  (run_single_child _ (Sys.fresh_initial _ _ rfl) 2 _).2.2 (by decide +kernel)

end RustyAutossh
