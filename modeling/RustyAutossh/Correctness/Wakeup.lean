import RustyAutossh.Correctness.Lifetime
import RustyAutossh.Correctness.Result
import RustyAutossh.Loop.Waiting

/-!
# The wake-up of a quiet tunnel

The `select!` has no timer for the lifetime deadline. The loop comes back to its check
in time only if the heartbeat wakes it: the timer of the next probe is the only one
there is, and without a monitor there is none.
-/

namespace RustyAutossh

open Async Runtime

/-- The time the loop lets pass before the next probe: `poll` after a probe that succeeded,
`first_poll` after a spawn. -/
def Sys.beat (s : Sys) : Duration :=
  if (loopEvents s.world.history).getLast? = some (.ticked .probeOk) then s.sup.clock.poll
  else s.sup.clock.firstPoll

/-- A launch schedules the first probe. -/
private theorem Launches.next_eq {s t : Sys} {announced : List SupervisorEvent} {es : List Entry}
    {next : Option Instant} (h : Launches s announced es (.ret (.looping next)) t)
    (hmon : t.sup.monitor ≠ none) : next = some (t.world.now + t.sup.clock.firstPoll) := by
  cases h with
  | looping _ _ hnext =>
    unfold Sys.firstProbe at hnext
    rw [if_pos (Option.isSome_iff_ne_none.mpr hmon)] at hnext
    obtain ⟨n, hn, rfl⟩ := Option.map_eq_some_iff.mp hnext
    rw [Instant.checkedAdd_eq_some hn]

/-- A turn after which the loop goes on acted on one event, and schedules the next probe by it. -/
private theorem Turn.next_eq {s t : Sys} {next next' : Option Instant} {c : Child}
    {es : List Entry} (h : Turn s next c es (.ret (.looping next')) t)
    (hmon : t.sup.monitor ≠ none) : ∃ m, loopEvents es = [m] ∧
      next' = some (t.world.now +
        if m = .ticked .probeOk then t.sup.clock.poll else t.sup.clock.firstPoll) := by
  cases h with
  | probeOk _ hticks =>
    refine ⟨.ticked .probeOk, by simp [loopEvents, hticks.marks_eq, Mark.isEvent], ?_⟩
    have hsup := hticks.logs.sup
    cases hticks with
    | probed _ _ _ _ _ hn =>
      rw [if_pos rfl, Sys.mark_sup, hsup, Instant.checkedAdd_eq_some hn]
      rfl
  | @lost es fs outcome status lifetime _ _ _ _ _ _ hlost _ hset =>
    refine ⟨.ticked outcome, hlost.loopEvents_eq hset, ?_⟩
    have hne : (Mark.ticked outcome) ≠ .ticked .probeOk := by
      rcases hlost.cause with rfl | ⟨rfl, -⟩ <;> simp
    cases hset with
    | respawn _ _ hl => rw [if_neg hne, hl.next_eq hmon]
  | @renewed kind _ _ _ _ _ _ _ _ _ _ _ hem hterm hl =>
    refine ⟨.ticked (.signal kind), ?_, ?_⟩
    · simp [loopEvents, hem.marks_eq, hterm.marks_eq, hl.marks_eq, Mark.isEvent]
    · rw [if_neg (by simp), hl.next_eq hmon]

/-- At the top of the loop the next probe is due one beat from now. -/
theorem Reaches.next_eq {s₀ s : Sys} {n : Nat} {es : List Entry} {next : Option Instant}
    {c : Child} (h : Reaches s₀ n es s next c) (hs : s₀.Fresh) (hmon : s.sup.monitor ≠ none) :
    next = some (s.world.now + s.beat) := by
  have hhist : s.world.history = es := h.runs.history_of_fresh hs
  unfold Sys.beat
  rw [hhist]
  cases h with
  | start hl =>
    have hnone : loopEvents es = [] := by simp [loopEvents, hl.marks_eq]
    rw [hnone, hl.next_eq hmon]
    simp
  | turn _ hturn =>
    obtain ⟨m, hm, hnext⟩ := hturn.next_eq hmon
    rw [loopEvents_append, hm, hnext]
    simp

/-- Some armed timer fires by the deadline, and the wait has not lasted until then. -/
structure WakesBy (deadline : Instant) (timer : Option Instant) (t : Sys) : Prop where
  armed : ∃ due, timer = some due ∧ due ≤ deadline
  inTime : t.world.now < deadline

/-- There is a heartbeat, and its next beat is due by the deadline. -/
structure BeatsBy (deadline : Instant) (top : Sys) : Prop where
  monitored : top.sup.monitor ≠ none
  soon : top.world.now + top.beat ≤ deadline

/-- The last top of the loop that an execution of `n` turns has come to. -/
def LastTop (s₀ : Sys) (n : Nat) (script : List (List Event)) (top : Sys) : Prop :=
  ∃ m next rest, m < n ∧ execute m script s₀ = ⟨.ret (.looping next), top, rest⟩ ∧
    ∀ k, m < k → k ≤ n → (execute k script s₀).out = .pending

/-- Wherever a run waits in the `select!`, it is woken by the deadline exactly if the heartbeat
that was scheduled at the last top of the loop beats by then. -/
theorem select_wakes_by_deadline_iff (s₀ : Sys) (hs : s₀.Fresh) (d : Duration)
    (hd : s₀.sup.clock.maxLifetime = some d) (n : Nat) (script : List (List Event)) (c : Child)
    (timer : Option Instant) (signals : Bool) (t : Sys)
    (hwait : host.suspension (runFor n) script s₀ = some (.select c timer signals, t)) :
    ∃ top, LastTop s₀ n script top ∧
      (WakesBy (s₀.sup.lifetimeStart + d) timer t ↔ BeatsBy (s₀.sup.lifetimeStart + d) top) := by
  obtain ⟨m, next, top, rest, hlt, htop, hlast, hexp, htimer, hstalls⟩ := suspension_select hwait
  obtain ⟨es, c', hr⟩ := reaches_of_execute hs.still htop
  have hnow : top.world.now < s₀.sup.lifetimeStart + d := by
    by_contra hle
    exact hexp (hr.expired hd (Nat.le_of_not_lt hle))
  have hahead := (stalls_select hstalls).2
  rw [hr.loopTop.probeTimer_eq] at htimer
  refine ⟨top, ⟨m, next, rest, hlt, htop, hlast⟩, ?_, ?_⟩
  · rintro ⟨⟨due, hdue, hle⟩, -⟩
    rw [htimer] at hdue
    obtain ⟨at_, rfl, rfl⟩ := Option.map_eq_some_iff.mp hdue
    have hmon : top.sup.monitor ≠ none := by
      rw [← Option.isSome_iff_ne_none, ← hr.loopTop.armed]
      rfl
    have hnext := hr.next_eq hs hmon
    rw [Option.some.injEq] at hnext
    exact ⟨hmon, hnext ▸ le_trans (le_max_right _ _) hle⟩
  · rintro ⟨hmon, hsoon⟩
    rw [hr.next_eq hs hmon, Option.map_some] at htimer
    have hdue : max top.world.now (top.world.now + top.beat) ≤ s₀.sup.lifetimeStart + d :=
      max_le hnow.le hsoon
    exact ⟨⟨_, htimer, hdue⟩, lt_of_lt_of_le (hahead _ htimer) hdue⟩

/-- A heartbeat every ten seconds wakes a run of at most forty. -/
theorem select_wakes_by_deadline_iff_ten_seconds :
    ∃ c signals t, host.suspension (runFor 1) [[.elapse (Duration.fromSecs 5)]]
        ⟨{ Supervisor.monitored with
          clock := { Supervisor.fortySeconds.clock with firstPoll := Duration.fromSecs 10 } },
          .initial .unix⟩ = some (.select c (some (Duration.fromSecs 10)) signals, t) ∧
      WakesBy (Duration.fromSecs 40) (some (Duration.fromSecs 10)) t := by
  refine ⟨_, _, _, rfl, ?_⟩
  obtain ⟨top, ⟨m, next, rest, hlt, htop, -⟩, hiff⟩ := select_wakes_by_deadline_iff
    ⟨{ Supervisor.monitored with
      clock := { Supervisor.fortySeconds.clock with firstPoll := Duration.fromSecs 10 } },
      .initial .unix⟩ (Sys.fresh_initial _ _ rfl) (Duration.fromSecs 40) rfl 1
    [[.elapse (Duration.fromSecs 5)]] _ _ _ _ rfl
  have hm : m = 0 := by omega
  subst hm
  refine hiff.mpr ?_
  rw [show top = (execute 0 _ _).state from (congrArg Outcome.state htop).symm]
  exact ⟨by decide, by decide +kernel⟩

/-- After a hundred seconds a run of at most forty still waits for its live child: without a
monitor for nothing else, and with the default heartbeat for a probe after six hundred. -/
theorem select_waits_past_deadline :
    (∃ c signals t, host.suspension (runFor 1)
        [[.elapse (Duration.fromSecs 100)], [.setWallClock (some 100)]]
        ⟨Supervisor.fortySeconds, .initial .unix⟩ = some (.select c none signals, t) ∧
      t.world.now = Duration.fromSecs 100 ∧ t.world.alive = 1) ∧
    ∃ c signals t, host.suspension (runFor 1)
        [[.elapse (Duration.fromSecs 100)], [.setWallClock (some 100)]]
        ⟨{ Supervisor.monitored with clock := Supervisor.fortySeconds.clock }, .initial .unix⟩ =
          some (.select c (some (Duration.fromSecs 600)) signals, t) ∧
      t.world.now = Duration.fromSecs 100 ∧ t.world.alive = 1 :=
  ⟨⟨_, _, _, rfl, by decide, by decide⟩, ⟨_, _, _, rfl, by decide, by decide⟩⟩

end RustyAutossh
