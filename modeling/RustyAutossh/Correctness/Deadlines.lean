import RustyAutossh.Correctness.Tunnel
import RustyAutossh.Loop.Core

/-!
# Deadlines past the end of the clock

Each spawn and each probe arms the next probe, at the reading of the clock plus a duration
from the configuration. Where the platform cannot hold the sum the supervisor panics, with
its child running. It never does as long as both sums fit at the latest reading, and where
it gets to arm a probe it does exactly if the sum it then takes does not fit.
-/

namespace RustyAutossh

open Async Runtime

/-- A duration from now ends at an instant the platform can hold. -/
def Sys.Representable (s : Sys) (d : Duration) : Prop :=
  Instant.checkedAdd s.world.target s.world.now d ≠ none

instance (s : Sys) (d : Duration) : Decidable (s.Representable d) :=
  inferInstanceAs (Decidable (¬_ = _))

/-- A probe can be armed now, after a spawn and after a probe. -/
structure Sys.CanArm (s : Sys) : Prop where
  firstPoll : s.Representable s.sup.clock.firstPoll
  poll : s.Representable s.sup.clock.poll

/-- The time an action of the environment takes. -/
def Event.elapsed : Event → Duration
  | .elapse d => d
  | _ => 0

/-- The time that passes between two polls. -/
def elapsed (events : List Event) : Duration := weigh Event.elapsed events

theorem now_apply (s : Sys) (events : List Event) :
    (s.apply events).world.now = s.world.now + elapsed events := by
  have hevent (w : World) (e : Event) : (w.apply e).now = w.now + e.elapsed := by
    cases e with
    | signal ev =>
      simp only [World.apply]
      split <;> rfl
    | _ => rfl
  have hevents (w : World) : (events.foldl World.apply w).now = w.now + elapsed events := by
    induction events generalizing w with
    | nil => rfl
    | cons e events ih =>
      rw [List.foldl_cons, ih, hevent]
      exact Nat.add_assoc _ _ _
  exact hevents s.world

/-- Over the host only the environment's actions take time. -/
theorem host_paced : host.Paced (fun s => s.world.now) elapsed where
  poll op s := (stamps_poll op s).1
  act events s := Nat.le_of_eq (now_apply s events)

/-- At no reading of the clock during the script does a probe interval end too late. -/
def Sys.HasRoom (s : Sys) (script : List (List Event)) : Prop :=
  ∀ d ∈ [s.sup.clock.firstPoll, s.sup.clock.poll],
    Instant.Fits s.world.target (s.world.now + weigh elapsed script + d)

instance (s : Sys) (script : List (List Event)) : Decidable (s.HasRoom script) :=
  inferInstanceAs (Decidable (∀ d ∈ _, _))

/-- What is added to the clock for the next probe, behind a line of the log. -/
def PollClock.arms (self : PollClock) : Act → Option Duration
  | .spawned _ _ (.ok _) => some self.firstPoll
  | .probed _ => some self.poll
  | _ => none

/-- The interval to the next probe, by the last spawn or probe of a log. -/
def PollClock.interval (self : PollClock) (log : List Entry) : Option Duration :=
  (log.filterMap fun e => self.arms e.act).getLast?

/-- Only the core of a log arms a probe. -/
theorem PollClock.interval_core (self : PollClock) (es : List Entry) :
    self.interval (core es) = self.interval es := by
  have hcore : ∀ e : Entry, e.act.isCore ≠ true → self.arms e.act = none := by
    intro e he
    cases hact : e.act with
    | killed | emitted => rfl
    | _ => simp [hact, Act.isCore] at he
  rw [interval, interval, core, List.filterMap_filter]
  congr 2
  funext e
  split
  · rfl
  · rename_i he
    exact (hcore e he).symm

/-- The interval to a probe is one of the two of the clock. -/
theorem PollClock.interval_cases {self : PollClock} {log : List Entry} {d : Duration}
    (h : self.interval log = some d) : d = self.firstPoll ∨ d = self.poll := by
  obtain ⟨e, -, he⟩ := List.mem_filterMap.mp (List.mem_of_getLast? h)
  unfold arms at he
  split at he
  · exact .inl (Option.some.inj he).symm
  · exact .inr (Option.some.inj he).symm
  · cases he

/-- The later of two stretches arms the next probe. -/
theorem PollClock.interval_append {self : PollClock} {fs : List Entry} {d : Duration}
    (h : self.interval fs = some d) (es : List Entry) : self.interval (es ++ fs) = some d := by
  rw [interval, List.filterMap_append, List.getLast?_append]
  rw [interval] at h
  rw [h]
  rfl

/-- A run goes on, or it has panicked. -/
def GoesOnOrPanics (out : End AutosshError Flow) : Prop :=
  out = .abort ∨ ∃ next, out = .ret (.looping next)

/-- A stretch ends at the arming of the next probe, and panics exactly where that is not
possible. -/
def ArmsNext (out : End AutosshError Flow) (t : Sys) (es : List Entry) : Prop :=
  GoesOnOrPanics out → ∃ d, t.sup.clock.interval es = some d ∧
    (out = .abort ↔ t.sup.monitor.isSome = true ∧ ¬t.Representable d)

/-- A launch with a child panics exactly where it is to arm a first probe and cannot. -/
theorem Launches.abort_iff {s t : Sys} {announced : List SupervisorEvent} {es : List Entry}
    {out : End AutosshError Flow} (h : Launches s announced es out t) {pid : UInt32}
    (hspawn : s.world.spawnResult s.world.spawns = .ok pid) :
    out = .abort ↔ t.sup.monitor.isSome = true ∧ ¬t.Representable t.sup.clock.firstPoll := by
  cases h with
  | failed hfail => cases hfail.symm.trans hspawn
  | looping _ _ hnext =>
    refine ⟨fun hout => (by cases hout), fun ⟨hmon, hrep⟩ => ?_⟩
    rw [Sys.firstProbe, if_pos hmon, not_not.mp hrep] at hnext
    cases hnext
  | overflow _ _ hnone =>
    refine ⟨fun _ => ?_, fun _ => rfl⟩
    unfold Sys.firstProbe at hnone
    split at hnone
    · rename_i hmon
      rw [Option.map_eq_none_iff] at hnone
      exact ⟨hmon, fun hrep => hrep hnone⟩
    · cases hnone

/-- A launch arms the first probe of its child. -/
theorem Launches.armsNext {s t : Sys} {announced : List SupervisorEvent} {es : List Entry}
    {out : End AutosshError Flow} (h : Launches s announced es out t) : ArmsNext out t es := by
  intro hgoes
  have hspawned : ∃ pid, s.world.spawnResult s.world.spawns = .ok pid := by
    cases h with
    | failed => rcases hgoes with hout | ⟨_, hout⟩ <;> cases hout
    | looping hres => exact ⟨_, hres⟩
    | overflow hres => exact ⟨_, hres⟩
  obtain ⟨pid, hres⟩ := hspawned
  refine ⟨t.sup.clock.firstPoll, ?_, h.abort_iff hres⟩
  rw [← PollClock.interval_core, h.core_eq, hres]
  rfl

/-- A turn that goes on has armed the next probe: the one after a probe, or the first one of a
new child. -/
theorem Turn.armsNext {s t : Sys} {next : Option Instant} {c : Child} {es : List Entry}
    {out : End AutosshError Flow} (h : Turn s next c es out t) : ArmsNext out t es := by
  intro hgoes
  have hlaunch : ∀ {a : Sys} {announced : List SupervisorEvent} {pre fs : List Entry},
      Launches a announced fs out t → ∃ d, t.sup.clock.interval (pre ++ fs) = some d ∧
        (out = .abort ↔ t.sup.monitor.isSome = true ∧ ¬t.Representable d) := by
    intro a announced pre fs hl
    obtain ⟨d, hd, hiff⟩ := hl.armsNext hgoes
    exact ⟨d, PollClock.interval_append hd pre, hiff⟩
  have hreturn : (∀ flow, out = .ret flow → flow = .returned) → out ≠ .abort → False := by
    rintro hret hne
    rcases hgoes with hout | ⟨next', hout⟩
    · exact hne hout
    · cases hret _ hout
  cases h with
  | probeOverflow _ hfails =>
    cases hfails with
    | overflow hpass _ _ hmon hprobes hnone =>
      have hsup := (hpass.trans hprobes.logs).sup
      refine ⟨t.sup.clock.poll, rfl, fun _ => ⟨?_, fun hrep => hrep ?_⟩, fun _ => rfl⟩
      · rw [hsup, hmon]
        rfl
      · rw [hsup]
        exact hnone
  | @probeOk es next' u _ hticks =>
    cases hticks with
    | probed hpass _ _ _ hprobes hn =>
      have hsup := (hpass.trans hprobes.logs).sup
      refine ⟨u.sup.clock.poll, rfl, fun hout => (by cases hout), fun ⟨_, hrep⟩ => ?_⟩
      refine absurd (fun hnone => ?_) hrep
      rw [← hsup] at hn
      cases hn.symm.trans hnone
  | lost _ _ _ hset =>
    cases hset with
    | respawn _ _ hl =>
      rw [List.append_cons]
      exact hlaunch hl
    | _ => exact (hreturn (by simp) (by simp)).elim
  | renewed _ _ _ _ _ hl =>
    rw [← List.cons_append]
    exact hlaunch hl
  | _ => exact (hreturn (by simp) (by simp)).elim

/-- A run that goes on has armed the next probe. -/
theorem RunEnd.armsNext {s₀ t : Sys} {n : Nat} {out : End AutosshError Flow}
    (h : RunEnd s₀ n out t) (hs : s₀.Fresh) : ArmsNext out t t.world.history := by
  refine h.invariant ArmsNext (fun hl => hl.armsNext) (fun _ _ hturn hgoes => ?_) hs
  obtain ⟨d, hd, hiff⟩ := hturn.armsNext hgoes
  exact ⟨d, PollClock.interval_append hd _, hiff⟩

/-- A run aborts only where it cannot arm a probe. -/
theorem RunEnd.abort_cannotArm {s₀ t : Sys} {n : Nat} (h : RunEnd s₀ n .abort t)
    (hs : s₀.Fresh) : ¬t.CanArm := by
  obtain ⟨d, hd, hiff⟩ := h.armsNext hs (.inl rfl)
  obtain ⟨-, hrep⟩ := hiff.mp rfl
  rcases PollClock.interval_cases hd with rfl | rfl
  · exact fun harm => hrep harm.firstPoll
  · exact fun harm => hrep harm.poll

/-- What a run has done by its end. -/
theorem RunEnd.runs {s₀ t : Sys} {n : Nat} {out : End AutosshError Flow}
    (h : RunEnd s₀ n out t) : ∃ es, s₀.Runs es t := by
  cases h with
  | looping hr => exact ⟨_, hr.runs⟩
  | closed _ hfin => exact ⟨_, hfin.runs⟩

/-- Where there is room for the script, a probe can be armed at its end. -/
theorem Sys.HasRoom.canArm {s t : Sys} {es : List Entry} {script : List (List Event)}
    (h : s.HasRoom script) (hruns : s.Runs es t)
    (hnow : t.world.now ≤ s.world.now + weigh elapsed script) : t.CanArm := by
  have harm : ∀ d ∈ [s.sup.clock.firstPoll, s.sup.clock.poll], t.Representable d := by
    intro d hd
    have hfits : Instant.Fits t.world.target (t.world.now + d) := by
      rw [hruns.target]
      exact Nat.le_trans (Nat.div_le_div_right (Nat.add_le_add_right hnow d)) (h d hd)
    rw [Sys.Representable, Instant.checkedAdd, if_pos (.inr hfits)]
    simp
  rw [← hruns.settings.clock] at harm
  exact ⟨harm _ (by simp), harm _ (by simp)⟩

/-- The supervisor with the clock resolved from an environment, flags and `-f`. -/
def Supervisor.configured (self : Supervisor) (env : EnvSnapshot) (flags : ClockFlags)
    (dashF : Bool) : Supervisor :=
  { self with clock := PollClock.resolveFromEnvAndFlags env flags dashF }

/-- With whatever clock is resolved, no run panics during which the clock leaves room for both
polls, be it at the last reading only; a start with a monitor and a child panics exactly where
there is no room for the first one; and a run that goes on or panics has come to arm a probe, and
panics exactly if it has a monitor and no room for the interval behind its last spawn or probe. -/
theorem run_never_aborts_in_range (self : Supervisor) (world : World) (env : EnvSnapshot)
    (flags : ClockFlags) (dashF : Bool)
    (hs : (Sys.mk (self.configured env flags dashF) world).Fresh) :
    (∀ n script, (Sys.mk (self.configured env flags dashF) world).HasRoom script →
      (execute n script ⟨self.configured env flags dashF, world⟩).out ≠ .abort) ∧
    (∀ n script,
      (execute n script ⟨self.configured env flags dashF, world⟩).state.CanArm →
      (execute n script ⟨self.configured env flags dashF, world⟩).out ≠ .abort) ∧
    (∀ script pid, self.monitor.isSome = true → world.spawnResult world.spawns = .ok pid →
      (execute 0 script ⟨self.configured env flags dashF, world⟩).out ≠ .pending →
      ((execute 0 script ⟨self.configured env flags dashF, world⟩).out = .abort ↔
        ¬(execute 0 script ⟨self.configured env flags dashF, world⟩).state.Representable
          (PollClock.resolveFromEnvAndFlags env flags dashF).firstPoll)) ∧
    ∀ n script, GoesOnOrPanics (execute n script ⟨self.configured env flags dashF, world⟩).out →
      ∃ d, (PollClock.resolveFromEnvAndFlags env flags dashF).interval
          (execute n script ⟨self.configured env flags dashF, world⟩).state.world.history = some d ∧
        ((execute n script ⟨self.configured env flags dashF, world⟩).out = .abort ↔
          self.monitor.isSome = true ∧
          ¬(execute n script ⟨self.configured env flags dashF, world⟩).state.Representable d) := by
  have hend (n : Nat) (script : List (List Event))
      (hgoes : GoesOnOrPanics (execute n script ⟨self.configured env flags dashF, world⟩).out) :
      RunEnd ⟨self.configured env flags dashF, world⟩ n
        (execute n script ⟨self.configured env flags dashF, world⟩).out
        (execute n script ⟨self.configured env flags dashF, world⟩).state := by
    refine runEnd_of_execute hs.still ?_
    rcases hgoes with hout | ⟨next, hout⟩ <;> simp [hout]
  have hrun (n : Nat) (script : List (List Event))
      (habort : (execute n script ⟨self.configured env flags dashF, world⟩).out = .abort) :
      RunEnd ⟨self.configured env flags dashF, world⟩ n .abort
        (execute n script ⟨self.configured env flags dashF, world⟩).state :=
    habort ▸ hend n script (.inl habort)
  refine ⟨fun n script hroom habort => ?_, fun n script harm habort => ?_,
    fun script pid hmon hspawn hend => ?_, fun n script hgoes => ?_⟩
  · obtain ⟨es, hruns⟩ := (hrun n script habort).runs
    have harm := hroom.canArm hruns (host_paced.drive (runFor n) script _)
    exact (hrun n script habort).abort_cannotArm hs harm
  · exact (hrun n script habort).abort_cannotArm hs harm
  · obtain ⟨es, hl⟩ := launches_of_drive hend
    have hsettings := hl.runs.settings
    have hclock : (execute 0 script ⟨self.configured env flags dashF, world⟩).state.sup.clock =
        PollClock.resolveFromEnvAndFlags env flags dashF := hsettings.clock
    rw [← hclock]
    refine (hl.abort_iff hspawn).trans (and_iff_right ?_)
    rw [hsettings.monitor]
    exact hmon
  · obtain ⟨d, hd, hiff⟩ := (hend n script hgoes).armsNext hs hgoes
    obtain ⟨es, hruns⟩ := (hend n script hgoes).runs
    rw [hruns.settings.clock] at hd
    rw [hruns.settings.monitor] at hiff
    exact ⟨d, hd, hiff⟩

/-- A supervisor that monitors port 20000. -/
def Supervisor.monitoring : Supervisor :=
  { Supervisor.initial with
    monitor := some ⟨⟨20000⟩, some ⟨20001⟩, none, ⟨20000, 20001⟩⟩
    monitorMode := .active 20000 none }

/-- A poll interval of 9223372036854775000 seconds, and a first one of a minute: a probe that is
answered, then a crash and the backoff. The clock has room for both intervals to the end, and the
supervisor goes on with its second child. -/
theorem run_never_aborts_within_reach :
    let env : EnvSnapshot :=
      ⟨fun key => if key = "AUTOSSH_POLL" then some (.utf8 "9223372036854775000") else none⟩
    let script : List (List Event) := [[.elapse (Duration.fromSecs 60)],
      [.connect, .bytes 0 (List.replicate 17 0), .written (.ok ())], [.exit 0 ⟨256⟩],
      [.elapse (Duration.fromSecs 30)]]
    let run := fun n => execute n script ⟨Supervisor.monitoring.configured env
      { firstPoll := some (Duration.fromSecs 60) } false, .initial .unix⟩
    (∀ n, (run n).out ≠ .abort) ∧
      (run 1).out = .ret (.looping (some (Duration.fromSecs 9223372036854775060))) ∧
      (run 2).out = .ret (.looping (some (Duration.fromSecs 150))) := by
  have hs : (Sys.mk (Supervisor.monitoring.configured
      ⟨fun key => if key = "AUTOSSH_POLL" then some (.utf8 "9223372036854775000") else none⟩
      { firstPoll := some (Duration.fromSecs 60) } false) (.initial .unix)).Fresh :=
    ⟨rfl, rfl, rfl⟩
  refine ⟨fun n => (run_never_aborts_in_range _ _ _ _ _ hs).1 n _ ?_, ?_, ?_⟩
  · decide +kernel
  · decide +kernel
  · decide +kernel

/-- The largest poll interval that is accepted: the supervisor panics behind its first spawn,
with the child running. -/
theorem run_aborts_for_largest_poll :
    let env : EnvSnapshot :=
      ⟨fun key => if key = "AUTOSSH_POLL" then some (.utf8 "18446744073709551615") else none⟩
    let outcome := execute 0 [] ⟨Supervisor.monitoring.configured env {} false, .initial .unix⟩
    (env.getStr "AUTOSSH_POLL").bind parseU64 = some 18446744073709551615 ∧
      outcome.out = .abort ∧ outcome.state.world.alive = 1 := by
  decide +kernel

end RustyAutossh
