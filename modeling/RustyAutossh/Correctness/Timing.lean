import RustyAutossh.Correctness.SingleChild

/-!
# Probe and backoff timing

A log is read line by line against three clocks: the last spawn, the end of the last
probe since then, and the last point at which the child was known to be lost. What a
line may do depends on these alone, and a turn keeps them in step with the probe timer.
-/

namespace RustyAutossh

open Async Runtime

/-- When the child was spawned, when its last probe ended and when it was lost. -/
structure Clocks where
  spawned : Option Instant := none
  probed : Option Instant := none
  lost : Option Instant := none

/-- The clocks after a line of the log. -/
def Clocks.step (k : Clocks) (e : Entry) : Clocks :=
  match e.act with
  | .spawned _ _ (.ok _) => { spawned := some e.time }
  | .probed _ => { k with probed := some e.time }
  | .passed (.ticked (.childExited _ _)) => { k with lost := some e.time }
  | .passed (.ticked .probeTimeout) => { k with lost := some e.time }
  | .passed (.decided _ _ _ _) => { k with lost := some e.time }
  | _ => k

/-- The clocks at the end of a stretch. -/
def Clocks.after (k : Clocks) (es : List Entry) : Clocks := es.foldl Clocks.step k

@[simp] theorem Clocks.after_nil (k : Clocks) : k.after [] = k := rfl

@[simp] theorem Clocks.after_cons (k : Clocks) (e : Entry) (es : List Entry) :
    k.after (e :: es) = (k.step e).after es := rfl

@[simp] theorem Clocks.after_append (k : Clocks) (es fs : List Entry) :
    k.after (es ++ fs) = (k.after es).after fs :=
  List.foldl_append

/-- A line that starts a probe. -/
def Entry.IsProbe (e : Entry) : Prop := ∃ port payload, e.act = .probing port payload

/-- What a line may do at the given clocks: a probe needs a live child, `first_poll` after its
spawn and `poll` after its last probe, and a spawn for a lost child needs the backoff. -/
structure Clocks.Allows (k : Clocks) (os : Target) (clock : PollClock) (e : Entry) : Prop where
  alive : e.IsProbe → 0 < e.alive
  first : e.IsProbe → ∃ t, k.spawned = some t ∧ t + clock.firstPoll ≤ e.time
  again : e.IsProbe → ∀ t, k.probed = some t → t + clock.poll ≤ e.time
  backoff : e.IsSpawn → ∀ t, k.lost = some t → deadlineAfter os t clock.gateTime ≤ e.time

/-- Every line of a stretch is allowed at the clocks of the lines before it. -/
def Clocks.Timely (os : Target) (clock : PollClock) : Clocks → List Entry → Prop
  | _, [] => True
  | k, e :: es => k.Allows os clock e ∧ Clocks.Timely os clock (k.step e) es

section Timely

variable {os : Target} {clock : PollClock} {k : Clocks}

theorem Clocks.timely_append {es fs : List Entry} : Clocks.Timely os clock k (es ++ fs) ↔
    Clocks.Timely os clock k es ∧ Clocks.Timely os clock (k.after es) fs := by
  induction es generalizing k with
  | nil => simp [Clocks.Timely]
  | cons e es ih => simp only [List.cons_append, Clocks.Timely, ih, and_assoc, Clocks.after_cons]

/-- A line that neither probes nor spawns is always allowed. -/
theorem Clocks.allows_of_not {e : Entry} (hp : ¬ e.IsProbe) (hs : ¬ e.IsSpawn) :
    k.Allows os clock e where
  alive h := absurd h hp
  first h := absurd h hp
  again h := absurd h hp
  backoff h := absurd h hs

/-- A line outside the core moves no clock. -/
private theorem Clocks.step_of_not_core {e : Entry} (h : e.act.isCore = false) : k.step e = k := by
  unfold Clocks.step
  cases hact : e.act <;> simp_all [Act.isCore]

/-- The clocks depend only on the core. -/
theorem Clocks.after_core (es : List Entry) : k.after (core es) = k.after es := by
  induction es generalizing k with
  | nil => rfl
  | cons e es ih =>
    by_cases hcore : e.act.isCore = true
    · rw [core_cons_of_pos hcore, Clocks.after_cons, Clocks.after_cons]
      exact ih
    · have hstep : k.step e = k := Clocks.step_of_not_core (by simpa using hcore)
      rw [core_cons_of_neg hcore, Clocks.after_cons, hstep]
      exact ih

/-- Lines outside the core are always allowed. -/
theorem Clocks.timely_core {es : List Entry} (h : Clocks.Timely os clock k (core es)) :
    Clocks.Timely os clock k es := by
  induction es generalizing k with
  | nil => trivial
  | cons e es ih =>
    by_cases hcore : e.act.isCore = true
    · rw [core_cons_of_pos hcore] at h
      exact ⟨h.1, ih h.2⟩
    · rw [core_cons_of_neg hcore] at h
      have hprobe : ¬ e.IsProbe := by
        rintro ⟨port, payload, hact⟩
        exact hcore (by rw [hact]; rfl)
      have hspawn : ¬ e.IsSpawn := fun hspawn => hcore hspawn.isCore
      refine ⟨Clocks.allows_of_not hprobe hspawn, ?_⟩
      rw [Clocks.step_of_not_core (by simpa using hcore)]
      exact ih h

/-- The line at a position of a timely log is allowed at the clocks there. -/
theorem Clocks.Timely.allows {before after : List Entry} {e : Entry}
    (h : Clocks.Timely os clock k (before ++ e :: after)) : (k.after before).Allows os clock e :=
  (Clocks.timely_append.mp h).2.1

/-- The time a child was lost is that of a line. -/
theorem Clocks.lost_mem {es : List Entry} {t : Instant} (h : (k.after es).lost = some t) :
    k.lost = some t ∨ ∃ e ∈ es, e.time = t := by
  induction es generalizing k with
  | nil => exact .inl h
  | cons e es ih =>
    rcases ih h with hstep | ⟨f, hf, htime⟩
    · have hcases : (k.step e).lost = k.lost ∨ (k.step e).lost = some e.time ∨
          (k.step e).lost = none := by
        unfold Clocks.step
        split <;> simp
      rcases hcases with heq | heq | heq
      · exact .inl (heq ▸ hstep)
      · rw [heq, Option.some.injEq] at hstep
        exact .inr ⟨e, List.mem_cons_self, hstep⟩
      · simp [heq] at hstep
    · exact .inr ⟨f, List.mem_cons_of_mem _ hf, htime⟩

end Timely

/-- The clocks at the top of the loop: a child is running, and the probe timer waits for
both of its delays. -/
structure Clocks.Armed (k : Clocks) (clock : PollClock) (next : Option Instant) : Prop where
  running : k.lost = none
  first : ∃ t, k.spawned = some t ∧ ∀ at_, next = some at_ → t + clock.firstPoll ≤ at_
  again : ∀ t, k.probed = some t → ∀ at_, next = some at_ → t + clock.poll ≤ at_

section Lines

variable {s t : Sys} {k : Clocks} {next next' : Option Instant} {c : Child} {es : List Entry}

/-- A launch is allowed if the child it replaces was not lost or the backoff is over, and it
arms the timer afresh. -/
theorem Launches.timely {announced : List SupervisorEvent} {out : End AutosshError Flow}
    (h : Launches s announced es out t)
    (hlost : ∀ t, k.lost = some t →
      deadlineAfter s.world.target t s.sup.clock.gateTime ≤ s.world.now) :
    Clocks.Timely s.world.target s.sup.clock k es ∧
      ∀ next, out = .ret (.looping next) → (k.after es).Armed s.sup.clock next := by
  constructor
  · refine Clocks.timely_core ?_
    rw [h.core_eq]
    refine ⟨⟨?_, ?_, ?_, fun _ => hlost⟩, trivial⟩ <;> · rintro ⟨port, payload, hact⟩; cases hact
  · rintro next rfl
    rw [← Clocks.after_core, h.core_eq]
    cases h with
    | looping hres hem hnext =>
      rw [hres]
      refine ⟨rfl, ⟨s.world.now, rfl, ?_⟩, by rintro t ⟨⟩⟩
      rintro at_ rfl
      unfold Sys.firstProbe at hnext
      split at hnext
      · obtain ⟨n, hn, heq⟩ := Option.map_eq_some_iff.mp hnext
        cases heq
        obtain rfl := Instant.checkedAdd_eq_some hn
        have hnow : s.world.now ≤ t.world.now := hem.logs.world.now
        have hclock : t.sup.clock = s.sup.clock := by rw [hem.logs.sup]; rfl
        rw [hclock]
        exact Nat.add_le_add_right hnow _
      · cases hnext

/-- A probe made when it is due is allowed. -/
private theorem Clocks.Armed.allows_probe {clock : PollClock} (harmed : k.Armed clock next)
    (os : Target) (halive : t.world.IsAlive c) (hdue : t.ProbeDue next) (port : UInt16)
    (payload : List UInt8) : k.Allows os clock (t.line (.probing port payload)) := by
  obtain ⟨at_, hat, hle⟩ := hdue
  obtain ⟨t₀, hspawned, hfirst⟩ := harmed.first
  refine ⟨fun _ => halive.alive_pos, fun _ => ⟨t₀, hspawned, ?_⟩, fun _ q hq => ?_, ?_⟩
  · exact le_trans (hfirst at_ hat) hle
  · exact le_trans (harmed.again q hq at_ hat) hle
  · rintro ⟨path, args, result, hact⟩
    cases hact

/-- A line that is neither a spawn nor a probe is allowed. -/
private theorem Clocks.timely_line (k : Clocks) (os : Target) (clock : PollClock) (m : Mark) :
    k.Allows os clock (s.line (.passed m)) := by
  refine Clocks.allows_of_not ?_ (Sys.not_isSpawn_passed s m)
  rintro ⟨port, payload, hact⟩
  cases hact

/-- The lines of a point passed, of events and of a termination are allowed. -/
private theorem Clocks.timely_winding (k : Clocks) (os : Target) (clock : PollClock)
    {a b d e : Sys} {m : Mark} {evs : List SupervisorEvent} {es fs : List Entry}
    (hem : Emitted (a.mark m) evs es b) (hterm : Terminates d c fs e) :
    Clocks.Timely os clock k (a.line (.passed m) :: (es ++ fs)) := by
  refine Clocks.timely_core ?_
  rw [core_winding hem hterm]
  exact ⟨Clocks.timely_line _ _ _ _, trivial⟩

/-- The two lines of a probe are allowed when it is due. -/
private theorem Clocks.Armed.timely_probe {a : Sys} {clock : PollClock}
    (harmed : k.Armed clock next) (os : Target) (halive : a.world.IsAlive c)
    (hdue : a.ProbeDue next) (port : UInt16) (payload : List UInt8)
    (r : Option (Except IoError (List UInt8))) :
    Clocks.Timely os clock k [a.line (.probing port payload), t.line (.probed r)] := by
  refine ⟨harmed.allows_probe os halive hdue port payload, Clocks.allows_of_not ?_ ?_, trivial⟩
  · rintro ⟨port, payload, hact⟩
    cases hact
  · rintro ⟨path, args, result, hact⟩
    cases hact

/-- A tick probes only when it may, and leaves the timer armed. -/
theorem Ticks.timely {outcome : LoopOutcome} (h : Ticks s next c es outcome next' t)
    (harmed : k.Armed s.sup.clock next) (os : Target) :
    Clocks.Timely os s.sup.clock k es ∧ (k.after es).Armed s.sup.clock next' := by
  cases h with
  | exited => exact ⟨trivial, harmed⟩
  | signal => exact ⟨trivial, harmed⟩
  | probed hpass halive hdue hm hprobes hn =>
    refine ⟨harmed.timely_probe os halive hdue _ _ _, harmed.running, ?_, ?_⟩
    all_goals obtain rfl := Instant.checkedAdd_eq_some hn
    · -- the probe was due, so the delay after the spawn is over for good
      obtain ⟨t₀, hspawned, hfirst⟩ := harmed.first
      obtain ⟨at_, hat, hle⟩ := hdue
      have hnow : _ ≤ t.world.now := hprobes.logs.world.now
      refine ⟨t₀, hspawned, ?_⟩
      rintro u ⟨⟩
      exact le_trans (hfirst at_ hat) (le_trans (le_trans hle hnow) (Nat.le_add_right _ _))
    · rintro q hq u ⟨⟩
      cases hq
      exact le_refl _

/-- Losing the child is allowed. -/
theorem Lost.timely {outcome : LoopOutcome} {status : ExitStatus} {lifetime : Duration}
    (h : Lost s next c es outcome status lifetime t) (harmed : k.Armed s.sup.clock next)
    (os : Target) : Clocks.Timely os s.sup.clock k es := by
  refine Clocks.timely_core ?_
  cases h with
  | exited hticks hem =>
    simp only [core_line_cons, hem.core_eq, Act.isCore, if_true]
    exact ⟨Clocks.timely_line _ _ _ _, trivial⟩
  | timedOut hticks hem hterm _ hem' =>
    simp only [core_append, core_line_cons, hticks.core_eq, hem.core_eq, hterm.core_eq,
      hem'.core_eq, Act.isCore, if_true, List.append_nil]
    exact Clocks.timely_append.mpr
      ⟨(hticks.timely harmed os).1, Clocks.timely_line _ _ _ _, trivial⟩

/-- What follows the decision is allowed: a respawn waits for the backoff. -/
theorem Settles.timely {outcome : LoopOutcome} {decision : RespawnDecision}
    {out : End AutosshError Flow} (h : Settles s outcome decision es out t)
    (hlost : k.lost = some s.world.now) :
    Clocks.Timely s.world.target s.sup.clock k es ∧
      ∀ next, out = .ret (.looping next) → (k.after es).Armed s.sup.clock next := by
  cases h with
  | respawn hpass hdue hl =>
    have hover := hl.timely (k := k) fun u hu => by
      rw [hlost, Option.some.injEq] at hu
      rw [hpass.world.target, hpass.sup, ← hu]
      exact hdue
    rwa [hpass.world.target, hpass.sup] at hover
  | capped hem => exact ⟨Clocks.timely_core (hem.core_eq ▸ trivial), by simp⟩
  | _ => exact ⟨trivial, by simp⟩

/-- Every line of a turn is allowed, and the timer is armed again if the loop goes on. -/
theorem Turn.timely {out : End AutosshError Flow} (h : Turn s next c es out t)
    (harmed : k.Armed s.sup.clock next) :
    Clocks.Timely s.world.target s.sup.clock k es ∧
      ∀ next', out = .ret (.looping next') → (k.after es).Armed s.sup.clock next' := by
  cases h with
  | expired _ hem hterm => exact ⟨Clocks.timely_winding _ _ _ hem hterm, by simp⟩
  | waitFailed => exact ⟨trivial, by simp⟩
  | probeOverflow _ hfails =>
    cases hfails with
    | overflow _ halive hdue => exact ⟨harmed.timely_probe _ halive hdue _ _ _, by simp⟩
  | probeOk _ hticks =>
    obtain ⟨htimely, harmed'⟩ := hticks.timely harmed s.world.target
    refine ⟨Clocks.timely_append.mpr ⟨htimely, Clocks.timely_line _ _ _ _, trivial⟩, ?_⟩
    rintro next' ⟨⟩
    rw [Clocks.after_append]
    exact harmed'
  | terminateFailed _ hticks hem hterm =>
    refine ⟨Clocks.timely_append.mpr ⟨(hticks.timely harmed _).1, ?_⟩, by simp⟩
    exact Clocks.timely_winding _ _ _ hem hterm
  | @lost es fs outcome status lifetime a t decision sup out _ hlost hdec hset =>
    have hdecided : a.Runs [a.line (.passed (.decided outcome status lifetime decision))]
        ({ a with sup := sup }.mark (.decided outcome status lifetime decision)) := hdec.runs
    have hruns := hlost.runs.trans hdecided
    have hclock := hruns.settings.clock
    have hover := hset.timely
      (k := (k.after es).step (a.line (.passed (.decided outcome status lifetime decision)))) rfl
    rw [hclock, hruns.target] at hover
    refine ⟨Clocks.timely_append.mpr
      ⟨hlost.timely harmed _, Clocks.timely_line _ _ _ _, hover.1⟩, ?_⟩
    rw [Clocks.after_append]
    exact hover.2
  | stopped _ _ _ hem hterm => exact ⟨Clocks.timely_winding _ _ _ hem hterm, by simp⟩
  | @renewed kind es fs gs a b d t out _ hticks hstops hem hterm hl =>
    have hruns := hticks.logs.runs.trans ((Sys.runs_mark _ _).trans
      (hem.logs.runs.trans hterm.runs_credit))
    have hclock := hruns.settings.clock
    -- a renewing signal is no loss, so the launch waits for nothing
    have hquiet : k.after (a.line (.passed (.ticked (.signal kind))) :: (es ++ fs)) = k := by
      rw [← Clocks.after_core, core_winding hem hterm]
      rfl
    have hover := hl.timely (k := k) fun u hu => by simp [harmed.running] at hu
    rw [hclock, hruns.target, ← hquiet] at hover
    have hsplit : a.line (.passed (.ticked (.signal kind))) :: (es ++ fs ++ gs) =
        (a.line (.passed (.ticked (.signal kind))) :: (es ++ fs)) ++ gs := by simp
    rw [hsplit, Clocks.timely_append, Clocks.after_append]
    exact ⟨⟨Clocks.timely_winding _ _ _ hem hterm, hover.1⟩, hover.2⟩

end Lines

/-- Every line of a run is allowed at the clocks of the lines before it. -/
theorem RunEnd.timely {s₀ t : Sys} {n : Nat} {out : End AutosshError Flow}
    (h : RunEnd s₀ n out t) (hs : s₀.Fresh) :
    Clocks.Timely s₀.world.target s₀.sup.clock {} t.world.history := by
  refine And.left (b := ∀ next, out = .ret (.looping next) →
    (({} : Clocks).after t.world.history).Armed s₀.sup.clock next) ?_
  refine h.invariant (fun out _ es => Clocks.Timely s₀.world.target s₀.sup.clock {} es ∧
    ∀ next, out = .ret (.looping next) → (({} : Clocks).after es).Armed s₀.sup.clock next)
    (fun hl => hl.timely (by rintro t ⟨⟩)) (fun hr ih hturn => ?_) hs
  have hclock := hr.runs.settings.clock
  obtain ⟨htimely, harmed⟩ := hturn.timely (hclock ▸ ih.2 _ rfl)
  rw [hclock, hr.runs.target] at htimely
  rw [hclock] at harmed
  rw [Clocks.after_append]
  exact ⟨Clocks.timely_append.mpr ⟨ih.1, htimely⟩, harmed⟩

/-- Where no backoff ends early, in every execution a probe starts no sooner than `first_poll`
after the spawn of the child alive then and `poll` after the end of the last probe of that
child, and a child lost to an exit or a failed probe is replaced no sooner than `gate_time`
after it was seen dead. Every spawn is made with no process alive, so the child alive at a
line is the one spawned last. -/
theorem run_probe_and_backoff_timing (s₀ : Sys) (hs : s₀.Fresh) (n : Nat)
    (script : List (List Event))
    (hsleep : ∀ e ∈ (execute n script s₀).state.world.history,
      e.time + s₀.sup.clock.gateTime ≤
        deadlineAfter s₀.world.target e.time s₀.sup.clock.gateTime)
    (before after : List Entry) (e : Entry)
    (hline : (execute n script s₀).state.world.history = before ++ e :: after) :
    (e.IsProbe → 0 < e.alive ∧
      (∃ t, (({} : Clocks).after before).spawned = some t ∧
        t + s₀.sup.clock.firstPoll ≤ e.time) ∧
      ∀ t, (({} : Clocks).after before).probed = some t → t + s₀.sup.clock.poll ≤ e.time) ∧
    (e.IsSpawn → e.alive = 0 ∧
      ∀ t, (({} : Clocks).after before).lost = some t → t + s₀.sup.clock.gateTime ≤ e.time) := by
  obtain ⟨out, t, hrun, more, hmore⟩ := execute_logGrows hs.still n script
  have htimely := hrun.timely hs
  rw [← hmore] at htimely
  have hallows := (Clocks.timely_append.mp htimely).1
  rw [hline] at hallows
  have hallows := hallows.allows
  refine ⟨fun hprobe => ⟨hallows.alive hprobe, hallows.first hprobe, hallows.again hprobe⟩, ?_⟩
  intro hspawn
  refine ⟨execute_spawns_alone hs n script e (by rw [hline]; simp) hspawn, fun u hu => ?_⟩
  rcases Clocks.lost_mem hu with hnone | ⟨f, hf, htime⟩
  · cases hnone
  · have hfits := hsleep f (by rw [hline]; exact List.mem_append_left _ hf)
    rw [htime] at hfits
    exact le_trans hfits (hallows.backoff hspawn u hu)

/-- A monitored supervisor whose probes nobody answers. -/
def Supervisor.unanswered : Supervisor :=
  { Supervisor.initial with
    monitor := some ⟨⟨20000⟩, some ⟨20001⟩, none, ⟨20000, 20001⟩⟩
    monitorMode := .active 20000 none }

/-- The first probe after ten minutes times out after ten more, and the spawn after it is the
last line of the log half a minute later. -/
theorem run_probe_and_backoff_timing_unanswered :
    let log := (execute 1 [[.elapse (Duration.fromSecs 600)], [.elapse (Duration.fromSecs 600)],
      [.exit 0 ⟨15⟩], [.elapse (Duration.fromSecs 30)]]
      ⟨.unanswered, .initial .unix⟩).state.world.history
    ∃ h : log ≠ [], Duration.fromSecs 1200 + Duration.fromSecs 30 ≤ (log.getLast h).time := by
  refine ⟨by decide +kernel, ?_⟩
  refine ((run_probe_and_backoff_timing _ (Sys.fresh_initial .unanswered .unix rfl) 1
    [[.elapse (Duration.fromSecs 600)], [.elapse (Duration.fromSecs 600)],
      [.exit 0 ⟨15⟩], [.elapse (Duration.fromSecs 30)]] (by decide +kernel) _ [] _
    (List.dropLast_append_getLast (by decide +kernel)).symm).2 ⟨_, _, _, rfl⟩).2 _ ?_
  rfl

end RustyAutossh
