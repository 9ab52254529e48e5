import RustyAutossh.Loop.Runs
import RustyAutossh.Host.Progress

/-!
# The core of the log

Emitted events and kill requests accompany a turn without deciding anything. The
core of a stretch is what remains: spawns, probes and the points passed. It has
an explicit form for each piece of a turn.
-/

namespace RustyAutossh

open Async Runtime

/-- An item of two stretches is in the first or in the second. -/
theorem append_cons_cases {β : Type} {es fs a b : List β} {e : β}
    (h : es ++ fs = a ++ e :: b) : (∃ c, es = a ++ e :: c ∧ b = c ++ fs) ∨
      ∃ c, a = es ++ c ∧ fs = c ++ e :: b := by
  rcases List.append_eq_append_iff.mp h with ⟨c, rfl, hfs⟩ | ⟨c, rfl, hb⟩
  · exact .inr ⟨c, rfl, hfs⟩
  · cases c with
    | nil => exact .inr ⟨[], by simp, by simpa using hb.symm⟩
    | cons g c =>
      simp only [List.cons_append, List.cons.injEq] at hb
      obtain ⟨rfl, rfl⟩ := hb
      exact .inl ⟨c, rfl, rfl⟩

/-- Spawns, probes and the points passed. -/
def Act.isCore : Act → Bool
  | .killed _ _ | .emitted _ => false
  | _ => true

/-- The core lines of a stretch. -/
def core (es : List Entry) : List Entry := es.filter (·.act.isCore)

@[simp] theorem core_nil : core [] = [] := rfl

@[simp] theorem core_append (es fs : List Entry) : core (es ++ fs) = core es ++ core fs :=
  List.filter_append ..

@[simp] theorem core_line_cons (s : Sys) (act : Act) (es : List Entry) :
    core (s.line act :: es) = if act.isCore then s.line act :: core es else core es := by
  cases h : act.isCore <;> simp [core, h]

theorem core_cons_of_pos {e : Entry} {es : List Entry} (h : e.act.isCore = true) :
    core (e :: es) = e :: core es := by
  simp [core, h]

theorem core_cons_of_neg {e : Entry} {es : List Entry} (h : e.act.isCore ≠ true) :
    core (e :: es) = core es := by
  simp [core, h]

theorem mem_core {e : Entry} {es : List Entry} (he : e ∈ es) (hact : e.act.isCore = true) :
    e ∈ core es :=
  List.mem_filter.mpr ⟨he, hact⟩

theorem Entry.IsSpawn.isCore {e : Entry} (h : e.IsSpawn) : e.act.isCore = true := by
  obtain ⟨path, args, result, h⟩ := h
  rw [h]
  rfl

/-- Counting core actions in the core counts them all. -/
theorem countP_core {f : Act → Bool} (hf : ∀ act, f act = true → act.isCore = true)
    (es : List Entry) : (core es).countP (fun e => f e.act) = es.countP (fun e => f e.act) := by
  rw [core, List.countP_filter]
  refine List.countP_congr fun e _ => ?_
  have hcore := hf e.act
  simp only [Bool.and_eq_true]
  exact ⟨fun h => h.1, fun h => ⟨h, hcore h⟩⟩

@[simp] theorem Emitted.core_eq {s t : Sys} {evs : List SupervisorEvent} {es : List Entry}
    (h : Emitted s evs es t) : core es = [] := by
  rw [core, List.filter_eq_nil_iff]
  intro e he
  obtain ⟨ev, -, hev⟩ := List.mem_map.mp (h.acts.subset (List.mem_map_of_mem he))
  rw [← hev]
  simp [Act.isCore]

@[simp] theorem Terminates.core_eq {s t : Sys} {c : Child} {es : List Entry}
    (h : Terminates s c es t) : core es = [] := by
  rw [core, List.filter_eq_nil_iff]
  intro e he
  obtain ⟨forced, hact⟩ := h.kills e he
  rw [hact]
  simp [Act.isCore]

/-- The spawn attempt is the core of a launch. -/
theorem Launches.core_eq {s t : Sys} {announced : List SupervisorEvent} {es : List Entry}
    {out : End AutosshError Flow} (h : Launches s announced es out t) :
    core es =
      [s.line (.spawned s.sup.sshPath s.sup.argv (s.world.spawnResult s.world.spawns))] := by
  cases h with
  | failed hres => simp [hres, Act.isCore]
  | looping hres hem => simp [hres, hem.core_eq, Act.isCore]
  | overflow hres hem => simp [hres, hem.core_eq, Act.isCore]

/-- The core of a tick is its probe, if it made one. -/
theorem Ticks.core_eq {s t : Sys} {next next' : Option Instant} {c : Child} {es : List Entry}
    {outcome : LoopOutcome} (h : Ticks s next c es outcome next' t) : core es = es := by
  cases h <;> simp [Act.isCore]

/-- A tick spawns nothing. -/
theorem Ticks.not_isSpawn {s t : Sys} {next next' : Option Instant} {c : Child}
    {es : List Entry} {outcome : LoopOutcome} (h : Ticks s next c es outcome next' t) :
    ∀ e ∈ es, ¬ e.IsSpawn := by
  cases h with
  | probed =>
    intro e he
    simp only [List.mem_cons, List.not_mem_nil, or_false] at he
    rcases he with rfl | rfl <;> exact fun ⟨_, _, _, h⟩ => by simp at h
  | _ => simp

/-- The point an action passes, if it is one. -/
def Act.mark : Act → Option Mark
  | .passed m => some m
  | _ => none

/-- The points passed in a stretch. -/
def marks (es : List Entry) : List Mark := es.filterMap (·.act.mark)

@[simp] theorem marks_nil : marks [] = [] := rfl

@[simp] theorem marks_append (es fs : List Entry) : marks (es ++ fs) = marks es ++ marks fs :=
  List.filterMap_append ..

@[simp] theorem marks_passed_cons (s : Sys) (m : Mark) (es : List Entry) :
    marks (s.line (.passed m) :: es) = m :: marks es := rfl

/-- The point of a line is among the points passed. -/
theorem mem_marks {e : Entry} {es : List Entry} {m : Mark} (he : e ∈ es)
    (hact : e.act = .passed m) : m ∈ marks es :=
  List.mem_filterMap.mpr ⟨e, he, by rw [hact]; rfl⟩

/-- The points passed are part of the core. -/
theorem marks_core (es : List Entry) : marks (core es) = marks es := by
  rw [marks, core, List.filterMap_filter]
  exact List.filterMap_congr fun e _ => by cases e.act <;> rfl

@[simp] theorem Emitted.marks_eq {s t : Sys} {evs : List SupervisorEvent} {es : List Entry}
    (h : Emitted s evs es t) : marks es = [] := by
  rw [← marks_core, h.core_eq, marks_nil]

@[simp] theorem Terminates.marks_eq {s t : Sys} {c : Child} {es : List Entry}
    (h : Terminates s c es t) : marks es = [] := by
  rw [← marks_core, h.core_eq, marks_nil]

@[simp] theorem Launches.marks_eq {s t : Sys} {announced : List SupervisorEvent}
    {es : List Entry} {out : End AutosshError Flow} (h : Launches s announced es out t) :
    marks es = [] := by
  rw [← marks_core, h.core_eq]
  rfl

@[simp] theorem Ticks.marks_eq {s t : Sys} {next next' : Option Instant} {c : Child}
    {es : List Entry} {outcome : LoopOutcome} (h : Ticks s next c es outcome next' t) :
    marks es = [] := by
  cases h <;> rfl

/-- A loss is a child exit counted with its own status, or a failed probe counted as a
failure. -/
theorem Lost.cause {s t : Sys} {next : Option Instant} {c : Child} {es : List Entry}
    {outcome : LoopOutcome} {status : ExitStatus} {lifetime : Duration}
    (h : Lost s next c es outcome status lifetime t) :
    outcome = .childExited status lifetime ∨
      outcome = .probeTimeout ∧ status.success = false := by
  cases h with
  | exited => exact .inl rfl
  | timedOut => exact .inr ⟨rfl, success_makeFailedStatus _⟩

/-- Losing a child passes one point, the tick that saw the loss. -/
@[simp] theorem Lost.marks_eq {s t : Sys} {next : Option Instant} {c : Child} {es : List Entry}
    {outcome : LoopOutcome} {status : ExitStatus} {lifetime : Duration}
    (h : Lost s next c es outcome status lifetime t) : marks es = [.ticked outcome] := by
  cases h with
  | exited hticks hem => rw [marks_passed_cons, hem.marks_eq]
  | timedOut hticks hem hterm _ hem' =>
    rw [marks_append, hticks.marks_eq, marks_passed_cons, marks_append, marks_append,
      hem.marks_eq, hterm.marks_eq, hem'.marks_eq]
    rfl

@[simp] theorem Settles.marks_eq {s t : Sys} {outcome : LoopOutcome}
    {decision : RespawnDecision} {es : List Entry} {out : End AutosshError Flow}
    (h : Settles s outcome decision es out t) : marks es = [] := by
  cases h with
  | respawn _ _ hl => exact hl.marks_eq
  | capped hem => exact hem.marks_eq
  | _ => rfl

/-- A point passed because something happened, rather than because something was decided. -/
def Mark.isEvent : Mark → Bool
  | .decided _ _ _ _ => false
  | _ => true

/-- What the loop has acted on, in order. -/
def loopEvents (es : List Entry) : List Mark := (marks es).filter Mark.isEvent

@[simp] theorem loopEvents_append (es fs : List Entry) :
    loopEvents (es ++ fs) = loopEvents es ++ loopEvents fs := by
  simp [loopEvents]

/-- A loss acts on one event. -/
theorem Lost.loopEvents_eq {s a t u : Sys} {next : Option Instant} {c : Child}
    {es fs : List Entry} {outcome : LoopOutcome} {status : ExitStatus} {lifetime : Duration}
    {decision : RespawnDecision} {out : End AutosshError Flow}
    (h : Lost s next c es outcome status lifetime a) (h' : Settles u outcome decision fs out t) :
    loopEvents (es ++ a.line (.passed (.decided outcome status lifetime decision)) :: fs) =
      [.ticked outcome] := by
  simp only [loopEvents, marks_append, h.marks_eq, marks_passed_cons, h'.marks_eq]
  rfl

/-- Events and a termination after an event that is acted on add none to it. -/
theorem loopEvents_winding {s t u v : Sys} {m : Mark} {c : Child} {evs : List SupervisorEvent}
    {es fs : List Entry} (hem : Emitted (s.mark m) evs es t) (hterm : Terminates u c fs v)
    (hm : m.isEvent = true) : loopEvents (s.line (.passed m) :: (es ++ fs)) = [m] := by
  simp [loopEvents, hem.marks_eq, hterm.marks_eq, hm]

/-- A turn begun after the deadline is the shutdown of the lifetime check. -/
theorem Turn.of_expired {s t : Sys} {next : Option Instant} {c : Child}
    {es : List Entry} {out : End AutosshError Flow} (h : Turn s next c es out t)
    (hexp : s.Expired) : out = .ret .returned ∧ loopEvents es = [.expired] ∧
      (s.sup.eventTx ≠ none → t.world.inboxOpen = true →
        ∃ e ∈ es, e.act = .emitted .maxLifetimeReached) := by
  cases h with
  | @expired es fs b t _ hem hterm =>
    refine ⟨rfl, loopEvents_winding hem hterm rfl, fun htx hopen => ?_⟩
    have hacts := hem.all htx (hterm.world.inboxOpen hopen)
    have hmem : Act.emitted .maxLifetimeReached ∈ es.map (·.act) := by simp [hacts]
    obtain ⟨e, he, hact⟩ := List.mem_map.mp hmem
    exact ⟨e, by simp [he], hact⟩
  | waitFailed hn => exact absurd hexp hn
  | probeOverflow hn => exact absurd hexp hn
  | probeOk hn => exact absurd hexp hn
  | terminateFailed hn => exact absurd hexp hn
  | lost hn => exact absurd hexp hn
  | stopped hn => exact absurd hexp hn
  | renewed hn => exact absurd hexp hn

/-- What an execution has logged, finished or not, is the beginning of the log of a run. -/
theorem execute_logGrows {s₀ : Sys} (hs : s₀.world.Still) (n : Nat) (script : List (List Event)) :
    ∃ out t, RunEnd s₀ n out t ∧ (execute n script s₀).state.LogGrows t := by
  obtain ⟨more, hend, hgrows⟩ :=
    exists_completion host_responsive host_logGrows (runFor n) script s₀
  have hend' : (execute n (script ++ more) s₀).out ≠ .pending := hend
  exact ⟨_, _, runEnd_of_execute hs hend', hgrows⟩

section Closing

variable {s₀ t : Sys} {n : Nat} {out : End AutosshError Flow} {p : Entry → Prop}
  {R : End AutosshError Flow → Prop}

/-- Lines that only a turn that ends the run, in one of these ways and without a spawn, can
log. -/
structure OnlyInLastTurn (s₀ : Sys) (p : Entry → Prop) (R : End AutosshError Flow → Prop) :
    Prop where
  ends : ∀ next, ¬ R (.ret (.looping next))
  launch : ∀ {es out u}, Launches s₀ [] es out u → ∀ e ∈ es, ¬ p e
  turn : ∀ {s next c es out u}, s.sup.config = s₀.sup.config → Turn s next c es out u →
    (∀ e ∈ es, ¬ p e) ∨ R out ∧ ∀ e ∈ es, ¬ e.IsSpawn

/-- While the loop goes on no such line has been logged. -/
theorem OnlyInLastTurn.reaches (hp : OnlyInLastTurn s₀ p R) {s : Sys} {es : List Entry}
    {next : Option Instant} {c : Child} (h : Reaches s₀ n es s next c) : ∀ e ∈ es, ¬ p e := by
  induction h with
  | start hl => exact hp.launch hl
  | turn hr hturn _ ih =>
    intro e he
    rcases List.mem_append.mp he with he | he
    · exact ih e he
    · rcases hp.turn hr.runs.config hturn with hnone | ⟨hR, -⟩
      · exact hnone e he
      · exact absurd hR (hp.ends _)

/-- The log of a run has no such line, or it ends in a stretch without spawns that
begins no later than the first one. -/
theorem OnlyInLastTurn.runEnd (hp : OnlyInLastTurn s₀ p R) (hs : s₀.Fresh)
    (h : RunEnd s₀ n out t) :
    (∀ e ∈ t.world.history, ¬ p e) ∨
      R out ∧ ∃ es fs, t.world.history = es ++ fs ∧ (∀ e ∈ es, ¬ p e) ∧ ∀ e ∈ fs, ¬ e.IsSpawn := by
  cases h with
  | looping hr =>
    rw [hr.runs.history_of_fresh hs]
    exact .inl (hp.reaches hr)
  | closed _ hfin =>
    rw [hfin.runs.history_of_fresh hs]
    cases hfin with
    | start hl => exact .inl (hp.launch hl)
    | @turn n es fs s t next c out hr hturn =>
      rcases hp.turn hr.runs.config hturn with hnone | ⟨hR, hspawn⟩
      · refine .inl fun e he => ?_
        rcases List.mem_append.mp he with he | he
        · exact hp.reaches hr e he
        · exact hnone e he
      · exact .inr ⟨hR, es, fs, rfl, hp.reaches hr, hspawn⟩

/-- In the log of any execution no spawn comes after such a line. -/
theorem OnlyInLastTurn.no_spawn_after (hp : OnlyInLastTurn s₀ p R) (hs : s₀.Fresh) (n : Nat)
    (script : List (List Event)) :
    (execute n script s₀).state.world.history.Pairwise fun e e' => p e → ¬ e'.IsSpawn := by
  obtain ⟨out, t, hrun, hgrows⟩ := execute_logGrows hs.still n script
  refine List.Pairwise.sublist hgrows.sublist ?_
  rcases hp.runEnd hs hrun with hnone | ⟨-, es, fs, heq, hnone, hspawn⟩
  · exact List.pairwise_of_forall_mem_list fun e he _ _ hpe => absurd hpe (hnone e he)
  · rw [heq, List.pairwise_append]
    refine ⟨?_, ?_, ?_⟩
    · exact List.pairwise_of_forall_mem_list fun e he _ _ hpe => absurd hpe (hnone e he)
    · exact List.pairwise_of_forall_mem_list fun _ _ e' he' _ => hspawn e' he'
    · exact fun _ _ e' he' _ => hspawn e' he'

end Closing

/-- A stretch without spawns in its core has none. -/
theorem not_isSpawn_of_core {es : List Entry} (h : ∀ e ∈ core es, ¬ e.IsSpawn) :
    ∀ e ∈ es, ¬ e.IsSpawn :=
  fun e he hspawn => h e (mem_core he hspawn.isCore) hspawn

/-- A line that logs a point passed is no spawn. -/
theorem Sys.not_isSpawn_passed (s : Sys) (m : Mark) : ¬ (s.line (.passed m)).IsSpawn := by
  rintro ⟨path, args, result, h⟩
  simp at h

/-- Of the lines of a point passed, of events and of a termination only the first is core. -/
theorem core_winding {s t u v : Sys} {m : Mark} {c : Child} {evs : List SupervisorEvent}
    {es fs : List Entry} (hem : Emitted (s.mark m) evs es t) (hterm : Terminates u c fs v) :
    core (s.line (.passed m) :: (es ++ fs)) = [s.line (.passed m)] := by
  simp only [core_line_cons, core_append, hem.core_eq, hterm.core_eq, Act.isCore, if_true,
    List.append_nil]

/-- So there is no spawn among them. -/
theorem not_isSpawn_winding {s t u v : Sys} {m : Mark} {c : Child}
    {evs : List SupervisorEvent} {es fs : List Entry} (hem : Emitted (s.mark m) evs es t)
    (hterm : Terminates u c fs v) : ∀ e ∈ s.line (.passed m) :: (es ++ fs), ¬ e.IsSpawn := by
  refine not_isSpawn_of_core fun e he => ?_
  rw [core_winding hem hterm, List.mem_singleton] at he
  exact he ▸ Sys.not_isSpawn_passed _ _

/-- The loss of a child spawns nothing. -/
theorem Lost.not_isSpawn {s t : Sys} {next : Option Instant} {c : Child} {es : List Entry}
    {outcome : LoopOutcome} {status : ExitStatus} {lifetime : Duration}
    (h : Lost s next c es outcome status lifetime t) : ∀ e ∈ es, ¬ e.IsSpawn := by
  refine not_isSpawn_of_core fun e hcore hspawn => ?_
  cases h with
  | exited hticks hem =>
    simp only [core_line_cons, hem.core_eq, Act.isCore, if_true, List.mem_singleton] at hcore
    exact Sys.not_isSpawn_passed _ _ (hcore ▸ hspawn)
  | timedOut hticks hem hterm _ hem' =>
    simp only [core_append, core_line_cons, hem.core_eq, hterm.core_eq, hem'.core_eq,
      Act.isCore, if_true, List.append_nil, List.mem_append, List.mem_singleton] at hcore
    rcases hcore with hcore | hcore
    · exact hticks.not_isSpawn e (hticks.core_eq ▸ hcore) hspawn
    · exact Sys.not_isSpawn_passed _ _ (hcore ▸ hspawn)

end RustyAutossh
