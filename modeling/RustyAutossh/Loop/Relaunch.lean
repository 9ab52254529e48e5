import RustyAutossh.Loop.Core

/-!
# Replacing the child

A turn spawns at most once, at its end. By then it has logged an outcome on which the
child is lost or replaced, and the child is no longer alive.
-/

namespace RustyAutossh

open Async

/-- The outcomes on which the child is lost or replaced. -/
def LoopOutcome.replaces : LoopOutcome → Bool
  | .childExited _ _ | .probeTimeout => true
  | .probeOk => false
  | .signal kind => !kind.stops

/-- A line that logs the outcome of a tick. -/
def Entry.IsOutcome (e : Entry) : Prop := ∃ outcome, e.act = .passed (.ticked outcome)

/-- A line that logs an outcome on which the child is lost or replaced. -/
def Entry.Replaces (e : Entry) : Prop :=
  ∃ outcome : LoopOutcome, outcome.replaces = true ∧ e.act = .passed (.ticked outcome)

/-- Emitting events logs neither spawns nor outcomes. -/
theorem Emitted.quiet {s t : Sys} {evs : List SupervisorEvent} {es : List Entry}
    (h : Emitted s evs es t) : ∀ e ∈ es, ¬ e.IsSpawn ∧ ¬ e.IsOutcome := by
  refine fun e he => ⟨not_isSpawn_of_core (by simp [h.core_eq]) e he, ?_⟩
  rintro ⟨outcome, hact⟩
  have hmem := mem_marks he hact
  simp [h.marks_eq] at hmem

/-- A launch spawns first, and then only emits events. -/
theorem Launches.split {s t : Sys} {announced : List SupervisorEvent} {es : List Entry}
    {out : End AutosshError Flow} (h : Launches s announced es out t) :
    ∃ act post, es = s.line act :: post ∧ (s.line act).IsSpawn ∧
      ∀ e ∈ post, ¬ e.IsSpawn ∧ ¬ e.IsOutcome := by
  cases h with
  | failed => exact ⟨_, [], rfl, ⟨_, _, _, rfl⟩, by simp⟩
  | looping _ hem => exact ⟨_, _, rfl, ⟨_, _, _, rfl⟩, hem.quiet⟩
  | overflow _ hem => exact ⟨_, _, rfl, ⟨_, _, _, rfl⟩, hem.quiet⟩

/-- A loss is seen in its own log. -/
private theorem Lost.exists_replaces {s t : Sys} {next : Option Instant} {c : Child}
    {es : List Entry} {outcome : LoopOutcome} {status : ExitStatus} {lifetime : Duration}
    (h : Lost s next c es outcome status lifetime t) : ∃ e ∈ es, e.Replaces := by
  cases h with
  | exited => exact ⟨_, List.mem_cons_self, _, rfl, rfl⟩
  | timedOut => exact ⟨_, List.mem_append_right _ List.mem_cons_self, _, rfl, rfl⟩

/-- The log of a turn that replaces its child: a stretch without a spawn that gives the reason,
and a launch. -/
inductive Relaunches (s : Sys) (c : Child) :
    List Entry → End AutosshError Flow → Sys → Prop
  | intro {a t : Sys} {es fs : List Entry} {announced : List SupervisorEvent}
      {out : End AutosshError Flow} : s.Runs es a → (∀ e ∈ es, ¬ e.IsSpawn) →
      (∃ e ∈ es, e.Replaces) → (s.world.OnlyChild c → a.world.Still) →
      Launches a announced fs out t → Relaunches s c (es ++ fs) out t

/-- A turn replaces its child, or spawns nothing; then, if the run goes on, it has seen no
reason to. -/
theorem Turn.relaunch_cases {s t : Sys} {next : Option Instant} {c : Child} {es : List Entry}
    {out : End AutosshError Flow} (h : Turn s next c es out t) :
    Relaunches s c es out t ∨ (∀ e ∈ es, ¬ e.IsSpawn) ∧
      ((∃ next', out = .ret (.looping next')) → ∀ e ∈ es, ¬ e.Replaces) := by
  cases h with
  | expired _ hem hterm => exact .inr ⟨not_isSpawn_winding hem hterm, by simp⟩
  | waitFailed => exact .inr ⟨by simp, by simp⟩
  | probeOverflow _ hfails =>
    cases hfails with
    | overflow =>
      refine .inr ⟨fun e he => ?_, by simp⟩
      simp only [List.mem_cons, List.not_mem_nil, or_false] at he
      rintro ⟨_, _, _, hact⟩
      rcases he with rfl | rfl <;> simp at hact
  | probeOk _ hticks =>
    refine .inr ⟨fun e he => ?_, fun _ e he => ?_⟩
    · rcases List.mem_append.mp he with he | he
      · exact hticks.not_isSpawn e he
      · exact List.mem_singleton.mp he ▸ Sys.not_isSpawn_passed _ _
    · rintro ⟨outcome, hreplaces, hact⟩
      have hmem := mem_marks he hact
      simp only [marks_append, hticks.marks_eq, marks_passed_cons, marks_nil, List.nil_append,
        List.mem_singleton, Mark.ticked.injEq] at hmem
      subst hmem
      cases hreplaces
  | terminateFailed _ hticks hem hterm =>
    refine .inr ⟨fun e he => ?_, by simp⟩
    rcases List.mem_append.mp he with he | he
    · exact hticks.not_isSpawn e he
    · exact not_isSpawn_winding hem hterm e he
  | @lost es fs outcome status lifetime a t decision sup out _ hlost hdec hset =>
    have hnone : ∀ e ∈ es ++ [a.line (.passed (.decided outcome status lifetime decision))],
        ¬ e.IsSpawn := by
      intro e he
      rcases List.mem_append.mp he with he | he
      · exact hlost.not_isSpawn e he
      · exact List.mem_singleton.mp he ▸ Sys.not_isSpawn_passed _ _
    have hsplit : es ++ a.line (.passed (.decided outcome status lifetime decision)) :: fs =
        (es ++ [a.line (.passed (.decided outcome status lifetime decision))]) ++ fs := by simp
    rw [hsplit]
    cases hset with
    | respawn hpass _ hl =>
      obtain ⟨e, he, hreplaces⟩ := hlost.exists_replaces
      have hruns := (hlost.runs.trans hdec.runs).trans hpass.runs
      rw [List.append_nil] at hruns
      exact .inl (.intro hruns hnone ⟨e, List.mem_append_left _ he, hreplaces⟩
        (fun hc => hpass.world.still (hlost.still hc)) hl)
    | capped hem =>
      refine .inr ⟨fun e he => ?_, by simp⟩
      rcases List.mem_append.mp he with he | he
      · exact hnone e he
      · exact (hem.quiet e he).1
    | finished => exact .inr ⟨by simpa using hnone, by simp⟩
    | oneShotExit => exact .inr ⟨by simpa using hnone, by simp⟩
    | oneShotTimeout => exact .inr ⟨by simpa using hnone, by simp⟩
  | stopped _ _ _ hem hterm => exact .inr ⟨not_isSpawn_winding hem hterm, by simp⟩
  | @renewed kind es fs gs a b d t out _ hticks hrenews hem hterm hl =>
    refine .inl ?_
    have hruns := hticks.logs.runs.trans ((Sys.runs_mark _ _).trans
      (hem.logs.runs.trans hterm.runs_credit))
    have hsplit : a.line (.passed (.ticked (.signal kind))) :: (es ++ fs ++ gs) =
        ([] ++ ([a.line (.passed (.ticked (.signal kind)))] ++ (es ++ fs))) ++ gs := by simp
    rw [hsplit]
    have hnone : ∀ e ∈ a.line (.passed (.ticked (.signal kind))) :: (es ++ fs), ¬ e.IsSpawn :=
      not_isSpawn_winding hem hterm
    exact .intro hruns hnone
      ⟨_, List.mem_cons_self, .signal kind, by simp [LoopOutcome.replaces, hrenews], rfl⟩
      (fun hc => hterm.still ((hticks.marked.trans hem.logs).world.onlyChild hc)) hl

/-- A stretch that spawns once, after an outcome on which the child is lost or replaced. -/
def Replacement (es : List Entry) : Prop :=
  ∃ pre e mid f post, es = (pre ++ e :: mid) ++ f :: post ∧ e.Replaces ∧ f.IsSpawn ∧
    (∀ g ∈ pre ++ e :: mid, ¬ g.IsSpawn ∧ g.time ≤ f.time) ∧
    ∀ g ∈ post, ¬ g.IsSpawn ∧ ¬ g.IsOutcome

/-- A stretch without a spawn followed by a launch is a replacement if it saw a reason. -/
private theorem Launches.replacement {s a t : Sys} {announced : List SupervisorEvent}
    {es fs : List Entry} {out : End AutosshError Flow} (h : Launches a announced fs out t)
    (hruns : s.Runs es a) (hspawn : ∀ e ∈ es, ¬ e.IsSpawn) (hmem : ∃ e ∈ es, e.Replaces) :
    Replacement (es ++ fs) := by
  obtain ⟨act, post, rfl, hact, hpost⟩ := h.split
  obtain ⟨e, he, hreplaces⟩ := hmem
  obtain ⟨pre, mid, rfl⟩ := List.append_of_mem he
  exact ⟨pre, e, mid, a.line act, post, rfl, hreplaces, hact,
    fun g hg => ⟨hspawn g hg, (hruns.times hg).2⟩, hpost⟩

/-- A turn replaces its child, or spawns nothing; then, if the run goes on, it has seen no
reason to. -/
theorem Turn.spawn_cases {s t : Sys} {next : Option Instant} {c : Child} {es : List Entry}
    {out : End AutosshError Flow} (h : Turn s next c es out t) :
    Replacement es ∨ (∀ e ∈ es, ¬ e.IsSpawn) ∧
      ((∃ next', out = .ret (.looping next')) → ∀ e ∈ es, ¬ e.Replaces) := by
  rcases h.relaunch_cases with hrelaunch | hnone
  · cases hrelaunch with
    | intro hruns hspawn hmem _ hl => exact .inl (hl.replacement hruns hspawn hmem)
  · exact .inr hnone

/-- A turn acts on one event at most. -/
theorem Turn.loopEvents_of_mem {s t : Sys} {next : Option Instant} {c : Child}
    {es : List Entry} {out : End AutosshError Flow} (h : Turn s next c es out t) {m : Mark}
    (hm : m ∈ loopEvents es) : loopEvents es = [m] := by
  have hone : ∀ m', loopEvents es = [m'] → loopEvents es = [m] := by
    intro m' heq
    rw [heq, List.mem_singleton] at hm
    rw [heq, hm]
  cases h with
  | expired _ hem hterm => exact hone _ (loopEvents_winding hem hterm rfl)
  | waitFailed => cases hm
  | probeOverflow _ hfails =>
    cases hfails with
    | overflow => cases hm
  | probeOk _ hticks =>
    exact hone (.ticked .probeOk) (by simp [loopEvents, hticks.marks_eq, Mark.isEvent])
  | terminateFailed _ hticks hem hterm =>
    exact hone (.ticked .probeTimeout)
      (by simp [loopEvents, hticks.marks_eq, hem.marks_eq, hterm.marks_eq, Mark.isEvent])
  | lost _ hlost _ hset => exact hone _ (hlost.loopEvents_eq hset)
  | stopped _ _ _ hem hterm => exact hone _ (loopEvents_winding hem hterm rfl)
  | @renewed kind _ _ _ _ _ _ _ _ _ _ _ hem hterm hl =>
    exact hone (.ticked (.signal kind))
      (by simp [loopEvents, hem.marks_eq, hterm.marks_eq, hl.marks_eq, Mark.isEvent])

/-- A launch spawns the record's command line. -/
theorem Launches.spawn_line {s t : Sys} {announced : List SupervisorEvent} {es : List Entry}
    {out : End AutosshError Flow} (h : Launches s announced es out t) {e : Entry} (he : e ∈ es)
    {path : PathBuf} {args : List String} {result : Except IoError UInt32}
    (hact : e.act = .spawned path args result) : path = s.sup.sshPath ∧ args = s.sup.argv := by
  have hcore := mem_core he (by rw [hact]; rfl)
  rw [h.core_eq, List.mem_singleton] at hcore
  rw [hcore] at hact
  obtain ⟨rfl, rfl, -⟩ := Act.spawned.inj hact
  exact ⟨rfl, rfl⟩

/-- Every spawn of a run is given the same command line. -/
theorem RunEnd.spawn_line {s₀ t : Sys} {n : Nat} {out : End AutosshError Flow}
    (h : RunEnd s₀ n out t) (hs : s₀.Fresh) :
    ∀ e ∈ t.world.history, ∀ path args result, e.act = .spawned path args result →
      path = s₀.sup.sshPath ∧ args = s₀.sup.argv := by
  refine h.invariant (fun _ _ es => ∀ e ∈ es, ∀ path args result,
    e.act = .spawned path args result → path = s₀.sup.sshPath ∧ args = s₀.sup.argv)
    (fun hl e he path args result hact => hl.spawn_line he hact)
    (fun hr ih hturn e he path args result hact => ?_) hs
  rcases List.mem_append.mp he with he | he
  · exact ih e he path args result hact
  · rcases hturn.relaunch_cases with hrelaunch | ⟨hnone, -⟩
    · cases hrelaunch with
      | intro hruns hnone _ _ hl =>
        rcases List.mem_append.mp he with he | he
        · exact absurd ⟨path, args, result, hact⟩ (hnone e he)
        · have hsame := Supervisor.agrees_of_config (hruns.config.trans hr.runs.config)
          rw [← hsame.sshPath, ← hsame.argv]
          exact hl.spawn_line he hact
    · exact absurd ⟨path, args, result, hact⟩ (hnone e he)

end RustyAutossh
