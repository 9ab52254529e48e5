import RustyAutossh.Loop.Core

/-!
# The processes of a run

A stretch of a run ages the processes there are and appends one for each spawn it logs
as successful; no process is ever taken away.
-/

namespace RustyAutossh

open Async Runtime

/-- Whether an action is a spawn that succeeded. -/
def Act.isSpawned : Act → Bool
  | .spawned _ _ (.ok _) => true
  | _ => false

/-- The number of processes spawned in a stretch. -/
def spawned (es : List Entry) : Nat := es.countP (·.act.isSpawned)

@[simp] theorem spawned_append (es fs : List Entry) :
    spawned (es ++ fs) = spawned es + spawned fs :=
  List.countP_append

theorem spawned_core (es : List Entry) : spawned (core es) = spawned es :=
  countP_core (fun act h => by cases act <;> simp_all [Act.isSpawned, Act.isCore]) es

theorem spawned_eq_zero {es : List Entry} (h : ∀ e ∈ es, ¬ e.IsSpawn) : spawned es = 0 := by
  rw [spawned, List.countP_eq_zero]
  intro e he hspawned
  refine h e he ?_
  cases hact : e.act with
  | spawned path args result => exact ⟨path, args, result, hact⟩
  | _ => simp [hact, Act.isSpawned] at hspawned

/-- The processes after a stretch: those there were, aged, and those it spawned. -/
structure Sys.Grew (s : Sys) (es : List Entry) (t : Sys) : Prop where
  ages : ∀ {i : Nat} {p : Proc}, s.world.procs[i]? = some p →
    ∃ q, t.world.procs[i]? = some q ∧ p.Ages q
  length : t.world.procs.length = s.world.procs.length + spawned es

theorem Sys.Grew.trans {s t u : Sys} {es fs : List Entry} (h : s.Grew es t) (h' : t.Grew fs u) :
    s.Grew (es ++ fs) u where
  ages hp := by
    obtain ⟨q, hq, hpq⟩ := h.ages hp
    obtain ⟨r, hr, hqr⟩ := h'.ages hq
    exact ⟨r, hr, hpq.trans hqr⟩
  length := by rw [h'.length, h.length, spawned_append, Nat.add_assoc]

theorem Sys.Grew.exitedWith {s t : Sys} {es : List Entry} (h : s.Grew es t) {c : Child}
    {status : ExitStatus} (hc : s.world.ExitedWith c status) : t.world.ExitedWith c status := by
  obtain ⟨p, hp, hs⟩ := hc
  obtain ⟨q, hq, hage⟩ := h.ages hp
  exact ⟨q, hq, hage.status hs⟩

/-- A stretch that logs no spawn spawns nothing. -/
theorem World.Logs.grew {s t : Sys} {es : List Entry} (h : s.world.Logs es t.world)
    (hes : spawned es = 0) : s.Grew es t :=
  ⟨h.ages, by rw [h.length, hes, Nat.add_zero]⟩

theorem Sys.grew_mark (s : Sys) (m : Mark) : s.Grew [s.line (.passed m)] (s.mark m) :=
  (s.logs_mark m).world.grew rfl

theorem Sys.Passes.grew {s t : Sys} (h : s.Passes t) : s.Grew [] t := h.world.grew rfl

theorem Emitted.grew {s t : Sys} {evs : List SupervisorEvent} {es : List Entry}
    (h : Emitted s evs es t) : s.Grew es t :=
  h.logs.world.grew (by rw [← spawned_core, h.core_eq]; rfl)

theorem Terminates.grew {s t : Sys} {c : Child} {es : List Entry} (h : Terminates s c es t) :
    s.Grew es t :=
  h.world.grew (by rw [← spawned_core, h.core_eq]; rfl)

theorem Ticks.grew {s t : Sys} {next next' : Option Instant} {c : Child} {es : List Entry}
    {outcome : LoopOutcome} (h : Ticks s next c es outcome next' t) : s.Grew es t :=
  h.logs.world.grew (spawned_eq_zero h.not_isSpawn)

theorem Launches.grew {s t : Sys} {announced : List SupervisorEvent} {es : List Entry}
    {out : End AutosshError Flow} (h : Launches s announced es out t) : s.Grew es t := by
  have hspawn : ∀ pid, s.Grew [s.line (.spawned s.sup.sshPath s.sup.argv (.ok pid))]
      (s.afterSpawn s.sup.argv pid) := by
    intro pid
    refine ⟨fun {i p} hp => ⟨p, ?_, .refl p⟩, by simp [Sys.afterSpawn, Sys.spawnedState]; rfl⟩
    obtain ⟨hlt, -⟩ := List.getElem?_eq_some_iff.mp hp
    exact (List.getElem?_append_left hlt).trans hp
  cases h with
  | failed => exact ⟨fun {_ p} hp => ⟨p, hp, .refl p⟩, rfl⟩
  | looping _ hem => exact (hspawn _).trans hem.grew
  | overflow _ hem => exact (hspawn _).trans hem.grew

theorem Lost.grew {s t : Sys} {next : Option Instant} {c : Child} {es : List Entry}
    {outcome : LoopOutcome} {status : ExitStatus} {lifetime : Duration}
    (h : Lost s next c es outcome status lifetime t) : s.Grew es t := by
  cases h with
  | exited hticks hem =>
    have hb := hticks.grew.trans ((Sys.grew_mark _ _).trans hem.grew)
    exact ⟨hb.ages, hb.length⟩
  | timedOut hticks hem hterm _ hem' =>
    exact hticks.grew.trans ((Sys.grew_mark _ _).trans
      ((hem.grew.trans hterm.grew).trans hem'.grew))

theorem Settles.grew {s t : Sys} {outcome : LoopOutcome} {decision : RespawnDecision}
    {es : List Entry} {out : End AutosshError Flow} (h : Settles s outcome decision es out t) :
    s.Grew es t := by
  cases h with
  | respawn hpass _ hl => exact hpass.grew.trans hl.grew
  | capped hem => exact hem.grew
  | _ => exact (Sys.Logs.refl s).world.grew rfl

/-- A turn ages the processes there are and spawns those it logs. -/
theorem Turn.grew {s t : Sys} {next : Option Instant} {c : Child} {es : List Entry}
    {out : End AutosshError Flow} (h : Turn s next c es out t) : s.Grew es t := by
  cases h with
  | expired _ hem hterm => exact (Sys.grew_mark _ _).trans (hem.grew.trans hterm.grew)
  | waitFailed _ hpass => exact hpass.grew
  | probeOverflow _ hfails =>
    cases hfails with
    | overflow hpass _ _ _ hprobes => exact (hpass.trans hprobes.logs).world.grew rfl
  | probeOk _ hticks => exact hticks.grew.trans (Sys.grew_mark _ _)
  | terminateFailed _ hticks hem hterm =>
    exact hticks.grew.trans ((Sys.grew_mark _ _).trans (hem.grew.trans hterm.grew))
  | @lost es fs outcome status lifetime a t decision sup out _ hlost hdec hset =>
    have hmark : a.Grew [a.line (.passed (.decided outcome status lifetime decision))]
        ({ a with sup := sup }.mark (.decided outcome status lifetime decision)) :=
      (a.world.logs_log _).grew rfl
    exact hlost.grew.trans (hmark.trans hset.grew)
  | stopped _ hticks _ hem hterm =>
    exact hticks.grew.trans ((Sys.grew_mark _ _).trans (hem.grew.trans hterm.grew))
  | @renewed kind es fs gs a b d t out _ hticks _ hem hterm hl =>
    have hcredit : b.Grew fs d := ⟨hterm.grew.ages, hterm.grew.length⟩
    exact hticks.grew.trans ((Sys.grew_mark _ _).trans ((hem.grew.trans hcredit).trans hl.grew))

end RustyAutossh
