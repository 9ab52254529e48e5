import RustyAutossh.Loop.Turn

/-!
# Runs of the loop

A run is a launch followed by turns. `Reaches` and `Finishes` are the runs of the
abstract loop; every execution of the code is one of them, so an invariant of the
turns is an invariant of the code. A run of any length can be suspended anywhere,
and what it has logged by then is part of the log of a finished run.
-/

namespace RustyAutossh

open Async Runtime

/-- The part of the record no function of the loop assigns to. -/
def Supervisor.config (self : Supervisor) : Supervisor :=
  { self with child := none, retryCount := 0, childSpawnInstant := none }

/-- Two records agree on every setting that a turn reads. -/
structure Supervisor.Agrees (sup other : Supervisor) : Prop where
  clock : sup.clock = other.clock
  monitorMode : sup.monitorMode = other.monitorMode
  monitor : sup.monitor = other.monitor
  oneShot : sup.oneShot = other.oneShot
  lifetimeStart : sup.lifetimeStart = other.lifetimeStart
  eventTx : sup.eventTx = other.eventTx
  signalRx : sup.signalRx = other.signalRx
  sshPath : sup.sshPath = other.sshPath
  argv : sup.argv = other.argv

/-- Records of one configuration agree on every setting. -/
theorem Supervisor.agrees_of_config {self other : Supervisor}
    (h : self.config = other.config) : self.Agrees other := by
  simp only [Supervisor.config, Supervisor.mk.injEq, true_and] at h
  constructor <;> simp [Supervisor.argv, h]

/-- A stretch of the run that keeps the configuration and logs the given lines. -/
structure Sys.Runs (s : Sys) (es : List Entry) (t : Sys) : Prop where
  config : t.sup.config = s.sup.config
  target : t.world.target = s.world.target
  spawnResult : t.world.spawnResult = s.world.spawnResult
  history : t.world.history = s.world.history ++ es
  now : s.world.now ≤ t.world.now
  times : ∀ {e : Entry}, e ∈ es → s.world.now ≤ e.time ∧ e.time ≤ t.world.now

theorem Sys.Runs.settings {s t : Sys} {es : List Entry} (h : s.Runs es t) :
    t.sup.Agrees s.sup :=
  Supervisor.agrees_of_config h.config

theorem Sys.Runs.trans {s t u : Sys} {es fs : List Entry} (h : s.Runs es t)
    (h' : t.Runs fs u) : s.Runs (es ++ fs) u where
  config := h'.config.trans h.config
  target := h'.target.trans h.target
  spawnResult := h'.spawnResult.trans h.spawnResult
  history := by rw [h'.history, h.history, List.append_assoc]
  now := le_trans h.now h'.now
  times he := by
    rcases List.mem_append.mp he with he | he
    · exact ⟨(h.times he).1, le_trans (h.times he).2 h'.now⟩
    · exact ⟨le_trans h.now (h'.times he).1, (h'.times he).2⟩

/-- A stretch of the world in which the record keeps its configuration. -/
theorem World.Logs.runs {s t : Sys} {es : List Entry} (h : s.world.Logs es t.world)
    (hconfig : t.sup.config = s.sup.config) : s.Runs es t :=
  ⟨hconfig, h.target, h.spawnResult, h.history, h.now, h.times⟩

theorem Sys.Logs.runs {s t : Sys} {es : List Entry} (h : s.Logs es t) : s.Runs es t :=
  h.world.runs (by rw [h.sup])

theorem Terminates.runs {s t : Sys} {c : Child} {es : List Entry} (h : Terminates s c es t) :
    s.Runs es t :=
  h.world.runs (by rw [h.sup]; rfl)

theorem Sys.runs_mark (s : Sys) (m : Mark) : s.Runs [s.line (.passed m)] (s.mark m) :=
  (s.logs_mark m).runs

/-- A spawn attempt logs one line, whichever way it ends. -/
private theorem Sys.runs_spawn {s t : Sys} {act : Act} (hconfig : t.sup.config = s.sup.config)
    (hhistory : t.world.history = s.world.history ++ [s.line act])
    (hnow : t.world.now = s.world.now) (htarget : t.world.target = s.world.target)
    (hresult : t.world.spawnResult = s.world.spawnResult) : s.Runs [s.line act] t where
  config := hconfig
  target := htarget
  spawnResult := hresult
  history := hhistory
  now := hnow.ge
  times he := by
    rw [List.mem_singleton] at he
    subst he
    exact ⟨le_refl _, hnow.ge⟩

theorem Sys.runs_afterSpawn (s : Sys) (args : List String) (pid : UInt32) :
    s.Runs [s.line (.spawned s.sup.sshPath args (.ok pid))] (s.afterSpawn args pid) :=
  Sys.runs_spawn rfl rfl rfl rfl rfl

theorem Launches.runs {s t : Sys} {announced : List SupervisorEvent} {es : List Entry}
    {out : End AutosshError Flow} (h : Launches s announced es out t) : s.Runs es t := by
  cases h with
  | failed => exact Sys.runs_spawn rfl rfl rfl rfl rfl
  | looping _ hem => exact (s.runs_afterSpawn _ _).trans hem.logs.runs
  | overflow _ hem => exact (s.runs_afterSpawn _ _).trans hem.logs.runs

theorem Lost.runs {s t : Sys} {next : Option Instant} {c : Child} {es : List Entry}
    {outcome : LoopOutcome} {status : ExitStatus} {lifetime : Duration}
    (h : Lost s next c es outcome status lifetime t) : s.Runs es t := by
  cases h with
  | exited hticks hem =>
    have hb := (hticks.logs.runs.trans (Sys.runs_mark _ _)).trans hem.logs.runs
    exact ⟨hb.config, hb.target, hb.spawnResult, hb.history, hb.now, hb.times⟩
  | timedOut hticks hem hterm _ hem' =>
    have := hticks.logs.runs.trans ((Sys.runs_mark _ _).trans
      ((hem.logs.runs.trans hterm.runs).trans hem'.logs.runs))
    exact this

/-- A respawn decision keeps the configuration. -/
theorem Decides.config {self sup : Supervisor} {status : ExitStatus} {lifetime : Duration}
    {decision : RespawnDecision} (h : Decides self status lifetime decision sup) :
    sup.config = self.config := by
  cases h <;> rfl

theorem Decides.runs {s : Sys} {sup : Supervisor} {outcome : LoopOutcome} {status : ExitStatus}
    {lifetime : Duration} {decision : RespawnDecision}
    (h : Decides s.sup status lifetime decision sup) :
    s.Runs [s.line (.passed (.decided outcome status lifetime decision))]
      ({ s with sup := sup }.mark (.decided outcome status lifetime decision)) :=
  World.Logs.runs (s.world.logs_log _) h.config

/-- Terminating the child of a credited record keeps the configuration. -/
theorem Terminates.runs_credit {s t : Sys} {kind : SignalKind} {c : Child} {es : List Entry}
    (h : Terminates { s with sup := s.sup.credit kind } c es t) : s.Runs es t :=
  World.Logs.runs h.world (h.runs.config.trans (by cases kind <;> rfl))

theorem Settles.runs {s t : Sys} {outcome : LoopOutcome} {decision : RespawnDecision}
    {es : List Entry} {out : End AutosshError Flow} (h : Settles s outcome decision es out t) :
    s.Runs es t := by
  cases h with
  | respawn hpass _ hl => exact hpass.runs.trans hl.runs
  | capped hem => exact hem.logs.runs
  | _ => exact (Sys.Logs.refl s).runs

/-- A turn keeps the configuration and logs its lines. -/
theorem Turn.runs {s t : Sys} {next : Option Instant} {c : Child} {es : List Entry}
    {out : End AutosshError Flow} (h : Turn s next c es out t) : s.Runs es t := by
  cases h with
  | expired _ hem hterm =>
    exact (Sys.runs_mark s _).trans (hem.logs.runs.trans hterm.runs)
  | waitFailed _ hpass => exact hpass.runs
  | probeOverflow _ hfails =>
    cases hfails with
    | overflow hpass _ _ _ hprobes => exact (hpass.trans hprobes.logs).runs
  | probeOk _ hticks => exact hticks.logs.runs.trans (Sys.runs_mark _ _)
  | terminateFailed _ hticks hem hterm =>
    exact hticks.logs.runs.trans ((Sys.runs_mark _ _).trans (hem.logs.runs.trans hterm.runs))
  | lost _ hlost hdec hset => exact hlost.runs.trans (hdec.runs.trans hset.runs)
  | stopped _ hticks _ hem hterm =>
    exact hticks.logs.runs.trans ((Sys.runs_mark _ _).trans (hem.logs.runs.trans hterm.runs))
  | renewed _ hticks _ hem hterm hl =>
    exact hticks.logs.runs.trans ((Sys.runs_mark _ _).trans
      ((hem.logs.runs.trans hterm.runs_credit).trans hl.runs))

/-- A child spawned when no process is alive is the only one. -/
private theorem Sys.onlyChild_afterSpawn {s : Sys} (hs : s.world.Still) (args : List String)
    (pid : UInt32) : (s.afterSpawn args pid).world.OnlyChild ⟨s.world.procs.length⟩ where
  last := by simp [Sys.afterSpawn, Sys.spawnedState]
  others := fun {i p} hp hi => by
    have hp : (s.world.procs ++ [{ pid := pid, spawnedAt := s.world.now }])[i]? = some p := hp
    have hlt : i < s.world.procs.length := by
      have := (List.getElem?_eq_some_iff.mp hp).1
      simp only [List.length_append, List.length_singleton] at this
      have hi : i ≠ s.world.procs.length := hi
      omega
    rw [List.getElem?_append_left hlt] at hp
    exact hs p (List.mem_of_getElem? hp)

/-- A successful launch with no process alive is at the top of the loop. -/
theorem Launches.loopTop {s t : Sys} {announced : List SupervisorEvent} {es : List Entry}
    {next : Option Instant} (h : Launches s announced es (.ret (.looping next)) t)
    (hs : s.world.Still) : ∃ c, LoopTop t next c := by
  cases h with
  | @looping pid es t next _ hem hnext =>
    have hchild : (s.afterSpawn s.sup.argv pid).world.procs[s.world.procs.length]? =
        some { pid := pid, spawnedAt := s.world.now } := by
      simp [Sys.afterSpawn, Sys.spawnedState]
    obtain ⟨q, hq, hage⟩ := hem.logs.world.ages hchild
    refine ⟨⟨s.world.procs.length⟩, ?_, ?_, ⟨q, hq, ?_⟩, ?_, fun {u} hu => ?_⟩
    · rw [hem.logs.sup]
      rfl
    · exact hem.logs.world.onlyChild (Sys.onlyChild_afterSpawn hs _ _)
    · rw [hem.logs.sup, hage.spawnedAt]
      rfl
    · unfold Sys.firstProbe at hnext
      split at hnext
      · rename_i hm
        obtain ⟨n, -, rfl⟩ := Option.map_eq_some_iff.mp hnext
        exact hm.symm
      · rename_i hm
        cases hnext
        simpa using hm
    · subst hu
      unfold Sys.firstProbe at hnext
      split at hnext
      · obtain ⟨n, hn, heq⟩ := Option.map_eq_some_iff.mp hnext
        cases heq
        exact Instant.le_or_fits_of_checkedAdd hn
      · cases hnext

/-- Terminating the only child leaves no process alive. -/
theorem Terminates.still {s t : Sys} {c : Child} {es : List Entry} (h : Terminates s c es t)
    (hc : s.world.OnlyChild c) : t.world.Still :=
  (h.world.onlyChild hc).still h.terminated

/-- A tick and the line of its outcome. -/
theorem Ticks.marked {s t : Sys} {next next' : Option Instant} {c : Child} {es : List Entry}
    {outcome : LoopOutcome} (h : Ticks s next c es outcome next' t) :
    s.Logs (es ++ [t.line (.passed (.ticked outcome))]) (t.mark (.ticked outcome)) :=
  h.logs.trans (t.logs_mark _)

/-- A lost child has terminated, so no process is alive. -/
theorem Lost.still {s t : Sys} {next : Option Instant} {c : Child} {es : List Entry}
    {outcome : LoopOutcome} {status : ExitStatus} {lifetime : Duration}
    (h : Lost s next c es outcome status lifetime t) (hc : s.world.OnlyChild c) :
    t.world.Still := by
  cases h with
  | exited hticks hem =>
    cases hticks with
    | exited hpass hex =>
      exact hem.logs.world.still ((hpass.world.onlyChild hc).still hex.terminated)
  | timedOut hticks hem hterm _ hem' =>
    exact hem'.logs.world.still (hterm.still ((hticks.marked.trans hem.logs).world.onlyChild hc))

/-- An end of the run: it has returned or failed. -/
def IsClosed : End AutosshError Flow → Prop
  | .ret .returned => True
  | .fail _ => True
  | _ => False

instance : DecidablePred IsClosed := fun out =>
  match out with
  | .ret .returned => .isTrue trivial
  | .ret (.looping _) => .isFalse id
  | .fail _ => .isTrue trivial
  | .abort => .isFalse id
  | .pending => .isFalse id

/-- A launch that ends the run leaves no process alive if none was. -/
theorem Launches.still {s t : Sys} {announced : List SupervisorEvent} {es : List Entry}
    {out : End AutosshError Flow} (h : Launches s announced es out t) (hs : s.world.Still)
    (hclosed : IsClosed out) : t.world.Still := by
  cases h with
  | failed => exact hs
  | looping => exact hclosed.elim
  | overflow => exact hclosed.elim

/-- A settled loss is at the top of the loop again, or ends with no process alive. -/
private theorem Settles.outcome {s t : Sys} {outcome : LoopOutcome} {decision : RespawnDecision}
    {es : List Entry} {out : End AutosshError Flow} (h : Settles s outcome decision es out t)
    (hs : s.world.Still) :
    (∀ next, out = .ret (.looping next) → ∃ c, LoopTop t next c) ∧
      (IsClosed out → t.world.Still) := by
  cases h with
  | respawn hpass _ hl =>
    have hs' := hpass.world.still hs
    refine ⟨?_, hl.still hs'⟩
    rintro next rfl
    exact hl.loopTop hs'
  | capped hem => exact ⟨by simp, fun _ => hem.logs.world.still hs⟩
  | _ => exact ⟨by simp, fun _ => hs⟩

/-- A tick that probed re-arms the timer. -/
private theorem Ticks.probeOk_loopTop {s t : Sys} {next next' : Option Instant} {c : Child}
    {es : List Entry} (h : Ticks s next c es .probeOk next' t) (htop : LoopTop s next c) :
    LoopTop t next' c := by
  have hlogs := h.logs
  obtain ⟨p, hp, hspawned⟩ := htop.spawned
  obtain ⟨q, hq, hage⟩ := hlogs.world.ages hp
  cases h with
  | probed hpass halive hdue hm hprobes hn =>
    refine ⟨?_, hlogs.world.onlyChild htop.only, ⟨q, hq, ?_⟩, ?_, ?_⟩
    · rw [hlogs.sup, htop.child]
    · rw [hlogs.sup, hspawned, hage.spawnedAt]
    · rw [hlogs.sup, hm]
      rfl
    · rintro u hu
      cases hu
      exact Instant.le_or_fits_of_checkedAdd hn

/-- A turn ends at the top of the loop, or the run is over and no process is alive. -/
theorem Turn.outcome {s t : Sys} {next : Option Instant} {c : Child} {es : List Entry}
    {out : End AutosshError Flow} (h : Turn s next c es out t) (htop : LoopTop s next c) :
    (∀ next', out = .ret (.looping next') → ∃ c', LoopTop t next' c') ∧
      (IsClosed out → t.world.Still) := by
  cases h with
  | expired _ hem hterm =>
    have honly := ((s.logs_mark .expired).trans hem.logs).world.onlyChild htop.only
    exact ⟨by simp, fun _ => hterm.still honly⟩
  | waitFailed _ hpass hterm =>
    exact ⟨by simp, fun _ => (hpass.world.onlyChild htop.only).still hterm⟩
  | probeOverflow => exact ⟨by simp, fun h => h.elim⟩
  | probeOk _ hticks =>
    refine ⟨?_, fun h => h.elim⟩
    rintro next' ⟨⟩
    obtain ⟨hchild, honly, hspawned, harmed, hfits⟩ := hticks.probeOk_loopTop htop
    exact ⟨c, hchild, ⟨honly.last, honly.others⟩, hspawned, harmed, hfits⟩
  | terminateFailed _ hticks hem hterm =>
    have honly := (hticks.marked.trans hem.logs).world.onlyChild htop.only
    exact ⟨by simp, fun _ => hterm.still honly⟩
  | lost _ hlost _ hset => exact hset.outcome (hlost.still htop.only)
  | stopped _ hticks _ hem hterm =>
    have honly := (hticks.marked.trans hem.logs).world.onlyChild htop.only
    exact ⟨by simp, fun _ => hterm.still honly⟩
  | renewed _ hticks _ hem hterm hl =>
    have honly := (hticks.marked.trans hem.logs).world.onlyChild htop.only
    have hstill := hterm.still honly
    refine ⟨?_, hl.still hstill⟩
    rintro next' rfl
    exact hl.loopTop hstill

/-- A supervisor that has not spawned anything, whose log is empty. -/
structure Sys.Fresh (s : Sys) : Prop where
  child : s.sup.child = none
  procs : s.world.procs = []
  history : s.world.history = []

/-- A host on which every system call succeeds, with nothing spawned and nothing queued. -/
def World.initial (os : Target) : World where
  target := os
  now := 0
  wallClock := some 0
  spawnResult n := .ok (UInt32.ofNat (n + 1))
  waitError _ := none
  killError _ := none

/-- A supervisor as it is first run, without a monitor, an event sender or a deadline. -/
def Supervisor.initial : Supervisor where
  child := none
  monitor := none
  clock := .default
  monitorMode := .none
  sshPath := .utf8 "ssh"
  sshArgs := []
  retryCount := 0
  lifetimeStart := 0
  childSpawnInstant := none
  eventTx := none
  signalRx := some {}
  oneShot := false

theorem Sys.fresh_initial (sup : Supervisor) (os : Target) (h : sup.child = none) :
    (Sys.mk sup (.initial os)).Fresh :=
  ⟨h, rfl, rfl⟩

theorem Sys.Fresh.still {s : Sys} (h : s.Fresh) : s.world.Still := by
  simp [World.Still, h.procs]

/-- The states at the top of the loop after a number of turns, with the lines logged. -/
inductive Reaches (s₀ : Sys) : Nat → List Entry → Sys → Option Instant → Child → Prop
  | start {es : List Entry} {t : Sys} {next : Option Instant} {c : Child} :
      Launches s₀ [] es (.ret (.looping next)) t → LoopTop t next c →
      Reaches s₀ 0 es t next c
  | turn {n : Nat} {es fs : List Entry} {s t : Sys} {next next' : Option Instant}
      {c c' : Child} : Reaches s₀ n es s next c →
      Turn s next c fs (.ret (.looping next')) t → LoopTop t next' c' →
      Reaches s₀ (n + 1) (es ++ fs) t next' c'

/-- The ends of the run after a number of turns, with the lines logged. -/
inductive Finishes (s₀ : Sys) : Nat → List Entry → End AutosshError Flow → Sys → Prop
  | start {es : List Entry} {t : Sys} {out : End AutosshError Flow} :
      Launches s₀ [] es out t → (∀ next, out ≠ .ret (.looping next)) →
      Finishes s₀ 0 es out t
  | turn {n : Nat} {es fs : List Entry} {s t : Sys} {next : Option Instant} {c : Child}
      {out : End AutosshError Flow} : Reaches s₀ n es s next c → Turn s next c fs out t →
      (∀ next', out ≠ .ret (.looping next')) → Finishes s₀ (n + 1) (es ++ fs) out t

theorem Reaches.loopTop {s₀ s : Sys} {n : Nat} {es : List Entry} {next : Option Instant}
    {c : Child} (h : Reaches s₀ n es s next c) : LoopTop s next c := by
  cases h with
  | start _ htop => exact htop
  | turn _ _ htop => exact htop

theorem Reaches.runs {s₀ s : Sys} {n : Nat} {es : List Entry} {next : Option Instant}
    {c : Child} (h : Reaches s₀ n es s next c) : s₀.Runs es s := by
  induction h with
  | start hl => exact hl.runs
  | turn _ hturn _ ih => exact ih.trans hturn.runs

theorem Finishes.runs {s₀ s : Sys} {n : Nat} {es : List Entry} {out : End AutosshError Flow}
    (h : Finishes s₀ n es out s) : s₀.Runs es s := by
  cases h with
  | start hl => exact hl.runs
  | turn hr hturn => exact hr.runs.trans hturn.runs

/-- The end of a run leaves no process alive. -/
theorem Finishes.still {s₀ s : Sys} {n : Nat} {es : List Entry} {out : End AutosshError Flow}
    (h : Finishes s₀ n es out s) (hs : s₀.world.Still) (hclosed : IsClosed out) :
    s.world.Still := by
  cases h with
  | start hl => exact hl.still hs hclosed
  | turn hr hturn => exact (hturn.outcome hr.loopTop).2 hclosed

/-- What an execution of the first `n` turns ends in: the top of the loop after all of
them, or the end of the run after some of them. -/
inductive RunEnd (s₀ : Sys) (n : Nat) : End AutosshError Flow → Sys → Prop
  | looping {es : List Entry} {t : Sys} {next : Option Instant} {c : Child} :
      Reaches s₀ n es t next c → RunEnd s₀ n (.ret (.looping next)) t
  | closed {m : Nat} {es : List Entry} {out : End AutosshError Flow} {t : Sys} :
      m ≤ n → Finishes s₀ m es out t → RunEnd s₀ n out t

/-- An execution that goes on has come to the top of the loop after its last turn. -/
theorem RunEnd.reaches {s₀ t : Sys} {n : Nat} {next : Option Instant}
    (h : RunEnd s₀ n (.ret (.looping next)) t) : ∃ es c, Reaches s₀ n es t next c := by
  cases h with
  | looping hr => exact ⟨_, _, hr⟩
  | closed _ hfin =>
    cases hfin with
    | start _ hne => exact absurd rfl (hne next)
    | turn _ _ hne => exact absurd rfl (hne next)

/-- A fresh supervisor has logged nothing before its run. -/
theorem Sys.Runs.history_of_fresh {s₀ s : Sys} {es : List Entry} (h : s₀.Runs es s)
    (hs : s₀.Fresh) : s.world.history = es := by
  rw [h.history, hs.history, List.nil_append]

section Invariant

variable {s₀ : Sys} (P : End AutosshError Flow → Sys → List Entry → Prop)
  (start : ∀ {es out t}, Launches s₀ [] es out t → P out t es)
  (turn : ∀ {m es fs s t next c out}, Reaches s₀ m es s next c →
    P (.ret (.looping next)) s es → Turn s next c fs out t → P out t (es ++ fs))

include start turn

/-- What the launch gives and every turn preserves holds at every top of the loop. -/
theorem Reaches.invariant {s : Sys} {n : Nat} {es : List Entry} {next : Option Instant}
    {c : Child} (h : Reaches s₀ n es s next c) : P (.ret (.looping next)) s es := by
  induction h with
  | start hl => exact start hl
  | turn hr hturn _ ih => exact turn hr ih hturn

/-- What the launch gives and every turn preserves holds at the end of the run. -/
theorem RunEnd.invariant {t : Sys} {n : Nat} {out : End AutosshError Flow}
    (h : RunEnd s₀ n out t) (hs : s₀.Fresh) : P out t t.world.history := by
  cases h with
  | looping hr =>
    rw [hr.runs.history_of_fresh hs]
    exact hr.invariant P start turn
  | closed _ hfin =>
    rw [hfin.runs.history_of_fresh hs]
    cases hfin with
    | start hl => exact start hl
    | turn hr hturn => exact turn hr (hr.invariant P start turn) hturn

end Invariant

/-- A run that has returned or failed leaves no process alive. -/
theorem RunEnd.still {s₀ t : Sys} {n : Nat} {out : End AutosshError Flow}
    (h : RunEnd s₀ n out t) (hs : s₀.world.Still) (hclosed : IsClosed out) : t.world.Still := by
  cases h with
  | looping => exact hclosed.elim
  | closed _ hfin => exact hfin.still hs hclosed

/-- Every finished execution of the code is a run. -/
theorem wp_runFor {s₀ : Sys} (hs : s₀.world.Still) (n : Nat) :
    host.wp (endsIn (RunEnd s₀ n)) (runFor n) s₀ := by
  induction n with
  | zero =>
    refine wp_startUp fun es out t hl => ?_
    by_cases hloop : ∃ next, out = .ret (.looping next)
    · obtain ⟨next, rfl⟩ := hloop
      obtain ⟨c, htop⟩ := hl.loopTop hs
      exact .looping (.start hl htop)
    · exact .closed (le_refl 0) (.start hl fun next heq => hloop ⟨next, heq⟩)
  | succ n ih =>
    rw [runFor, wp_bind]
    refine wp_mono (fun flow t ht => ?_) (fun e t ht => ?_) (fun t ht => ?_) ih
    · cases flow with
      | looping next =>
        obtain ⟨fs, c, hr⟩ := ht.reaches
        refine wp_turn hr.loopTop fun es out u hturn => ?_
        by_cases hloop : ∃ next, out = .ret (.looping next)
        · obtain ⟨next, rfl⟩ := hloop
          obtain ⟨c, htop⟩ := (hturn.outcome hr.loopTop).1 next rfl
          exact .looping (.turn hr hturn htop)
        · exact .closed (le_refl _) (.turn hr hturn fun next heq => hloop ⟨next, heq⟩)
      | returned =>
        cases ht with
        | closed hle hfin => exact .closed (by omega) hfin
    · cases ht with
      | closed hle hfin => exact .closed (by omega) hfin
    · cases ht with
      | closed hle hfin => exact .closed (by omega) hfin

/-- The execution of the first `n` turns of `Supervisor::run` over a script. -/
def execute (n : Nat) (script : List (List Event)) (s₀ : Sys) :
    Outcome AutosshError Flow Sys (List Event) :=
  host.drive (runFor n) script s₀

/-- The run an execution of the code is, once it has ended. -/
theorem runEnd_of_execute {s₀ : Sys} (hs : s₀.world.Still) {n : Nat}
    {script : List (List Event)} (hend : (execute n script s₀).out ≠ .pending) :
    RunEnd s₀ n (execute n script s₀).out (execute n script s₀).state :=
  of_holds_endsIn (wp_sound (wp_runFor hs n) script) hend

/-- One turn more, from the top of the loop if the execution has come to it. -/
theorem execute_succ (n : Nat) (script : List (List Event)) (s₀ : Sys) :
    (∀ {next top rest}, execute n script s₀ = ⟨.ret (.looping next), top, rest⟩ →
      execute (n + 1) script s₀ = host.drive (turn next) rest top) ∧
    ((∀ next, (execute n script s₀).out ≠ .ret (.looping next)) →
      execute (n + 1) script s₀ = execute n script s₀) := by
  have hsucc : execute (n + 1) script s₀ = host.drive (runFor (n + 1)) script s₀ := rfl
  rw [hsucc, runFor, drive_bind]
  refine ⟨fun h => ?_, fun hne => ?_⟩
  · rw [show host.drive (runFor n) script s₀ = _ from h]
  · rw [execute] at hne ⊢
    rcases hdrive : host.drive (runFor n) script s₀ with ⟨out, t, rest⟩
    rw [hdrive] at hne
    cases out with
    | ret flow =>
      cases flow with
      | looping next => exact absurd rfl (hne next)
      | returned => rfl
    | _ => rfl

/-- An execution that is not at the top of the loop has come to its end. -/
theorem execute_of_le {n m : Nat} {script : List (List Event)} {s₀ : Sys} (hle : n ≤ m)
    (hne : ∀ next, (execute n script s₀).out ≠ .ret (.looping next)) :
    execute m script s₀ = execute n script s₀ := by
  induction m, hle using Nat.le_induction with
  | base => rfl
  | succ m _ ih => rw [(execute_succ m script s₀).2 (by rw [ih]; exact hne), ih]

/-- An execution that goes on is at a top of the loop of a run. -/
theorem reaches_of_looping {s₀ : Sys} (hs : s₀.world.Still) {n : Nat}
    {script : List (List Event)} {next : Option Instant}
    (h : (execute n script s₀).out = .ret (.looping next)) :
    ∃ es c, Reaches s₀ n es (execute n script s₀).state next c := by
  have hend : (execute n script s₀).out ≠ .pending := by
    rw [h]
    simp
  have hrun := runEnd_of_execute hs hend
  rw [h] at hrun
  exact hrun.reaches

/-- A top of the loop that an execution comes to after some turns is one of a run. -/
theorem reaches_of_execute {s₀ top : Sys} (hs : s₀.world.Still) {n : Nat}
    {script rest : List (List Event)} {next : Option Instant}
    (h : execute n script s₀ = ⟨.ret (.looping next), top, rest⟩) :
    ∃ es c, Reaches s₀ n es top next c := by
  obtain ⟨es, c, hr⟩ := reaches_of_looping hs (congrArg Outcome.out h)
  rw [h] at hr
  exact ⟨es, c, hr⟩

/-- Starting up to the end is a launch. -/
theorem launches_of_drive {s₀ : Sys} {script : List (List Event)}
    (hend : (host.drive startUp script s₀).out ≠ .pending) :
    ∃ es, Launches s₀ [] es (host.drive startUp script s₀).out
      (host.drive startUp script s₀).state := by
  have hlaunch : host.wp (endsIn fun out t => ∃ es, Launches s₀ [] es out t) startUp s₀ :=
    wp_startUp fun es _ _ hl => ⟨es, hl⟩
  exact of_holds_endsIn (wp_sound hlaunch script) hend

/-- Making a turn of the code to the end is making one of the abstract loop. -/
theorem LoopTop.turn_of_drive {s : Sys} {next : Option Instant} {c : Child}
    (htop : LoopTop s next c) {script : List (List Event)}
    (hend : (host.drive (turn next) script s).out ≠ .pending) :
    ∃ fs, Turn s next c fs (host.drive (turn next) script s).out
      (host.drive (turn next) script s).state := by
  have hturn : host.wp (endsIn fun out t => ∃ fs, Turn s next c fs out t) (turn next) s :=
    wp_turn htop fun fs _ _ h => ⟨fs, h⟩
  exact of_holds_endsIn (wp_sound hturn script) hend

/-- The turn that an execution makes from the top of the loop. -/
theorem turn_of_execute {s₀ top : Sys} (hs : s₀.world.Still) {n : Nat}
    {script rest : List (List Event)} {next : Option Instant}
    (htop : execute n script s₀ = ⟨.ret (.looping next), top, rest⟩)
    (hend : (execute (n + 1) script s₀).out ≠ .pending) :
    ∃ es c fs, Reaches s₀ n es top next c ∧
      Turn top next c fs (execute (n + 1) script s₀).out (execute (n + 1) script s₀).state := by
  obtain ⟨es, c, hr⟩ := reaches_of_execute hs htop
  rw [(execute_succ n script s₀).1 htop] at hend ⊢
  obtain ⟨fs, hfs⟩ := hr.loopTop.turn_of_drive hend
  exact ⟨es, c, fs, hr, hfs⟩

/-- The last step of an execution is the launch, or a turn from its last top of the loop. -/
theorem execute_cases (n : Nat) (script : List (List Event)) (s₀ : Sys) :
    execute n script s₀ = host.drive startUp script s₀ ∨
      ∃ m next top rest, m < n ∧ execute m script s₀ = ⟨.ret (.looping next), top, rest⟩ ∧
        execute n script s₀ = host.drive (turn next) rest top := by
  induction n with
  | zero => exact .inl rfl
  | succ n ih =>
    by_cases hloop : ∃ next, (execute n script s₀).out = .ret (.looping next)
    · obtain ⟨next, hnext⟩ := hloop
      have htop : execute n script s₀ =
          ⟨.ret (.looping next), (execute n script s₀).state, (execute n script s₀).rest⟩ := by
        rw [← hnext]
      exact .inr ⟨n, next, _, _, Nat.lt_succ_self n, htop, (execute_succ n script s₀).1 htop⟩
    · rw [(execute_succ n script s₀).2 fun next h => hloop ⟨next, h⟩]
      rcases ih with hstart | ⟨m, next, top, rest, hlt, hlast⟩
      · exact .inl hstart
      · exact .inr ⟨m, next, top, rest, Nat.lt_succ_of_lt hlt, hlast⟩

/-- The last step of an execution that has come to its end: the launch, or a turn from the
last top of the loop. -/
theorem execute_last {s₀ : Sys} (hs : s₀.world.Still) {n : Nat} {script : List (List Event)}
    (hend : (execute n script s₀).out ≠ .pending) :
    (∃ es, Launches s₀ [] es (execute n script s₀).out (execute n script s₀).state) ∨
      ∃ m next top rest es c fs, m < n ∧
        execute m script s₀ = ⟨.ret (.looping next), top, rest⟩ ∧ Reaches s₀ m es top next c ∧
        Turn top next c fs (execute n script s₀).out (execute n script s₀).state := by
  rcases execute_cases n script s₀ with hstart | ⟨m, next, top, rest, hlt, htop, hturn⟩
  · rw [hstart] at hend ⊢
    exact .inl (launches_of_drive hend)
  · obtain ⟨es, c, hr⟩ := reaches_of_execute hs htop
    rw [hturn] at hend ⊢
    obtain ⟨fs, hfs⟩ := hr.loopTop.turn_of_drive hend
    exact .inr ⟨m, next, top, rest, es, c, fs, hlt, htop, hr, hfs⟩

/-- From the deadline on the lifetime check finds it passed. -/
theorem Reaches.expired {s₀ s : Sys} {n : Nat} {es : List Entry}
    {next : Option Instant} {c : Child} (h : Reaches s₀ n es s next c) {d : Duration}
    (hd : s₀.sup.clock.maxLifetime = some d)
    (hle : s₀.sup.lifetimeStart + d ≤ s.world.now) : s.Expired := by
  have hclock := h.runs.settings.clock
  have hstart := h.runs.settings.lifetimeStart
  refine Supervisor.checkLifetime_eq_some.mpr ⟨d, hclock ▸ hd, ?_⟩
  rw [hstart]
  exact Nat.le_sub_of_add_le (Nat.add_comm _ d ▸ hle)

end RustyAutossh
