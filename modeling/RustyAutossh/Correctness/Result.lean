import RustyAutossh.Correctness.Retry

/-!
# What the result of a run says

A run that returns is over because of the last thing its loop acted on. A clean end, a
request to stop and the deadline make it `Ok`, a failure that is not followed by a new
child makes it an error. One arm breaks this: after a failed probe the catch-all arm
turns the one-shot failure into `Ok`.
-/

namespace RustyAutossh

open Async Tally

/-- A child lost to a non-zero exit or to a failed probe. -/
inductive Mark.IsFailure : Mark → Prop
  | exited (status : ExitStatus) (lifetime : Duration) : status.success = false →
      IsFailure (.ticked (.childExited status lifetime))
  | timedOut : IsFailure (.ticked .probeTimeout)

/-- What a run is meant to end well on. -/
inductive Mark.IsCleanEnd (mode : MonitorMode) : Mark → Prop
  | finished (status : ExitStatus) (lifetime : Duration) : status.success = true →
      mode = .none → IsCleanEnd mode (.ticked (.childExited status lifetime))
  | stopped (kind : SignalKind) : kind.stops = true → IsCleanEnd mode (.ticked (.signal kind))
  | expired : IsCleanEnd mode .expired

/-- The last point passed was a short failure, and made the counter reach the cap. -/
def Supervisor.ReachedCap (self : Supervisor) (es : List Entry) : Prop :=
  ∃ cap, self.clock.maxStart = some cap ∧ (self.weights es).getLast? = some .count ∧
    cap.toNat ≤ (self.weights es).foldl (saturatingStep retryBound) self.retryCount.toNat

/-- A line that logs a failure. -/
def Entry.IsFailure (e : Entry) : Prop := ∃ m, e.act = .passed m ∧ m.IsFailure

/-- What the result of a run promises about its log. -/
structure ResultContract (sup : Supervisor) (out : End AutosshError Flow) (es : List Entry) :
    Prop where
  ok : out = .ret .returned ↔
    ∃ m, (loopEvents es).getLast? = some m ∧ m.IsCleanEnd sup.monitorMode
  failed : (∃ a, out = .fail (.maxStartReached a)) ↔
    (∃ m, (loopEvents es).getLast? = some m ∧ m.IsFailure) ∧
      (sup.oneShot = true ∨ sup.ReachedCap es)
  oneShot : sup.oneShot = true →
    es.Pairwise (fun e e' => e.IsFailure → ¬ e'.IsSpawn) ∧
      ((∃ e ∈ es, e.IsFailure) → out ≠ .ret .returned)

theorem Mark.IsCleanEnd.not_isFailure {m : Mark} {mode : MonitorMode} (h : m.IsCleanEnd mode) :
    ¬ m.IsFailure := by
  cases h with
  | finished status lifetime hs =>
    intro hf
    cases hf with
    | exited _ _ hf => simp [hs] at hf
  | stopped => exact fun hf => by cases hf
  | expired => exact fun hf => by cases hf

/-- A failure that was logged is among the events. -/
theorem Entry.IsFailure.mem_loopEvents {e : Entry} {es : List Entry} (h : e.IsFailure)
    (he : e ∈ es) : ∃ m ∈ loopEvents es, m.IsFailure := by
  obtain ⟨m, hact, hfail⟩ := h
  refine ⟨m, List.mem_filter.mpr ⟨mem_marks he hact, ?_⟩, hfail⟩
  cases hfail <;> rfl

/-- How a turn that returns or fails at the cap or as one-shot ends, from what it acted on. -/
inductive TurnResult (self : Supervisor) (m : Mark) : End AutosshError Flow → Prop
  | clean : m.IsCleanEnd self.monitorMode → TurnResult self m (.ret .returned)
  | capped (a : UInt32) : m.IsFailure → self.oneShot = false →
      TurnResult self m (.fail (.maxStartReached a))
  | oneShot : m.IsFailure → self.oneShot = true → m ≠ .ticked .probeTimeout →
      TurnResult self m (.fail (.maxStartReached 1))
  | swallowed : m = .ticked .probeTimeout → self.oneShot = true →
      TurnResult self m (.ret .returned)

/-- The end of a turn that neither goes on, nor fails with an I/O error, nor panics. -/
def IsResult (out : End AutosshError Flow) : Prop :=
  IsClosed out ∧ ∀ e, out ≠ .fail (.io e)

theorem Launches.not_isResult {s t : Sys} {announced : List SupervisorEvent} {es : List Entry}
    {out : End AutosshError Flow} (h : Launches s announced es out t) : ¬ IsResult out := by
  rintro ⟨hclosed, hio⟩
  cases h with
  | failed => exact hio _ rfl
  | looping => exact hclosed
  | overflow => exact hclosed

/-- A turn that ends a run acts on one event, which its result tells. -/
theorem Turn.result {s t : Sys} {next : Option Instant} {c : Child} {es : List Entry}
    {out : End AutosshError Flow} (h : Turn s next c es out t) (hout : IsResult out) :
    ∃ m, loopEvents es = [m] ∧ TurnResult s.sup m out := by
  cases h with
  | expired _ hem hterm => exact ⟨_, loopEvents_winding hem hterm rfl, .clean .expired⟩
  | waitFailed => exact absurd rfl (hout.2 _)
  | probeOverflow => exact hout.1.elim
  | probeOk => exact hout.1.elim
  | terminateFailed => exact absurd rfl (hout.2 _)
  | @lost es fs outcome status lifetime a t decision sup out _ hlost hdec hset =>
    have hmode := hlost.runs.settings.monitorMode
    have hone := hlost.runs.settings.oneShot
    refine ⟨.ticked outcome, ?_, ?_⟩
    · exact hlost.loopEvents_eq hset
    · have hfailure : status.success = false → (Mark.ticked outcome).IsFailure := by
        intro hs
        rcases hlost.cause with rfl | ⟨rfl, -⟩
        · exact .exited status lifetime hs
        · exact .timedOut
      cases hset with
      | respawn _ _ hl => exact absurd hout hl.not_isResult
      | finished =>
        cases hdec with
        | finished hs hm =>
          rcases hlost.cause with rfl | ⟨-, hf⟩
          · exact .clean (.finished status lifetime hs (hmode ▸ hm))
          · simp [hs] at hf
      | capped =>
        cases hdec with
        | capped cap hone' hs => exact .capped _ (hfailure hs) (hone ▸ hone')
      | oneShotExit hne =>
        cases hdec with
        | oneShot hone' hs =>
          exact .oneShot (hfailure hs) (hone ▸ hone') fun heq => hne (Mark.ticked.inj heq)
      | oneShotTimeout heq =>
        cases hdec with
        | oneShot hone' => exact .swallowed (congrArg Mark.ticked heq) (hone ▸ hone')
  | stopped _ _ hstops hem hterm =>
    exact ⟨_, loopEvents_winding hem hterm rfl, .clean (.stopped _ hstops)⟩
  | renewed _ _ _ _ _ hl => exact absurd hout hl.not_isResult

/-- Under one-shot, a turn that loses its child to a failure spawns nothing and ends the run. -/
private theorem Turn.oneShot_cases {s t : Sys} {next : Option Instant} {c : Child}
    {es : List Entry} {out : End AutosshError Flow} (h : Turn s next c es out t)
    (hone : s.sup.oneShot = true) :
    (∀ e ∈ es, ¬ e.IsFailure) ∨
      (∀ next', out ≠ .ret (.looping next')) ∧ ∀ e ∈ es, ¬ e.IsSpawn := by
  have hevent : ∀ m, loopEvents es = [m] → ¬ m.IsFailure → ∀ e ∈ es, ¬ e.IsFailure := by
    intro m heq hm e he hfail
    obtain ⟨m', hmem, hf⟩ := hfail.mem_loopEvents he
    rw [heq, List.mem_singleton] at hmem
    exact hm (hmem ▸ hf)
  cases h with
  | expired _ hem hterm =>
    exact .inl (hevent _ (loopEvents_winding hem hterm rfl) fun hf => by cases hf)
  | waitFailed => exact .inl (by simp)
  | probeOverflow _ hfails =>
    cases hfails with
    | overflow =>
      refine .inl fun e he hfail => ?_
      obtain ⟨m, hm, -⟩ := hfail.mem_loopEvents he
      cases hm
  | probeOk _ hticks =>
    exact .inl (hevent (.ticked .probeOk) (by simp [loopEvents, hticks.marks_eq, Mark.isEvent])
      fun hf => by cases hf)
  | terminateFailed _ hticks hem hterm =>
    refine .inr ⟨by simp, fun e he => ?_⟩
    rcases List.mem_append.mp he with he | he
    · exact hticks.not_isSpawn e he
    · exact not_isSpawn_winding hem hterm e he
  | @lost es fs outcome status lifetime a t decision sup out _ hlost hdec hset =>
    have hone' := hlost.runs.settings.oneShot
    by_cases hs : status.success = true
    · refine .inl (hevent _ (hlost.loopEvents_eq hset) ?_)
      rcases hlost.cause with rfl | ⟨-, hf⟩
      · intro hf
        cases hf with
        | exited _ _ hf => simp [hs] at hf
      · simp [hs] at hf
    · have hclosing : fs = [] ∧ ∀ next', out ≠ .ret (.looping next') := by
        cases hdec with
        | oneShot => cases hset <;> exact ⟨rfl, by simp⟩
        | finished h => exact absurd h hs
        | cleanReset h => exact absurd h hs
        | longReset h => simp [hone'.trans hone] at h
        | short h => simp [hone'.trans hone] at h
        | capped _ h => simp [hone'.trans hone] at h
      obtain ⟨rfl, hne⟩ := hclosing
      refine .inr ⟨hne, fun e he => ?_⟩
      rcases List.mem_append.mp he with he | he
      · exact hlost.not_isSpawn e he
      · rw [List.mem_singleton.mp he]
        exact Sys.not_isSpawn_passed _ _
  | stopped _ _ _ hem hterm =>
    exact .inl (hevent _ (loopEvents_winding hem hterm rfl) fun hf => by cases hf)
  | @renewed kind _ _ _ _ _ _ _ _ _ _ _ hem hterm hl =>
    exact .inl (hevent (.ticked (.signal kind))
      (by simp [loopEvents, hem.marks_eq, hterm.marks_eq, hl.marks_eq, Mark.isEvent])
      fun hf => by cases hf)

/-- Under one-shot only the turn that ends the run logs a failure. -/
private theorem isFailure_onlyInLastTurn {s₀ : Sys} (hone : s₀.sup.oneShot = true) :
    OnlyInLastTurn s₀ Entry.IsFailure fun out => ∀ next, out ≠ .ret (.looping next) where
  ends next h := h next rfl
  launch hl e he hfail := by
    obtain ⟨m, hm, -⟩ := hfail.mem_loopEvents he
    rw [loopEvents, hl.marks_eq] at hm
    cases hm
  turn hconfig hturn :=
    hturn.oneShot_cases ((Supervisor.agrees_of_config hconfig).oneShot.trans hone)

/-- A run that ends at the cap has logged a short failure that reached it. -/
private theorem Turn.reachedCap {s₀ s t : Sys} {n : Nat} {es fs : List Entry}
    {next : Option Instant} {c : Child} {a : UInt32} (hr : Reaches s₀ n es s next c)
    (hturn : Turn s next c fs (.fail (.maxStartReached a)) t) (hone : s₀.sup.oneShot = false) :
    s₀.sup.ReachedCap (es ++ fs) := by
  have hclock := hr.runs.settings.clock
  have hone' := hr.runs.settings.oneShot
  cases hturn.capCases (hone'.trans hone) with
  | uncounted _ hne => exact absurd rfl (hne a)
  | counted _ _ hne => exact absurd rfl (hne a)
  | @capped us cap heq hkeep hcap hle hfail =>
    refine ⟨cap, hclock ▸ hcap, ?_, ?_⟩
    · rw [hr.weights_append, heq]
      simp
    · rw [hr.weights_append, heq, List.foldl_append, ← hr.retryCount hone, List.foldl_append,
        foldl_saturatingStep_keep hkeep]
      have hle' := UInt32.le_iff_toNat_le.mp hle
      rw [Supervisor.nextRetry, toNat_saturatingAddU32, UInt32.toNat_one] at hle'
      exact hle'

/-- The result of a run whose last turn acted on `m`, from how that turn ends. -/
private theorem TurnResult.contract {self : Supervisor} {m : Mark} {out : End AutosshError Flow}
    {es : List Entry} (h : TurnResult self m out) (hlast : (loopEvents es).getLast? = some m)
    (hcap : ∀ a, out = .fail (.maxStartReached a) → self.oneShot = false → self.ReachedCap es)
    (hspawn : self.oneShot = true → es.Pairwise fun e e' => e.IsFailure → ¬ e'.IsSpawn)
    (honly : self.oneShot = true → ∀ e ∈ es, e.IsFailure → m.IsFailure) :
    ResultContract self out es ↔
      ¬ (self.oneShot = true ∧ (loopEvents es).getLast? = some (.ticked .probeTimeout)) := by
  have hsame : ∀ {m'}, (loopEvents es).getLast? = some m' → m' = m := fun h' =>
    Option.some.inj (h'.symm.trans hlast)
  cases h with
  | clean hclean =>
    refine iff_of_true ⟨?_, ?_, fun hone => ⟨hspawn hone, ?_⟩⟩ ?_
    · exact ⟨fun _ => ⟨m, hlast, hclean⟩, fun _ => rfl⟩
    · refine ⟨by simp, ?_⟩
      rintro ⟨⟨m', hm', hfail⟩, -⟩
      exact absurd (hsame hm' ▸ hfail) hclean.not_isFailure
    · rintro ⟨e, he, hfail⟩
      exact absurd (honly hone e he hfail) hclean.not_isFailure
    · rintro ⟨-, htimeout⟩
      exact hclean.not_isFailure (hsame htimeout ▸ .timedOut)
  | capped a hfail hone =>
    refine iff_of_true ⟨?_, ?_, fun hone' => by simp [hone] at hone'⟩ (by simp [hone])
    · refine ⟨by simp, ?_⟩
      rintro ⟨m', hm', hclean⟩
      exact absurd hfail (hsame hm' ▸ hclean).not_isFailure
    · exact ⟨fun _ => ⟨⟨m, hlast, hfail⟩, .inr (hcap a rfl hone)⟩, fun _ => ⟨a, rfl⟩⟩
  | oneShot hfail hone hne =>
    refine iff_of_true ⟨?_, ?_, fun _ => ⟨hspawn hone, by simp⟩⟩ ?_
    · refine ⟨by simp, ?_⟩
      rintro ⟨m', hm', hclean⟩
      exact absurd hfail (hsame hm' ▸ hclean).not_isFailure
    · exact ⟨fun _ => ⟨⟨m, hlast, hfail⟩, .inl hone⟩, fun _ => ⟨1, rfl⟩⟩
    · rintro ⟨-, htimeout⟩
      exact hne (hsame htimeout).symm
  | swallowed htimeout hone =>
    subst htimeout
    refine iff_of_false (fun hcontract => ?_) fun hnot => hnot ⟨hone, hlast⟩
    obtain ⟨m', hm', hclean⟩ := hcontract.ok.mp rfl
    exact (hsame hm' ▸ hclean).not_isFailure .timedOut

/-- A supervisor's result keeps its promises exactly unless a failed probe ended a one-shot
run: for every run that has returned without an I/O error. -/
theorem run_result_contract_iff (s₀ : Sys) (hs : s₀.Fresh) (n : Nat)
    (script : List (List Event)) (hout : IsResult (execute n script s₀).out) :
    ResultContract s₀.sup (execute n script s₀).out (execute n script s₀).state.world.history ↔
      ¬ (s₀.sup.oneShot = true ∧
        (loopEvents (execute n script s₀).state.world.history).getLast? =
          some (.ticked .probeTimeout)) := by
  have hend : (execute n script s₀).out ≠ .pending := fun heq => by
    rw [heq] at hout
    exact hout.1
  have hrun := runEnd_of_execute hs.still hend
  have hpairwise := fun hone : s₀.sup.oneShot = true =>
    (isFailure_onlyInLastTurn hone).no_spawn_after hs n script
  revert hrun hpairwise hout
  generalize (execute n script s₀).out = out
  generalize (execute n script s₀).state = t
  intro hout hrun hpairwise
  cases hrun with
  | looping => exact hout.1.elim
  | closed _ hfin =>
    rw [hfin.runs.history_of_fresh hs] at hpairwise ⊢
    cases hfin with
    | start hl => exact absurd hout hl.not_isResult
    | @turn m es fs s t next c out hr hturn =>
      have hmode := hr.runs.settings.monitorMode
      have hone := hr.runs.settings.oneShot
      obtain ⟨ev, hev, hres⟩ := hturn.result hout
      have hres₀ : TurnResult s₀.sup ev out := by
        cases hres with
        | clean h => exact .clean (hmode ▸ h)
        | capped a h h' => exact .capped a h (hone ▸ h')
        | oneShot h h' hne => exact .oneShot h (hone ▸ h') hne
        | swallowed h h' => exact .swallowed h (hone ▸ h')
      refine hres₀.contract (by simp [hev]) (fun a ha hone₀ => ?_) hpairwise
        fun hone₀ e he hfail => ?_
      · subst ha
        exact Turn.reachedCap hr hturn hone₀
      · rcases List.mem_append.mp he with he | he
        · exact absurd hfail ((isFailure_onlyInLastTurn hone₀).reaches hr e he)
        · obtain ⟨m', hm', hfail'⟩ := hfail.mem_loopEvents he
          rw [hev, List.mem_singleton] at hm'
          exact hm' ▸ hfail'

/-- A one-shot run whose first child crashes keeps its promises. -/
theorem run_result_contract_iff_one_shot_crash :
    ResultContract { Supervisor.initial with oneShot := true } (.fail (.maxStartReached 1))
      (execute 1 [[.exit 0 ⟨256⟩]]
        ⟨{ Supervisor.initial with oneShot := true }, .initial .unix⟩).state.world.history := by
  let s₀ : Sys := ⟨{ Supervisor.initial with oneShot := true }, .initial .unix⟩
  have hfail : (execute 1 [[.exit 0 ⟨256⟩]] s₀).out = .fail (.maxStartReached 1) := by
    decide +kernel
  have hresult : IsResult (execute 1 [[.exit 0 ⟨256⟩]] s₀).out := by
    rw [hfail]
    exact ⟨trivial, by simp⟩
  have hiff := run_result_contract_iff s₀ (Sys.fresh_initial _ _ rfl) 1 _ hresult
  rw [hfail] at hiff
  exact hiff.mpr (by decide +kernel)

/-- A supervisor with a heartbeat on port 20000. -/
def Supervisor.monitored : Supervisor :=
  { Supervisor.initial with
    monitor := some ⟨⟨20000⟩, some ⟨20001⟩, none, ⟨20000, 20001⟩⟩
    monitorMode := .active 20000 none }

/-- A one-shot run ended by a failed probe returns without an error. -/
theorem run_swallows_one_shot_timeout :
    let t := execute 1 [[.elapse (Duration.fromSecs 600)], [.elapse (Duration.fromSecs 600)],
      [.exit 0 ⟨15⟩]] ⟨{ Supervisor.monitored with oneShot := true }, .initial .unix⟩
    t.out = .ret .returned ∧
      (loopEvents t.state.world.history).getLast? = some (.ticked .probeTimeout) := by
  decide +kernel

end RustyAutossh
