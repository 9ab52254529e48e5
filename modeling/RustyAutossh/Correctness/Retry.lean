import RustyAutossh.Loop.Core
import RustyAutossh.Tally

/-!
# Retry accounting

The retry counter is the number of short failures since the last reset, up to the
bound of its type. A short failure is a failed exit or a failed probe of a child
that lived less than the gate time; a longer life, a clean exit under a monitor
and a SIGHUP reset the count.
-/

namespace RustyAutossh

open Async Tally

/-- What a failure counts for: a short life counts, a long one resets. -/
def PollClock.weighFailure (clock : PollClock) (lifetime : Duration) : Weight :=
  if lifetime < clock.gateTime then .count else .reset

/-- What a point passed does to the number of short failures. -/
def Mark.weight (clock : PollClock) (mode : MonitorMode) : Mark → Weight
  | .decided (.childExited status _) _ lifetime _ =>
    if status.success then
      match mode with
      | .none => .keep
      | .active _ _ => .reset
    else clock.weighFailure lifetime
  | .decided .probeTimeout _ lifetime _ => clock.weighFailure lifetime
  | .ticked (.signal .hangup) => .reset
  | _ => .keep

/-- What the log of a supervisor has done to the number of short failures. -/
def Supervisor.weights (self : Supervisor) (es : List Entry) : List Weight :=
  (marks es).map (Mark.weight self.clock self.monitorMode)

/-- The largest value of the retry counter. -/
def retryBound : Nat := 2 ^ 32 - 1

@[simp] theorem Supervisor.weights_append (self : Supervisor) (es fs : List Entry) :
    self.weights (es ++ fs) = self.weights es ++ self.weights fs := by
  simp [Supervisor.weights]

/-- The weights depend only on the configuration. -/
theorem Supervisor.weights_of_config {self other : Supervisor} (h : self.config = other.config)
    (es : List Entry) : self.weights es = other.weights es := by
  have hclock := (Supervisor.agrees_of_config h).clock
  have hmode := (Supervisor.agrees_of_config h).monitorMode
  rw [Supervisor.weights, Supervisor.weights, hclock, hmode]

/-- A launch passes no point that weighs. -/
theorem Launches.weights_eq {s t : Sys} {announced : List SupervisorEvent} {es : List Entry}
    {out : End AutosshError Flow} (h : Launches s announced es out t) (self : Supervisor) :
    self.weights es = [] := by
  rw [Supervisor.weights, h.marks_eq, List.map_nil]

/-- The weights of a run and of the turn it goes on with. -/
theorem Reaches.weights_append {s₀ s : Sys} {n : Nat} {es : List Entry} {next : Option Instant}
    {c : Child} (h : Reaches s₀ n es s next c) (fs : List Entry) :
    s₀.sup.weights (es ++ fs) = s₀.sup.weights es ++ s.sup.weights fs := by
  rw [Supervisor.weights_append, Supervisor.weights_of_config h.runs.config.symm fs]

section Weight

variable {self sup : Supervisor} {outcome : LoopOutcome} {status : ExitStatus}
  {lifetime : Duration} {decision : RespawnDecision}

/-- A failure weighs the same however it was seen. -/
private theorem weight_of_failure (clock : PollClock) (mode : MonitorMode)
    (hcause : outcome = .childExited status lifetime ∨
      outcome = .probeTimeout ∧ status.success = false) (hs : status.success = false) :
    Mark.weight clock mode (.decided outcome status lifetime decision) =
      clock.weighFailure lifetime := by
  rcases hcause with rfl | ⟨rfl, -⟩
  · simp [Mark.weight, hs]
  · rfl

/-- A respawn decision does to the counter what its loss weighs. -/
private theorem Decides.retryCount
    (h : Decides self status lifetime decision sup) (hone : self.oneShot = false)
    (hcause : outcome = .childExited status lifetime ∨
      outcome = .probeTimeout ∧ status.success = false) :
    sup.retryCount.toNat = saturatingStep retryBound self.retryCount.toNat
      (Mark.weight self.clock self.monitorMode (.decided outcome status lifetime decision)) := by
  cases h with
  | oneShot h => simp [hone] at h
  | finished hsucc hmode =>
    rcases hcause with rfl | ⟨-, hs⟩
    · simp [Mark.weight, hsucc, hmode, saturatingStep]
    · simp [hsucc] at hs
  | cleanReset hsucc hmode =>
    rcases hcause with rfl | ⟨-, hs⟩
    · cases hm : self.monitorMode with
      | none => exact absurd hm hmode
      | active port echo => simp [Mark.weight, hsucc, saturatingStep]
    · simp [hsucc] at hs
  | longReset _ hs hlong =>
    rw [weight_of_failure _ _ hcause hs, PollClock.weighFailure, if_neg (Nat.not_lt.mpr hlong)]
    rfl
  | short _ hs hshort =>
    rw [weight_of_failure _ _ hcause hs, PollClock.weighFailure, if_pos hshort]
    exact toNat_saturatingAddU32 _ _
  | capped cap _ hs hshort =>
    rw [weight_of_failure _ _ hcause hs, PollClock.weighFailure, if_pos hshort]
    exact toNat_saturatingAddU32 _ _

/-- What a decision for a short failure did at the cap: it ended the run, or the counter
stayed below the cap. -/
private theorem Decides.weight_count
    (h : Decides self status lifetime decision sup) (hone : self.oneShot = false)
    (hcause : outcome = .childExited status lifetime ∨
      outcome = .probeTimeout ∧ status.success = false) :
    (Mark.weight self.clock self.monitorMode (.decided outcome status lifetime decision) ≠ .count ∧
        ∀ attempts, decision ≠ .exit (.maxStartReached attempts)) ∨
      Mark.weight self.clock self.monitorMode (.decided outcome status lifetime decision) = .count ∧
        ((decision = .respawn ∧
            ∀ cap, self.clock.maxStart = some cap → saturatingAddU32 self.retryCount 1 < cap) ∨
          ∃ cap, self.clock.maxStart = some cap ∧ cap ≤ saturatingAddU32 self.retryCount 1 ∧
            decision = .exit (.maxStartReached (saturatingAddU32 self.retryCount 1))) := by
  have hclean : status.success = true →
      Mark.weight self.clock self.monitorMode (.decided outcome status lifetime decision) ≠
        .count := by
    intro hs
    rcases hcause with rfl | ⟨-, hf⟩
    · cases hm : self.monitorMode <;> simp [Mark.weight, hs]
    · simp [hs] at hf
  cases h with
  | oneShot h => simp [hone] at h
  | finished hsucc => exact .inl ⟨hclean hsucc, by simp⟩
  | cleanReset hsucc => exact .inl ⟨hclean hsucc, by simp⟩
  | longReset _ hs hlong =>
    rw [weight_of_failure _ _ hcause hs, PollClock.weighFailure, if_neg (Nat.not_lt.mpr hlong)]
    exact .inl ⟨by simp, by simp⟩
  | short _ hs hshort hcap =>
    rw [weight_of_failure _ _ hcause hs, PollClock.weighFailure, if_pos hshort]
    exact .inr ⟨rfl, .inl ⟨rfl, hcap⟩⟩
  | capped cap _ hs hshort hcap hle =>
    rw [weight_of_failure _ _ hcause hs, PollClock.weighFailure, if_pos hshort]
    exact .inr ⟨rfl, .inr ⟨cap, hcap, hle, rfl⟩⟩

end Weight

/-- A tick outcome other than a SIGHUP weighs nothing. -/
private theorem weight_ticked {clock : PollClock} {mode : MonitorMode} {outcome : LoopOutcome}
    (h : outcome ≠ .signal .hangup) : Mark.weight clock mode (.ticked outcome) = .keep := by
  cases outcome with
  | signal kind =>
    cases kind with
    | hangup => exact absurd rfl h
    | _ => rfl
  | _ => rfl

/-- A SIGHUP resets the counter, every other renewing signal keeps it. -/
private theorem retryCount_credit (self : Supervisor) (kind : SignalKind) (clock : PollClock)
    (mode : MonitorMode) : (self.credit kind).retryCount.toNat =
      saturatingStep retryBound self.retryCount.toNat
        (Mark.weight clock mode (.ticked (.signal kind))) := by
  cases kind <;> rfl

theorem Launches.retryCount {s t : Sys} {announced : List SupervisorEvent}
    {es : List Entry} {out : End AutosshError Flow} (h : Launches s announced es out t) :
    t.sup.retryCount = s.sup.retryCount := by
  cases h with
  | failed => rfl
  | looping _ hem => rw [hem.logs.sup]; rfl
  | overflow _ hem => rw [hem.logs.sup]; rfl

theorem Settles.retryCount {s t : Sys} {outcome : LoopOutcome}
    {decision : RespawnDecision} {es : List Entry} {out : End AutosshError Flow}
    (h : Settles s outcome decision es out t) : t.sup.retryCount = s.sup.retryCount := by
  cases h with
  | respawn hpass _ hl => rw [hl.retryCount, hpass.sup]
  | capped hem => rw [hem.logs.sup]
  | _ => rfl

theorem Lost.retryCount {s t : Sys} {next : Option Instant} {c : Child}
    {es : List Entry} {outcome : LoopOutcome} {status : ExitStatus} {lifetime : Duration}
    (h : Lost s next c es outcome status lifetime t) : t.sup.retryCount = s.sup.retryCount := by
  cases h with
  | exited hticks hem =>
    show (Sys.sup _).retryCount = _
    rw [hem.logs.sup, Sys.mark_sup, hticks.logs.sup]
  | timedOut hticks hem hterm _ hem' =>
    rw [hem'.logs.sup, hterm.sup, hem.logs.sup, Sys.mark_sup, hticks.logs.sup]

/-- A turn does to the counter what the points it passes weigh. -/
theorem Turn.retryCount {s t : Sys} {next : Option Instant} {c : Child} {es : List Entry}
    {out : End AutosshError Flow} (h : Turn s next c es out t) (hone : s.sup.oneShot = false) :
    t.sup.retryCount.toNat =
      (s.sup.weights es).foldl (saturatingStep retryBound) s.sup.retryCount.toNat := by
  cases h with
  | expired _ hem hterm =>
    rw [hterm.sup, hem.logs.sup]
    simp [Supervisor.weights, hem.marks_eq, hterm.marks_eq, Mark.weight, saturatingStep]
  | waitFailed _ hpass =>
    rw [hpass.sup]
    rfl
  | probeOverflow _ hfails =>
    cases hfails with
    | overflow hpass _ _ _ hprobes =>
      rw [hprobes.logs.sup, hpass.sup]
      rfl
  | probeOk _ hticks =>
    rw [Sys.mark_sup, hticks.logs.sup]
    simp [Supervisor.weights, hticks.marks_eq, Mark.weight, saturatingStep]
  | terminateFailed _ hticks hem hterm =>
    rw [hterm.sup, hem.logs.sup, Sys.mark_sup, hticks.logs.sup]
    simp [Supervisor.weights, hticks.marks_eq, hem.marks_eq, hterm.marks_eq, Mark.weight,
      saturatingStep]
  | @lost es fs outcome status lifetime a t decision sup out _ hlost hdec hset =>
    have hclock := hlost.runs.settings.clock
    have hmode := hlost.runs.settings.monitorMode
    have hone' := hlost.runs.settings.oneShot
    have hret := hdec.retryCount (hone'.trans hone) hlost.cause
    have htick : Mark.weight s.sup.clock s.sup.monitorMode (.ticked outcome) = .keep :=
      weight_ticked (by rcases hlost.cause with rfl | ⟨rfl, -⟩ <;> simp)
    rw [hset.retryCount]
    show sup.retryCount.toNat = _
    rw [hret, hlost.retryCount, hclock, hmode]
    simp [Supervisor.weights, hlost.marks_eq, hset.marks_eq, htick, saturatingStep]
  | @stopped kind es fs a b t _ hticks hstops hem hterm =>
    have htick : Mark.weight s.sup.clock s.sup.monitorMode (.ticked (.signal kind)) = .keep :=
      weight_ticked (by rintro ⟨⟩; simp [SignalKind.stops] at hstops)
    rw [hterm.sup, hem.logs.sup, Sys.mark_sup, hticks.logs.sup]
    simp [Supervisor.weights, hem.marks_eq, hterm.marks_eq, htick, saturatingStep]
  | @renewed kind es fs gs a b d t out _ hticks hstops hem hterm hl =>
    rw [hl.retryCount, hterm.sup]
    show (b.sup.credit kind).retryCount.toNat = _
    rw [retryCount_credit b.sup kind s.sup.clock s.sup.monitorMode, hem.logs.sup, Sys.mark_sup,
      hticks.logs.sup]
    simp [Supervisor.weights, hem.marks_eq, hterm.marks_eq, hl.marks_eq]

/-- The counter follows the points passed from turn to turn. -/
theorem Reaches.retryCount {s₀ s : Sys} {n : Nat} {es : List Entry} {next : Option Instant}
    {c : Child} (h : Reaches s₀ n es s next c) (hone : s₀.sup.oneShot = false) :
    s.sup.retryCount.toNat =
      (s₀.sup.weights es).foldl (saturatingStep retryBound) s₀.sup.retryCount.toNat := by
  refine h.invariant (fun _ t es => t.sup.retryCount.toNat =
    (s₀.sup.weights es).foldl (saturatingStep retryBound) s₀.sup.retryCount.toNat) ?_ ?_
  · intro es out t hl
    rw [hl.weights_eq, hl.retryCount]
    rfl
  · intro m es fs s t next c out hr ih hturn
    rw [hr.weights_append, List.foldl_append, ← ih]
    exact hturn.retryCount (hr.runs.settings.oneShot.trans hone)

/-- The retry counter one short failure later. -/
def Supervisor.nextRetry (self : Supervisor) : UInt32 := saturatingAddU32 self.retryCount 1

/-- How a turn stands to the cap: it counts no failure, or it counts one and either
stays below every cap or ends the run at it. -/
inductive CapCases (self : Supervisor) (ws : List Weight) (out : End AutosshError Flow) : Prop
  | uncounted : (∀ w ∈ ws, w ≠ .count) → (∀ a, out ≠ .fail (.maxStartReached a)) →
      CapCases self ws out
  | counted {us : List Weight} : ws = us ++ [.count] → (∀ w ∈ us, w = .keep) →
      (∀ a, out ≠ .fail (.maxStartReached a)) →
      (∀ cap, self.clock.maxStart = some cap → self.nextRetry < cap) → CapCases self ws out
  | capped {us : List Weight} {cap : UInt32} : ws = us ++ [.count] → (∀ w ∈ us, w = .keep) →
      self.clock.maxStart = some cap → cap ≤ self.nextRetry →
      out = .fail (.maxStartReached self.nextRetry) → CapCases self ws out

/-- A launch fails only as its spawn does. -/
theorem Launches.ne_maxStartReached {s t : Sys} {announced : List SupervisorEvent}
    {es : List Entry} {out : End AutosshError Flow} (h : Launches s announced es out t)
    (a : UInt32) : out ≠ .fail (.maxStartReached a) := by
  cases h <;> simp

/-- A loss that is not one-shot stands to the cap as its decision does. -/
private theorem Lost.capCases {s a t : Sys} {next : Option Instant} {c : Child}
    {es fs : List Entry} {outcome : LoopOutcome} {status : ExitStatus} {lifetime : Duration}
    {decision : RespawnDecision} {sup : Supervisor} {out : End AutosshError Flow} {u : Sys}
    (hlost : Lost s next c es outcome status lifetime a)
    (hdec : Decides a.sup status lifetime decision sup) (hset : Settles u outcome decision fs out t)
    (hone : s.sup.oneShot = false) :
    CapCases s.sup (s.sup.weights
      (es ++ a.line (.passed (.decided outcome status lifetime decision)) :: fs)) out := by
  have hclock := hlost.runs.settings.clock
  have hmode := hlost.runs.settings.monitorMode
  have hone' := hlost.runs.settings.oneShot
  have htick : Mark.weight s.sup.clock s.sup.monitorMode (.ticked outcome) = .keep :=
    weight_ticked (by rcases hlost.cause with rfl | ⟨rfl, -⟩ <;> simp)
  have hws : s.sup.weights
      (es ++ a.line (.passed (.decided outcome status lifetime decision)) :: fs) =
      [.keep] ++ [Mark.weight s.sup.clock s.sup.monitorMode
        (.decided outcome status lifetime decision)] := by
    simp [Supervisor.weights, hlost.marks_eq, hset.marks_eq, htick]
  have hcases := hdec.weight_count (hone'.trans hone) hlost.cause
  rw [hclock, hmode, hlost.retryCount] at hcases
  have hrespawn : decision = .respawn → ∀ n, out ≠ .fail (.maxStartReached n) := by
    rintro rfl n
    cases hset with
    | respawn _ _ hl => exact hl.ne_maxStartReached n
  rw [hws]
  rcases hcases with ⟨hne, hdecision⟩ | ⟨heq, ⟨hresp, hcap⟩ | ⟨cap, hcap, hle, hexit⟩⟩
  · refine .uncounted (by simp [hne]) fun n hout => ?_
    cases hset with
    | respawn => exact hrespawn rfl n hout
    | finished => simp at hout
    | capped => exact hdecision _ rfl
    | oneShotExit =>
      cases hdec with
      | oneShot h => simp [hone'.trans hone] at h
    | oneShotTimeout => simp at hout
  · rw [heq]
    exact .counted rfl (by simp) (hrespawn hresp) hcap
  · subst hexit
    rw [heq]
    cases hset with
    | capped => exact .capped rfl (by simp) hcap hle rfl

/-- How every turn stands to the cap. -/
theorem Turn.capCases {s t : Sys} {next : Option Instant} {c : Child} {es : List Entry}
    {out : End AutosshError Flow} (h : Turn s next c es out t) (hone : s.sup.oneShot = false) :
    CapCases s.sup (s.sup.weights es) out := by
  cases h with
  | expired _ hem hterm =>
    exact .uncounted (by simp [Supervisor.weights, hem.marks_eq, hterm.marks_eq, Mark.weight])
      (by simp)
  | waitFailed => exact .uncounted (by simp [Supervisor.weights]) (by simp)
  | probeOverflow _ hfails =>
    cases hfails with
    | overflow =>
      refine .uncounted ?_ (by simp)
      show ∀ w ∈ ([] : List Weight), w ≠ .count
      simp
  | probeOk _ hticks =>
    exact .uncounted (by simp [Supervisor.weights, hticks.marks_eq, Mark.weight]) (by simp)
  | terminateFailed _ hticks hem hterm =>
    exact .uncounted (by simp [Supervisor.weights, hticks.marks_eq, hem.marks_eq, hterm.marks_eq,
      Mark.weight]) (by simp)
  | lost _ hlost hdec hset => exact hlost.capCases hdec hset hone
  | @stopped kind _ _ _ _ _ _ hticks _ hem hterm =>
    refine .uncounted ?_ (by simp)
    cases kind <;> simp [Supervisor.weights, hem.marks_eq, hterm.marks_eq, Mark.weight]
  | @renewed kind _ _ _ _ _ _ _ _ _ hticks _ hem hterm hl =>
    refine .uncounted ?_ hl.ne_maxStartReached
    cases kind <;>
      simp [Supervisor.weights, hem.marks_eq, hterm.marks_eq, hl.marks_eq, Mark.weight]

/-- The account at the top of the loop: the counter holds the tally, and the tally has
stayed below the cap. -/
structure Account (s₀ s : Sys) (ws : List Weight) : Prop where
  counter : s.sup.retryCount.toNat = min (since ws) retryBound
  below : ∀ {cap}, s₀.sup.clock.maxStart = some cap → Below (max cap.toNat 1) ws

/-- Below a cap the counter has not saturated. -/
private theorem Account.counter_eq {s₀ s : Sys} {ws : List Weight} (h : Account s₀ s ws)
    {cap : UInt32} (hcap : s₀.sup.clock.maxStart = some cap) :
    s.sup.retryCount.toNat = since ws := by
  have hlt := (h.below hcap).since
  have hsize := cap.toNat_lt
  rw [h.counter, retryBound]
  omega

/-- The next value of a counter that has not saturated. -/
private theorem Account.nextRetry_eq {s₀ s : Sys} {ws : List Weight} (h : Account s₀ s ws)
    {cap : UInt32} (hcap : s₀.sup.clock.maxStart = some cap) :
    s.sup.nextRetry.toNat = since ws + 1 := by
  have hlt := (h.below hcap).since
  have hsize := cap.toNat_lt
  rw [Supervisor.nextRetry, toNat_saturatingAddU32, h.counter_eq hcap, UInt32.toNat_one]
  omega

/-- A turn that does not end at the cap keeps the tally below it. -/
private theorem Account.below_append {s₀ s : Sys} {ws us : List Weight} (h : Account s₀ s ws)
    {out : End AutosshError Flow} (hclock : s.sup.clock = s₀.sup.clock)
    (hcases : CapCases s.sup us out) (hout : ∀ a, out ≠ .fail (.maxStartReached a))
    {cap : UInt32} (hcap : s₀.sup.clock.maxStart = some cap) :
    Below (max cap.toNat 1) (ws ++ us) := by
  have hbelow := h.below hcap
  cases hcases with
  | uncounted hne => exact hbelow.append hne
  | @counted vs heq hkeep _ hlt =>
    subst heq
    rw [← List.append_assoc]
    refine (hbelow.append fun w hw => by rw [hkeep w hw]; simp).append_singleton ?_
    have hnext := UInt32.lt_iff_toNat_lt.mp (hlt cap (hclock ▸ hcap))
    rw [h.nextRetry_eq hcap] at hnext
    rw [since_append_singleton, since_append_keep hkeep, step]
    omega
  | capped _ _ _ _ heq => exact absurd heq (hout _)

/-- The tally stays below the cap from turn to turn. -/
private theorem Reaches.account {s₀ s : Sys} {n : Nat} {es : List Entry} {next : Option Instant}
    {c : Child} (h : Reaches s₀ n es s next c) (hone : s₀.sup.oneShot = false)
    (hzero : s₀.sup.retryCount = 0) : Account s₀ s (s₀.sup.weights es) := by
  have hcounter : ∀ {m fs u next c}, Reaches s₀ m fs u next c →
      u.sup.retryCount.toNat = min (since (s₀.sup.weights fs)) retryBound := by
    intro m fs u next c hr
    have hstart := foldl_saturatingStep_min retryBound 0 (s₀.sup.weights fs)
    have htally : (s₀.sup.weights fs).foldl step 0 = since (s₀.sup.weights fs) := by
      rw [← since_nil, ← since_append, List.nil_append]
    rw [hr.retryCount hone, hzero, ← htally, ← hstart]
    rfl
  refine ⟨hcounter h, ?_⟩
  induction h with
  | @start es t next c hl _ =>
    intro cap _ us hus
    rw [hl.weights_eq] at hus
    rw [List.prefix_nil.mp hus, since_nil]
    omega
  | @turn n es fs s t next next' c c' hr hturn _ ih =>
    have hclock := hr.runs.settings.clock
    have hone' := hr.runs.settings.oneShot
    have hacc : Account s₀ s (s₀.sup.weights es) := ⟨hcounter hr, ih⟩
    intro cap hcap
    rw [hr.weights_append]
    exact hacc.below_append hclock (hturn.capCases (hone'.trans hone)) (by simp) hcap

/-- What the account says of the end of a run: below the cap unless the run ended at it,
and then the last failure was the first to reach it. -/
private theorem RunEnd.capped {s₀ t : Sys} {n : Nat} {out : End AutosshError Flow}
    (h : RunEnd s₀ n out t) (hs : s₀.Fresh) (hone : s₀.sup.oneShot = false)
    (hzero : s₀.sup.retryCount = 0) {cap : UInt32} (hcap : s₀.sup.clock.maxStart = some cap) :
    ((∀ a, out ≠ .fail (.maxStartReached a)) ∧
        Below (max cap.toNat 1) (s₀.sup.weights t.world.history)) ∨
      ∃ a us, out = .fail (.maxStartReached a) ∧ a.toNat = max cap.toNat 1 ∧
        s₀.sup.weights t.world.history = us ++ [.count] ∧ Below (max cap.toNat 1) us ∧
        since us + 1 = max cap.toNat 1 := by
  cases h with
  | looping hr =>
    rw [hr.runs.history_of_fresh hs]
    exact .inl ⟨by simp, (hr.account hone hzero).below hcap⟩
  | closed _ hfin =>
    rw [hfin.runs.history_of_fresh hs]
    cases hfin with
    | start hl =>
      refine .inl ⟨hl.ne_maxStartReached, fun us hus => ?_⟩
      rw [hl.weights_eq, List.prefix_nil] at hus
      rw [hus, since_nil]
      omega
    | @turn n es fs s t next c out hr hturn =>
      have hacc := hr.account hone hzero
      have hclock := hr.runs.settings.clock
      have hone' := hr.runs.settings.oneShot
      have hcases := hturn.capCases (hone'.trans hone)
      rw [hr.weights_append]
      by_cases hout : ∃ a, out = .fail (.maxStartReached a)
      · obtain ⟨a, rfl⟩ := hout
        cases hcases with
        | uncounted _ hne => exact absurd rfl (hne a)
        | counted _ _ hne => exact absurd rfl (hne a)
        | @capped us cap' heq hkeep hcap' hle hfail =>
          obtain rfl : cap' = cap := by
            rw [hclock, hcap, Option.some.injEq] at hcap'
            exact hcap'.symm
          have hbelow : Below (max cap'.toNat 1) (s₀.sup.weights es ++ us) :=
            (hacc.below hcap).append fun w hw => by
              rw [hkeep w hw]
              simp
          have hlt := (hacc.below hcap).since
          have hnext := hacc.nextRetry_eq hcap
          have hle' := UInt32.le_iff_toNat_le.mp hle
          have ha : a = s.sup.nextRetry := by simpa using hfail
          refine .inr ⟨a, _, rfl, ?_, ?_, hbelow, ?_⟩
          · rw [ha]
            omega
          · rw [heq, List.append_assoc]
          · rw [since_append_keep hkeep]
            omega
      · exact .inl ⟨fun a ha => hout ⟨a, ha⟩,
          hacc.below_append hclock hcases (fun a ha => hout ⟨a, ha⟩) hcap⟩

/-- Without a cap no run ends at one. -/
private theorem RunEnd.uncapped {s₀ t : Sys} {n : Nat} {out : End AutosshError Flow}
    (h : RunEnd s₀ n out t) (hone : s₀.sup.oneShot = false)
    (hnone : s₀.sup.clock.maxStart = none) (a : UInt32) : out ≠ .fail (.maxStartReached a) := by
  cases h with
  | looping => simp
  | closed _ hfin =>
    cases hfin with
    | start hl => exact hl.ne_maxStartReached a
    | turn hr hturn =>
      have hclock := hr.runs.settings.clock
      have hone' := hr.runs.settings.oneShot
      cases hturn.capCases (hone'.trans hone) with
      | uncounted _ hne => exact hne a
      | counted _ _ hne => exact hne a
      | capped _ _ hcap => simp [hclock, hnone] at hcap

/-- At every return to the top of the loop the counter is the number of short failures
since the last reset, saturated. Under a cap it stays below the cap, and the run fails with
`MaxStartReached` exactly at the first short failure that reaches the cap, a cap of zero
acting as one; without a cap it never does. -/
theorem run_retry_accounting (s₀ : Sys) (hs : s₀.Fresh) (hone : s₀.sup.oneShot = false)
    (hzero : s₀.sup.retryCount = 0) (n : Nat) (script : List (List Event))
    (hend : (execute n script s₀).out ≠ .pending) :
    let out := (execute n script s₀).out
    let self := (execute n script s₀).state.sup
    let ws := s₀.sup.weights (execute n script s₀).state.world.history
    (∀ next, out = .ret (.looping next) →
      self.retryCount.toNat = min (since ws) (2 ^ 32 - 1)) ∧
    (∀ cap, s₀.sup.clock.maxStart = some cap →
      (∀ next, out = .ret (.looping next) → self.retryCount.toNat < max cap.toNat 1) ∧
      (∀ us, us <+: ws → us ≠ ws → since us < max cap.toNat 1) ∧
      (max cap.toNat 1 ≤ since ws ↔ ∃ a, out = .fail (.maxStartReached a)) ∧
      ∀ a, out = .fail (.maxStartReached a) → a.toNat = max cap.toNat 1) ∧
    (s₀.sup.clock.maxStart = none → ∀ a, out ≠ .fail (.maxStartReached a)) := by
  have hrun := runEnd_of_execute hs.still hend
  intro out self ws
  have htop : ∀ next, out = .ret (.looping next) →
      Account s₀ (execute n script s₀).state ws := by
    intro next hout
    obtain ⟨es, c, hr⟩ := reaches_of_looping hs.still hout
    have hws : ws = s₀.sup.weights es := congrArg s₀.sup.weights (hr.runs.history_of_fresh hs)
    rw [hws]
    exact hr.account hone hzero
  refine ⟨fun next hout => (htop next hout).counter, fun cap hcap => ?_,
    fun hnone => hrun.uncapped hone hnone⟩
  have hlooping : ∀ next, out = .ret (.looping next) →
      self.retryCount.toNat < max cap.toNat 1 := by
    intro next hout
    have hacc := htop next hout
    exact hacc.counter_eq hcap ▸ (hacc.below hcap).since
  rcases hrun.capped hs hone hzero hcap with ⟨hne, hbelow⟩ | ⟨a, us, hout, ha, hws, hbelow, hsum⟩
  · refine ⟨hlooping, fun us hus _ => hbelow us hus, ⟨fun hle => ?_, ?_⟩, ?_⟩
    · exact absurd hbelow.since (Nat.not_lt.mpr hle)
    · rintro ⟨a, hout⟩
      exact absurd hout (hne a)
    · exact fun a hout => absurd hout (hne a)
  · refine ⟨hlooping, fun vs hvs hvne => ?_, ⟨fun _ => ⟨a, hout⟩, fun _ => ?_⟩, ?_⟩
    · rw [show ws = us ++ [.count] from hws] at hvs hvne
      exact hbelow vs ((List.prefix_concat_iff.mp hvs).resolve_left hvne)
    · rw [show ws = us ++ [.count] from hws, since_append_singleton, step]
      omega
    · intro b hb
      rw [show out = .fail (.maxStartReached a) from hout] at hb
      cases hb
      exact ha

/-- Two crashes within the gate time end a run whose cap is two. -/
theorem run_retry_accounting_two_crashes :
    ∃ a, (execute 2 [[.exit 0 ⟨256⟩], [.elapse (Duration.fromSecs 30)], [.exit 1 ⟨256⟩]]
      ⟨{ Supervisor.initial with clock := { PollClock.default with maxStart := some 2 } },
        .initial .unix⟩).out = .fail (.maxStartReached a) :=
  ((run_retry_accounting _ (Sys.fresh_initial _ _ rfl) rfl rfl 2 _
    (by decide +kernel)).2.1 2 rfl).2.2.1.mp (by decide +kernel)

end RustyAutossh
