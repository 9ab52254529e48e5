import RustyAutossh.Correctness.Retry

/-!
# A larger budget is never used up sooner

What the loop is fed is the sequence of its losses, with what they are judged by, and of
its signals. Two runs that are fed alike are compared step by step: the run with the
larger budget keeps the smaller counter, and never comes to its cap first.
-/

namespace RustyAutossh

open Async Tally

/-- What the loop is fed: a child lost to an exit or to a failed probe, after the given
lifetime, or a signal. -/
inductive Feed where
  | exited (status : ExitStatus) (lifetime : Duration)
  | timedOut (lifetime : Duration)
  | signalled (kind : SignalKind)
  deriving DecidableEq, Repr

/-- What a point passed has fed to the loop. -/
def Mark.feed : Mark → Option Feed
  | .decided (.childExited status _) _ lifetime _ => some (.exited status lifetime)
  | .decided .probeTimeout _ lifetime _ => some (.timedOut lifetime)
  | .ticked (.signal kind) => some (.signalled kind)
  | _ => none

/-- What the loop has been fed in a stretch. -/
def feeds (es : List Entry) : List Feed := (marks es).filterMap Mark.feed

/-- What a feed does to the number of short failures. -/
def Feed.weight (clock : PollClock) (mode : MonitorMode) : Feed → Weight
  | .exited status lifetime =>
    if status.success then
      match mode with
      | .none => .keep
      | .active _ _ => .reset
    else clock.weighFailure lifetime
  | .timedOut lifetime => clock.weighFailure lifetime
  | .signalled .hangup => .reset
  | .signalled _ => .keep

/-- The weights of what the loop has been fed in a stretch. -/
def Supervisor.burdens (self : Supervisor) (es : List Entry) : List Weight :=
  (feeds es).map (Feed.weight self.clock self.monitorMode)

@[simp] theorem feeds_append (es fs : List Entry) : feeds (es ++ fs) = feeds es ++ feeds fs := by
  simp [feeds]

@[simp] theorem Supervisor.burdens_append (self : Supervisor) (es fs : List Entry) :
    self.burdens (es ++ fs) = self.burdens es ++ self.burdens fs := by
  simp [Supervisor.burdens]

/-- A point weighs what it feeds, and nothing if it feeds nothing. -/
theorem Mark.weight_eq (clock : PollClock) (mode : MonitorMode) (m : Mark) :
    m.weight clock mode = (m.feed.map (Feed.weight clock mode)).getD .keep := by
  cases m with
  | decided outcome status lifetime decision => cases outcome <;> rfl
  | ticked outcome =>
    cases outcome with
    | signal kind => cases kind <;> rfl
    | _ => rfl
  | expired => rfl

section Burdens

variable {self : Supervisor} {es : List Entry}

/-- A feed weighs as much as the point that brought it. -/
private theorem Supervisor.mem_weights_of_burdens {w : Weight} (h : w ∈ self.burdens es) :
    w ∈ self.weights es := by
  obtain ⟨x, hx, rfl⟩ := List.mem_map.mp h
  obtain ⟨m, hm, hfeed⟩ := List.mem_filterMap.mp hx
  refine List.mem_map.mpr ⟨m, hm, ?_⟩
  rw [Mark.weight_eq, hfeed]
  rfl

/-- Points that feed nothing leave the counter. -/
theorem Supervisor.foldl_burdens (n : Nat) :
    (self.burdens es).foldl (saturatingStep retryBound) n =
      (self.weights es).foldl (saturatingStep retryBound) n := by
  unfold Supervisor.burdens Supervisor.weights feeds
  induction marks es generalizing n with
  | nil => rfl
  | cons m ms ih =>
    rw [List.map_cons, List.foldl_cons, Mark.weight_eq]
    cases hfeed : m.feed with
    | none =>
      rw [List.filterMap_cons_none hfeed]
      exact ih n
    | some x =>
      rw [List.filterMap_cons_some hfeed, List.map_cons, List.foldl_cons]
      exact ih _

/-- The point that counts has fed something. -/
private theorem Supervisor.burdens_of_weights {us : List Weight}
    (heq : self.weights es = us ++ [.count]) (hkeep : ∀ w ∈ us, w = .keep) :
    ∃ vs, self.burdens es = vs ++ [.count] ∧ ∀ w ∈ vs, w = .keep := by
  obtain ⟨ms, ns, hms, hus, hns⟩ := List.map_eq_append_iff.mp heq
  obtain ⟨m, rfl, hm⟩ := List.map_eq_singleton_iff.mp hns
  have hlast : ∃ x, m.feed = some x ∧ x.weight self.clock self.monitorMode = .count := by
    rw [Mark.weight_eq] at hm
    cases hfeed : m.feed with
    | none => simp [hfeed] at hm
    | some x => exact ⟨x, rfl, by simpa [hfeed] using hm⟩
  obtain ⟨x, hfeed, hx⟩ := hlast
  refine ⟨(ms.filterMap Mark.feed).map (Feed.weight self.clock self.monitorMode), ?_, ?_⟩
  · simp [Supervisor.burdens, feeds, hms, hfeed, hx]
  · intro w hw
    obtain ⟨y, hy, rfl⟩ := List.mem_map.mp hw
    obtain ⟨m', hm', hfeed'⟩ := List.mem_filterMap.mp hy
    have hmem : m'.weight self.clock self.monitorMode ∈ us := hus ▸ List.mem_map_of_mem hm'
    rw [Mark.weight_eq, hfeed'] at hmem
    exact hkeep _ hmem

/-- What a turn is fed stands to the cap as the points it passes do. -/
theorem CapCases.burdens {out : End AutosshError Flow} (h : CapCases self (self.weights es) out) :
    CapCases self (self.burdens es) out := by
  cases h with
  | uncounted hne hout =>
    exact .uncounted (fun w hw => hne w (Supervisor.mem_weights_of_burdens hw)) hout
  | counted heq hkeep hout hlt =>
    obtain ⟨vs, heq', hkeep'⟩ := Supervisor.burdens_of_weights heq hkeep
    exact .counted heq' hkeep' hout hlt
  | capped heq hkeep hcap hle hout =>
    obtain ⟨vs, heq', hkeep'⟩ := Supervisor.burdens_of_weights heq hkeep
    exact .capped heq' hkeep' hcap hle hout

end Burdens

/-- The weights of feeds depend only on the configuration. -/
private theorem Supervisor.burdens_of_config {self other : Supervisor}
    (h : self.config = other.config) (es : List Entry) : self.burdens es = other.burdens es := by
  have hclock := (Supervisor.agrees_of_config h).clock
  have hmode := (Supervisor.agrees_of_config h).monitorMode
  rw [Supervisor.burdens, Supervisor.burdens, hclock, hmode]

/-- The counter that a supervisor has been brought to. -/
def Supervisor.spent (self : Supervisor) (ws : List Weight) : Nat :=
  ws.foldl (saturatingStep retryBound) self.retryCount.toNat

/-- What a run has made of its budget: the counter follows the feeds, and the run ends at
the first of them that brings it to the cap, and only there. -/
structure Spends (s₀ : Sys) (out : End AutosshError Flow) (t : Sys) (ws : List Weight) : Prop where
  counter : t.sup.retryCount.toNat = s₀.sup.spent ws
  stops : ∀ us vs cap, ws = us ++ .count :: vs → s₀.sup.clock.maxStart = some cap →
    cap.toNat ≤ s₀.sup.spent (us ++ [.count]) →
      vs = [] ∧ out = .fail (.maxStartReached t.sup.retryCount)
  capped : ∀ a, out = .fail (.maxStartReached a) → a = t.sup.retryCount ∧
    ∃ us cap, ws = us ++ [.count] ∧ s₀.sup.clock.maxStart = some cap ∧
      cap.toNat ≤ s₀.sup.spent (us ++ [.count])

@[simp] theorem Supervisor.spent_append (self : Supervisor) (ws us : List Weight) :
    self.spent (ws ++ us) = us.foldl (saturatingStep retryBound) (self.spent ws) :=
  List.foldl_append

/-- A last count after events that keep is found in one way only. -/
private theorem eq_of_keep_append_count {us us' vs : List Weight} (hkeep : ∀ w ∈ us, w = .keep)
    (h : us ++ [.count] = us' ++ .count :: vs) : us' = us ∧ vs = [] := by
  rcases append_cons_cases h with ⟨c, hus, -⟩ | ⟨c, hus', hlast⟩
  · have hcount := hkeep .count (by rw [hus]; simp)
    cases hcount
  · cases c with
    | nil =>
      rw [List.nil_append, List.cons.injEq] at hlast
      exact ⟨by rw [hus', List.append_nil], hlast.2.symm⟩
    | cons w c =>
      have hlen := congrArg List.length hlast
      simp at hlen

/-- The counter one short failure later. -/
private theorem toNat_nextRetry (self : Supervisor) :
    self.nextRetry.toNat = saturatingStep retryBound self.retryCount.toNat .count :=
  toNat_saturatingAddU32 _ _

/-- A turn goes on spending. -/
private theorem Spends.turn {s₀ s t : Sys} {next next' : Option Instant} {c : Child}
    {es : List Entry} {ws : List Weight} {out : End AutosshError Flow}
    (h : Spends s₀ (.ret (.looping next')) s ws) (hconfig : s.sup.config = s₀.sup.config)
    (hturn : Turn s next c es out t) (hone : s₀.sup.oneShot = false) :
    Spends s₀ out t (ws ++ s.sup.burdens es) := by
  have hclock := (Supervisor.agrees_of_config hconfig).clock
  have hone' := (Supervisor.agrees_of_config hconfig).oneShot
  have hone'' := hone'.trans hone
  have hcounter : t.sup.retryCount.toNat = s₀.sup.spent (ws ++ s.sup.burdens es) := by
    rw [hturn.retryCount hone'', Supervisor.spent_append, ← h.counter, Supervisor.foldl_burdens]
  -- after events that keep, the next count makes the counter the next one
  have hnext : ∀ us, (∀ w ∈ us, w = .keep) →
      s₀.sup.spent (ws ++ us ++ [.count]) = s.sup.nextRetry.toNat := by
    intro us hkeep
    rw [toNat_nextRetry, h.counter, Supervisor.spent_append, Supervisor.spent_append,
      foldl_saturatingStep_keep hkeep]
    rfl
  have hcases := (hturn.capCases hone'').burdens
  refine ⟨hcounter, fun us vs cap heq hcap hle => ?_, fun a hout => ?_⟩
  · rcases append_cons_cases heq with ⟨c, hws, -⟩ | ⟨c, rfl, hburdens⟩
    · have hstop := (h.stops us c cap hws hcap hle).2
      cases hstop
    · generalize s.sup.burdens es = bs at *
      cases hcases with
      | uncounted hne => exact absurd rfl (hne .count (by rw [hburdens]; simp))
      | counted hbs hkeep _ hlt =>
        obtain ⟨rfl, rfl⟩ := eq_of_keep_append_count hkeep (hbs.symm.trans hburdens)
        have hlt' := UInt32.lt_iff_toNat_lt.mp (hlt cap (hclock ▸ hcap))
        rw [hnext _ hkeep] at hle
        omega
      | capped hbs hkeep _ _ hout =>
        obtain ⟨rfl, rfl⟩ := eq_of_keep_append_count hkeep (hbs.symm.trans hburdens)
        refine ⟨rfl, ?_⟩
        rw [hbs, ← List.append_assoc, hnext _ hkeep] at hcounter
        rw [hout, UInt32.toNat_inj.mp hcounter]
  · generalize s.sup.burdens es = bs at *
    cases hcases with
    | uncounted _ hne => exact absurd hout (hne a)
    | counted _ _ hne => exact absurd hout (hne a)
    | @capped us cap hbs hkeep hcap hle hfail =>
      have hle' := UInt32.le_iff_toNat_le.mp hle
      subst hbs
      rw [← List.append_assoc, hnext _ hkeep] at hcounter
      refine ⟨?_, ws ++ us, cap, by rw [List.append_assoc], hclock ▸ hcap, ?_⟩
      · rw [UInt32.toNat_inj.mp hcounter]
        simpa [hout] using hfail
      · rw [hnext _ hkeep]
        exact hle'

/-- Every run spends its budget so. -/
theorem RunEnd.spends {s₀ t : Sys} {n : Nat} {out : End AutosshError Flow}
    (h : RunEnd s₀ n out t) (hs : s₀.Fresh) (hone : s₀.sup.oneShot = false) :
    Spends s₀ out t (s₀.sup.burdens t.world.history) := by
  refine h.invariant (fun out t es => Spends s₀ out t (s₀.sup.burdens es)) ?_ ?_ hs
  · intro es out t hl
    have hnone : s₀.sup.burdens es = [] := by
      rw [Supervisor.burdens, feeds, hl.marks_eq]
      rfl
    rw [hnone]
    refine ⟨by rw [hl.retryCount]; rfl, fun us vs cap heq => ?_, fun a hout => ?_⟩
    · have hlen := congrArg List.length heq
      simp at hlen
    · exact absurd hout (hl.ne_maxStartReached a)
  · intro m es fs s t next c out hr ih hturn
    rw [Supervisor.burdens_append, Supervisor.burdens_of_config hr.runs.config.symm fs]
    exact ih.turn hr.runs.config hturn hone

/-- A feed that does a run no more harm than another: the same, the loss of a child to a
failed probe after a longer life, or a SIGHUP in place of a SIGUSR1. -/
inductive Feed.Milder : Feed → Feed → Prop
  | same (x : Feed) : Milder x x
  | longer {lifetime lifetime' : Duration} : lifetime' ≤ lifetime →
      Milder (.timedOut lifetime) (.timedOut lifetime')
  | reloaded : Milder (.signalled .hangup) (.signalled .userDefined1)

/-- A shorter life under a larger gate time is the heavier failure. -/
private theorem PollClock.weighFailure_lighter {clock clock' : PollClock}
    {lifetime lifetime' : Duration} (hgate : clock.gateTime ≤ clock'.gateTime)
    (hlife : lifetime' ≤ lifetime) :
    (clock.weighFailure lifetime).Lighter (clock'.weighFailure lifetime') := by
  unfold PollClock.weighFailure
  by_cases hshort : lifetime < clock.gateTime
  · have hshort' : lifetime' < clock'.gateTime :=
      lt_of_le_of_lt hlife (lt_of_lt_of_le hshort hgate)
    rw [if_pos hshort, if_pos hshort']
    exact .refl _
  · rw [if_neg hshort]
    exact .reset _

/-- Under the smaller gate time a milder feed weighs less. -/
theorem Feed.Milder.lighter {clock clock' : PollClock} {mode : MonitorMode} {x y : Feed}
    (h : x.Milder y) (hgate : clock.gateTime ≤ clock'.gateTime) :
    (x.weight clock mode).Lighter (y.weight clock' mode) := by
  cases h with
  | same x =>
    cases x with
    | exited status lifetime =>
      simp only [Feed.weight]
      split
      · exact .refl _
      · exact PollClock.weighFailure_lighter hgate (le_refl _)
    | timedOut lifetime => exact PollClock.weighFailure_lighter hgate (le_refl _)
    | signalled kind => cases kind <;> exact .refl _
  | longer hle => exact PollClock.weighFailure_lighter hgate hle
  | reloaded => exact .reset _

/-- The first run has the larger budget: as many retries left or more, a cap no lower and a
gate time no longer. -/
structure Supervisor.Thriftier (sup other : Supervisor) : Prop where
  mode : sup.monitorMode = other.monitorMode
  retryCount : sup.retryCount ≤ other.retryCount
  maxStart : ∀ cap, sup.clock.maxStart = some cap →
    ∃ cap', other.clock.maxStart = some cap' ∧ cap' ≤ cap
  gateTime : sup.clock.gateTime ≤ other.clock.gateTime

/-- Of two supervisors that are fed alike, the thriftier one has the smaller counter. -/
private theorem Supervisor.Thriftier.spent_le {self other : Supervisor}
    (h : self.Thriftier other) {xs ys : List Feed} (hfed : List.Forall₂ Feed.Milder xs ys) :
    self.spent (xs.map (Feed.weight self.clock self.monitorMode)) ≤
      other.spent (ys.map (Feed.weight other.clock other.monitorMode)) := by
  have hlight : List.Forall₂ Weight.Lighter (xs.map (Feed.weight self.clock self.monitorMode))
      (ys.map (Feed.weight other.clock other.monitorMode)) := by
    rw [List.forall₂_map_left_iff, List.forall₂_map_right_iff, h.mode]
    exact hfed.imp fun _ _ hmild => hmild.lighter h.gateTime
  have hbound : self.retryCount.toNat ≤ retryBound := Nat.le_pred_of_lt self.retryCount.toNat_lt
  exact foldl_saturatingStep_mono hlight (UInt32.le_iff_toNat_le.mp h.retryCount) hbound

/-- What corresponds to a sequence with a last item has a last item. -/
private theorem forall₂_concat_left {β γ : Type} {r : β → γ → Prop} {zs : List β} {z : β}
    {xs : List γ} (h : List.Forall₂ r (zs ++ [z]) xs) : ∃ ws w, xs = ws ++ [w] ∧ r z w := by
  rw [← List.forall₂_reverse_iff, List.reverse_append] at h
  obtain ⟨w, ws, hzw, -, heq⟩ := List.forall₂_cons_left_iff.mp h
  exact ⟨ws.reverse, w, by rw [← List.reverse_reverse xs, heq, List.reverse_cons], hzw⟩

/-- Of two runs that are fed alike, the one with the larger budget has the smaller counter at
every return to the top of the loop and at its end, and it does not fail at its cap unless
the other has failed at its own, on the same feed and with no fewer attempts. -/
theorem run_retry_monotone (s₀ s₀' : Sys) (hs : s₀.Fresh) (hs' : s₀'.Fresh)
    (hone : s₀.sup.oneShot = false) (hone' : s₀'.sup.oneShot = false)
    (hthrift : s₀.sup.Thriftier s₀'.sup) (n n' : Nat) (script script' : List (List Event))
    (hend : (execute n script s₀).out ≠ .pending)
    (hend' : (execute n' script' s₀').out ≠ .pending) :
    let a := execute n script s₀
    let b := execute n' script' s₀'
    (List.Forall₂ Feed.Milder (feeds a.state.world.history) (feeds b.state.world.history) →
      a.state.sup.retryCount ≤ b.state.sup.retryCount) ∧
    ∀ k xs, a.out = .fail (.maxStartReached k) → xs <+: feeds b.state.world.history →
      List.Forall₂ Feed.Milder (feeds a.state.world.history) xs →
      xs = feeds b.state.world.history ∧ ∃ k', b.out = .fail (.maxStartReached k') ∧ k ≤ k' := by
  intro a b
  have hspends : Spends s₀ a.out a.state (s₀.sup.burdens a.state.world.history) :=
    (runEnd_of_execute hs.still hend).spends hs hone
  have hspends' : Spends s₀' b.out b.state (s₀'.sup.burdens b.state.world.history) :=
    (runEnd_of_execute hs'.still hend').spends hs' hone'
  have hcounter : List.Forall₂ Feed.Milder (feeds a.state.world.history)
      (feeds b.state.world.history) → a.state.sup.retryCount ≤ b.state.sup.retryCount := by
    intro hfed
    rw [UInt32.le_iff_toNat_le, hspends.counter, hspends'.counter]
    exact hthrift.spent_le hfed
  refine ⟨hcounter, fun k xs hout hxs hfed => ?_⟩
  obtain ⟨rfl, us, cap, hburdens, hcap, hle⟩ := hspends.capped k hout
  obtain ⟨ys, hys⟩ := hxs
  obtain ⟨cap', hcap', hcaple⟩ := hthrift.maxStart cap hcap
  -- the feed that brought the first run to its cap has counted in the second as well
  have hlast : ∃ vs, xs.map (Feed.weight s₀'.sup.clock s₀'.sup.monitorMode) = vs ++ [.count] := by
    obtain ⟨zs, ws, hfeeds, -, hws⟩ := List.map_eq_append_iff.mp hburdens
    obtain ⟨z, rfl, hz⟩ := List.map_eq_singleton_iff.mp hws
    rw [hfeeds] at hfed
    obtain ⟨xs, x, rfl, hmild⟩ := forall₂_concat_left hfed
    have hlight : (z.weight s₀.sup.clock s₀.sup.monitorMode).Lighter
        (x.weight s₀'.sup.clock s₀'.sup.monitorMode) := by
      rw [hthrift.mode]
      exact hmild.lighter hthrift.gateTime
    rw [hz] at hlight
    exact ⟨xs.map (Feed.weight s₀'.sup.clock s₀'.sup.monitorMode), by simp [hlight.eq_count]⟩
  obtain ⟨vs, hvs⟩ := hlast
  have hsplit : s₀'.sup.burdens b.state.world.history =
      vs ++ .count :: ys.map (Feed.weight s₀'.sup.clock s₀'.sup.monitorMode) := by
    rw [Supervisor.burdens, ← hys, List.map_append, hvs, List.append_assoc]
    rfl
  have hspent : cap'.toNat ≤ s₀'.sup.spent (vs ++ [.count]) := by
    rw [hburdens.symm] at hle
    have hmono := hthrift.spent_le hfed
    rw [hvs] at hmono
    exact le_trans (UInt32.le_iff_toNat_le.mp hcaple) (le_trans hle hmono)
  obtain ⟨hnil, hout'⟩ := hspends'.stops vs _ cap' hsplit hcap' hspent
  have hxs : xs = feeds b.state.world.history := by
    rw [← hys, List.map_eq_nil_iff.mp hnil, List.append_nil]
  exact ⟨hxs, _, hout', hcounter (hxs ▸ hfed)⟩

/-- A monitored supervisor that probes every ten seconds and judges a life by thirty. -/
def Supervisor.tenSecondPolls (maxStart : Option UInt32) : Supervisor :=
  { Supervisor.initial with
    monitor := some ⟨⟨20000⟩, some ⟨20001⟩, none, ⟨20000, 20001⟩⟩
    monitorMode := .active 20000 none
    clock := ⟨Duration.fromSecs 10, Duration.fromSecs 10, Duration.fromSecs 30, maxStart, none⟩ }

/-- A failed probe after which the child takes the given time to terminate. -/
def failedProbe (dying : Duration) : List (List Event) :=
  [[.elapse (Duration.fromSecs 10)], [.elapse (Duration.fromSecs 10)],
    [.elapse dying, .exit 0 ⟨15⟩], [.elapse (Duration.fromSecs 30)]]

/-- A child that has lived twenty seconds brings a run to its cap of one, and so does it a run
whose cap is zero. -/
theorem run_retry_monotone_twenty_seconds :
    ∃ k', (execute 1 (failedProbe 0) ⟨.tenSecondPolls (some 0), .initial .unix⟩).out =
      .fail (.maxStartReached k') ∧ 1 ≤ k' := by
  have hfeeds : feeds (execute 1 (failedProbe 0)
      ⟨.tenSecondPolls (some 1), .initial .unix⟩).state.world.history =
        [.timedOut (Duration.fromSecs 20)] := by decide +kernel
  refine ((run_retry_monotone ⟨.tenSecondPolls (some 1), .initial .unix⟩
    ⟨.tenSecondPolls (some 0), .initial .unix⟩ (Sys.fresh_initial _ _ rfl)
    (Sys.fresh_initial _ _ rfl) rfl rfl ⟨rfl, by decide, ?_, by decide⟩
    1 1 (failedProbe 0) (failedProbe 0) (by decide +kernel) (by decide +kernel)).2 1
    [.timedOut (Duration.fromSecs 20)] (by decide +kernel) (by decide +kernel) ?_).2
  · rintro cap ⟨⟩
    exact ⟨0, rfl, by decide⟩
  · rw [hfeeds]
    exact .cons (.same _) .nil

/-- What the ticks of a stretch have reported. -/
def outcomes (es : List Entry) : List LoopOutcome :=
  (marks es).filterMap fun m =>
    match m with
    | .ticked outcome => some outcome
    | _ => none

/-- Two runs of one supervisor that report the same outcomes, one failed probe each. A child
that takes ten seconds to terminate is judged by a longer life, so that only the other run
counts a short failure. -/
theorem retry_counters_cross_on_same_outcomes :
    let a := execute 1 (failedProbe 0) ⟨.tenSecondPolls none, .initial .unix⟩
    let b := execute 1 (failedProbe (Duration.fromSecs 10)) ⟨.tenSecondPolls none, .initial .unix⟩
    outcomes a.state.world.history = [.probeTimeout] ∧
      outcomes b.state.world.history = [.probeTimeout] ∧
      a.out = .ret (.looping (some (Duration.fromSecs 60))) ∧
      b.out = .ret (.looping (some (Duration.fromSecs 70))) ∧
      a.state.sup.retryCount = 1 ∧ b.state.sup.retryCount = 0 := by
  decide +kernel

end RustyAutossh
