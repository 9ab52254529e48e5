import RustyAutossh.Correctness.Lifetime
import RustyAutossh.Correctness.Timing
import RustyAutossh.Pacing

/-!
# The rate of spawn attempts

A lost child is replaced after the backoff, whichever way it was lost, and a child that
a renewing signal asks to replace at once. So in any window of a run the number of spawn
attempts is bounded by the window's length and the renewing signals in it: a process
that keeps failing cannot make the supervisor spawn in a tight loop.
-/

namespace RustyAutossh

open Async Runtime

/-- A line that logs a spawn attempt. -/
def Entry.spawns (e : Entry) : Bool :=
  match e.act with
  | .spawned _ _ _ => true
  | _ => false

/-- A line that logs a signal on which the child is replaced at once. -/
def Entry.renews (e : Entry) : Bool :=
  match e.act with
  | .passed (.ticked (.signal kind)) => !kind.stops
  | _ => false

theorem Entry.spawns_iff {e : Entry} : e.spawns = true ↔ e.IsSpawn := by
  unfold Entry.spawns Entry.IsSpawn
  cases e.act <;> simp

/-- The pause before a lost child is replaced. A `gate_time` too large for the clock is cut to
the sleep of a deadline that cannot be represented. -/
def PollClock.backoff (clock : PollClock) : Duration := min clock.gateTime farFuture

/-- A sleep of `gate_time` lasts as long as the pause. -/
theorem PollClock.backoff_le_deadlineAfter (clock : PollClock) (os : Target) (t : Instant) :
    t + clock.backoff ≤ deadlineAfter os t clock.gateTime := by
  unfold deadlineAfter PollClock.backoff
  cases h : Instant.checkedAdd os t clock.gateTime with
  | none => exact Nat.add_le_add_left (Nat.min_le_right _ _) t
  | some u =>
    rw [Option.getD_some, Instant.checkedAdd_eq_some h]
    exact Nat.add_le_add_left (Nat.min_le_left _ _) t

/-- The log is in order of time, and nothing in it is ahead of the clock. -/
structure World.InOrder (w : World) : Prop where
  sorted : w.history.Pairwise (·.time ≤ ·.time)
  past : ∀ e ∈ w.history, e.time ≤ w.now

/-- Time passes, and the log stays in order. -/
private theorem host_inOrder : host.Grows fun s t => s.world.InOrder → t.world.InOrder where
  refl _ h := h
  trans h h' hs := h' (h hs)
  poll op s hs := by
    obtain ⟨hnow, es, hhist, hlen, htimes⟩ := stamps_poll op s
    have hown : es.Pairwise (·.time ≤ ·.time) := by
      match es, hlen with
      | [], _ => exact .nil
      | [e], _ => exact List.pairwise_singleton _ _
    refine ⟨?_, fun e he => ?_⟩
    · show (poll op s).2.world.history.Pairwise _
      rw [hhist, List.pairwise_append]
      exact ⟨hs.sorted, hown, fun e he f hf => htimes f hf ▸ hs.past e he⟩
    · have he : e ∈ s.world.history ++ es := hhist ▸ he
      have hnow : (host.poll op s).2.world.now = s.world.now := hnow
      rw [hnow]
      rcases List.mem_append.mp he with he | he
      · exact hs.past e he
      · exact (htimes e he).le
  act events s hs := by
    have hpass := (s.passes_apply events).world
    have hhist : (host.act events s).world.history = s.world.history := by
      have := hpass.history
      rwa [List.append_nil] at this
    refine ⟨hhist ▸ hs.sorted, fun e he => ?_⟩
    exact le_trans (hs.past e (hhist ▸ he)) hpass.now

/-- The log of every execution is in order of time. -/
theorem execute_inOrder {s₀ : Sys} (hs : s₀.Fresh) (n : Nat) (script : List (List Event)) :
    (execute n script s₀).state.world.InOrder :=
  host_inOrder.drive (runFor n) script s₀ ⟨by simp [hs.history], by simp [hs.history]⟩

/-- Every spawn but one that opens the log comes after an outcome on which the child is lost or
replaced, with no other spawn in between. -/
def Prompted (es : List Entry) : Prop :=
  ∀ a f b, es = a ++ f :: b → f.IsSpawn →
    a = [] ∨ ∃ pre e mid, a = pre ++ e :: mid ∧ e.Replaces ∧ ∀ g ∈ mid, ¬ g.IsSpawn

/-- A turn gives the reasons for its own spawns. -/
private theorem Prompted.append_turn {s t : Sys} {next : Option Instant} {c : Child}
    {es fs : List Entry} {out : End AutosshError Flow} (h : Prompted es)
    (hturn : Turn s next c fs out t) : Prompted (es ++ fs) := by
  have hown : ∀ a f b, fs = a ++ f :: b → f.IsSpawn →
      ∃ pre e mid, a = pre ++ e :: mid ∧ e.Replaces ∧ ∀ g ∈ mid, ¬ g.IsSpawn := by
    intro a f b hfs hf
    rcases hturn.spawn_cases with
      ⟨pre, e, mid, f', post, hsplit, he, -, hbefore, hafter⟩ | ⟨hnone, -⟩
    · have hpre : f ∉ pre ++ e :: mid := fun hmem => (hbefore f hmem).1 hf
      have hpost : f ∉ post := fun hmem => (hafter f hmem).1 hf
      obtain ⟨rfl, -, -⟩ :=
        (List.append_cons_inj_of_notMem hpre hpost).mp (hsplit.symm.trans hfs)
      exact ⟨pre, e, mid, rfl, he, fun g hg => (hbefore g (by simp [hg])).1⟩
    · exact absurd hf (hnone f (by simp [hfs]))
  intro a f b heq hf
  rcases append_cons_cases heq with ⟨c, hes, -⟩ | ⟨c, rfl, hfs⟩
  · exact h a f c hes hf
  · obtain ⟨pre, e, mid, rfl, he, hmid⟩ := hown c f b hfs hf
    exact .inr ⟨es ++ pre, e, mid, by simp, he, hmid⟩

/-- A launch spawns as its first line. -/
private theorem Launches.prompted {s t : Sys} {announced : List SupervisorEvent}
    {es : List Entry} {out : End AutosshError Flow} (h : Launches s announced es out t) :
    Prompted es := by
  obtain ⟨act, post, rfl, -, hpost⟩ := h.split
  intro a f b heq hf
  have hnot : f ∉ post := fun hmem => (hpost f hmem).1 hf
  have heq : [] ++ s.line act :: post = a ++ f :: b := heq
  exact .inl ((List.append_cons_inj_of_notMem List.not_mem_nil hnot).mp heq).1.symm

/-- The log of a run gives a reason for every spawn but the first. -/
private theorem RunEnd.prompted {s₀ t : Sys} {n : Nat} {out : End AutosshError Flow}
    (h : RunEnd s₀ n out t) (hs : s₀.Fresh) : Prompted t.world.history :=
  h.invariant (fun _ _ es => Prompted es) Launches.prompted
    (fun _ ih hturn => ih.append_turn hturn) hs

/-- Without a spawn the child stays lost, and was lost at one of the lines or before. -/
private theorem Clocks.lost_after {k : Clocks} {es : List Entry} (h : ∀ e ∈ es, ¬ e.IsSpawn)
    (hlost : k.lost.isSome = true) : (k.after es).lost.isSome = true := by
  induction es generalizing k with
  | nil => exact hlost
  | cons e es ih =>
    refine ih (fun f hf => h f (List.mem_cons_of_mem _ hf)) ?_
    have he := h e List.mem_cons_self
    unfold Clocks.step
    split <;> first | rfl | exact hlost | skip
    rename_i hact
    exact absurd ⟨_, _, _, hact⟩ he

theorem Entry.Replaces.not_isSpawn {e : Entry} (h : e.Replaces) : ¬ e.IsSpawn := by
  obtain ⟨outcome, -, hact⟩ := h
  rintro ⟨path, args, result, hspawn⟩
  rw [hact] at hspawn
  cases hspawn

/-- An outcome on which the child is lost or replaced is a renewing signal or a loss. -/
private theorem Entry.Replaces.renews_or_lost {e : Entry} (h : e.Replaces) (k : Clocks) :
    e.renews = true ∨ (k.step e).lost = some e.time := by
  obtain ⟨outcome, hreplaces, hact⟩ := h
  unfold Entry.renews Clocks.step
  rw [hact]
  cases outcome with
  | childExited => exact .inr rfl
  | probeTimeout => exact .inr rfl
  | probeOk => cases hreplaces
  | signal kind => exact .inl hreplaces

/-- Cutting at a line that logs no spawn, with none after it, cuts behind the last spawn. -/
private theorem exists_cut {a mid pre mid' : List Entry} {e g : Entry}
    (h : a ++ e :: mid = pre ++ g :: mid') (he : e.IsSpawn) (hg : ¬ g.IsSpawn)
    (hmid' : ∀ x ∈ mid', ¬ x.IsSpawn) : ∃ m, mid = m ++ g :: mid' := by
  rcases append_cons_cases h with ⟨c, -, hc⟩ | ⟨c, -, hc⟩
  · have hmem : e ∈ mid' := by simp [hc]
    exact absurd he (hmid' e hmem)
  · cases c with
    | nil =>
      rw [List.nil_append, List.cons.injEq] at hc
      exact absurd (hc.1 ▸ he) hg
    | cons x m =>
      rw [List.cons_append, List.cons.injEq] at hc
      exact ⟨m, hc.2⟩

/-- Two spawn attempts in a row: a renewing signal comes between them, or the backoff. -/
theorem execute_spaced {s₀ : Sys} (hs : s₀.Fresh) (n : Nat) (script : List (List Event)) :
    Pacing.Spaced Entry.time Entry.spawns Entry.renews s₀.sup.clock.backoff
      (execute n script s₀).state.world.history := by
  obtain ⟨out, t, hrun, more, hmore⟩ := execute_logGrows hs.still n script
  have htimely := hrun.timely hs
  have hprompted := hrun.prompted hs
  rw [← hmore] at htimely hprompted
  have hsorted := (execute_inOrder hs n script).sorted
  intro a e mid f b hes he hf hmid
  rw [hes] at htimely hprompted hsorted
  have hahead : ∀ g ∈ mid ++ f :: b, e.time ≤ g.time :=
    (List.pairwise_cons.mp (List.pairwise_append.mp hsorted).2.1).1
  have hspawn : f.IsSpawn := Entry.spawns_iff.mp hf
  refine ⟨hahead f (by simp), ?_⟩
  -- the reason for the second spawn comes after the first one
  obtain hnil | ⟨pre, g, mid', hsplit, hg, hquiet⟩ :=
    hprompted (a ++ e :: mid) f (b ++ more) (by simp) hspawn
  · simp at hnil
  obtain ⟨m, rfl⟩ := exists_cut hsplit (Entry.spawns_iff.mp he) hg.not_isSpawn hquiet
  rcases hg.renews_or_lost (({} : Clocks).after (a ++ e :: m)) with hrenews | hlost
  · exact .inl ⟨g, by simp, hrenews⟩
  -- a loss is waited out, and no loss is earlier than the line that gave the reason
  refine .inr ?_
  have hcut : Clocks.Timely s₀.world.target s₀.sup.clock {}
      ((a ++ e :: m ++ g :: mid') ++ f :: (b ++ more)) := by simpa using htimely
  have hallows := hcut.allows
  rw [Clocks.after_append, Clocks.after_cons] at hallows
  obtain ⟨u, hu⟩ := Option.isSome_iff_exists.mp (Clocks.lost_after hquiet (by rw [hlost]; rfl))
  have hfrom : e.time ≤ u := by
    rcases Clocks.lost_mem hu with hfirst | ⟨x, hx, rfl⟩
    · rw [hlost, Option.some.injEq] at hfirst
      exact hfirst ▸ hahead g (by simp)
    · exact hahead x (by simp [hx])
  exact le_trans (Nat.add_le_add_right hfrom _)
    (le_trans (s₀.sup.clock.backoff_le_deadlineAfter _ u) (hallows.backoff hspawn u hu))

/-- Between any two spawn attempts of an execution the backoff has passed once for each
attempt from the second one on, but for those that a renewing signal in between has paid for.
Crashes, failed probes and failed spawns never make it spawn any faster. -/
theorem run_spawn_rate (s₀ : Sys) (hs : s₀.Fresh) (n : Nat) (script : List (List Event))
    (a mid b : List Entry) (e f : Entry)
    (hlog : (execute n script s₀).state.world.history = a ++ e :: (mid ++ f :: b))
    (he : e.spawns = true) (hf : f.spawns = true) :
    (mid.countP Entry.spawns + 1) * s₀.sup.clock.backoff + e.time ≤
      mid.countP Entry.renews * s₀.sup.clock.backoff + f.time :=
  (execute_spaced hs n script).rate hlog he hf

/-- A crash, the pause after it and the second attempt: four lines, the last half a minute after
the first. -/
theorem run_spawn_rate_crash :
    ∃ e f : Entry, ∃ mid : List Entry,
      (execute 1 [[.exit 0 ⟨256⟩], [.elapse (Duration.fromSecs 30)]]
        ⟨.initial, .initial .unix⟩).state.world.history = [] ++ e :: (mid ++ f :: []) ∧
      1 * Duration.fromSecs 30 + e.time ≤ f.time := by
  refine ⟨_, _, [_, _], rfl, ?_⟩
  have hrate := run_spawn_rate _ (Sys.fresh_initial .initial .unix rfl) 1
    [[.exit 0 ⟨256⟩], [.elapse (Duration.fromSecs 30)]] [] [_, _] [] _ _ rfl rfl rfl
  exact le_trans (by decide +kernel) (le_trans hrate (by decide +kernel))

end RustyAutossh
