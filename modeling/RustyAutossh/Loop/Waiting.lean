import RustyAutossh.Loop.Core
import RustyAutossh.Loop.Footprint

/-!
# Where a run waits

A run that waits in the `select!` waits in the turn after the last top of the loop
it has come to, with the timer that turn has armed.
-/

namespace RustyAutossh

open Async Runtime

/-- What has not happened yet while an operation is pending: its child has not exited, its
deadline has not passed, or the event channel has no room. -/
def Sys.Awaits (t : Sys) : Op → Prop
  | .wait c | .waitTimeout c _ | .select c _ _ => t.world.IsAlive c
  | .sleepUntil deadline | .roundtrip _ _ deadline => t.world.now < deadline
  | .send tx _ => t.world.inboxOpen = true ∧ tx.capacity ≤ t.world.inbox.length
  | _ => False

/-- A `select!` is waited in while the child lives and the armed timer lies ahead. -/
theorem stalls_select {c : Child} {timer : Option Instant} {signals : Bool} {s t : Sys}
    (h : host.Stalls (.select c timer signals) s t) :
    t.world.IsAlive c ∧ ∀ d, timer = some d → t.world.now < d := by
  obtain ⟨u, -, hp⟩ := h
  have hnone : (u.world.select c timer signals).1 = none := (Prod.ext_iff.mp hp).1
  obtain ⟨halive, hworld, hahead⟩ := select_pending hnone
  have ht : t.world = u.world :=
    (congrArg Sys.world (Prod.ext_iff.mp hp).2).symm.trans hworld
  rw [ht]
  exact ⟨halive, hahead⟩

/-- A sleep lasts while its deadline lies ahead. -/
private theorem stalls_sleepUntil {deadline : Instant} {s t : Sys}
    (h : host.Stalls (.sleepUntil deadline) s t) : t.world.now < deadline := by
  obtain ⟨u, -, hp⟩ := h
  simp only [host, poll, Prod.mk.injEq] at hp
  obtain ⟨hnone, rfl⟩ := hp
  by_contra hle
  rw [if_pos (Nat.le_of_not_lt hle)] at hnone
  cases hnone

/-- So does a round trip that has not been answered. -/
private theorem stalls_roundtrip {accepts : Bool} {len : Nat} {deadline : Instant} {s t : Sys}
    (h : host.Stalls (.roundtrip accepts len deadline) s t) : t.world.now < deadline := by
  obtain ⟨u, -, hp⟩ := h
  simp only [host, poll, World.roundtrip] at hp
  split at hp
  · cases hp
  · split at hp
    · cases hp
    · rename_i hahead
      simp only [Prod.mk.injEq, true_and] at hp
      subst hp
      exact Nat.lt_of_not_le hahead

/-- An operation is pending only while what it awaits has not happened. -/
theorem stalls_awaits {op : Op} {s t : Sys} (h : host.Stalls op s t) : t.Awaits op := by
  cases op with
  | wait c => exact stalls_wait h
  | waitTimeout c deadline => exact stalls_waitTimeout h
  | send tx ev => exact stalls_send h
  | select c timer signals => exact (stalls_select h).1
  | sleepUntil deadline => exact stalls_sleepUntil h
  | roundtrip accepts len deadline => exact stalls_roundtrip h
  | _ =>
    obtain ⟨u, -, hp⟩ := h
    simp [host, poll] at hp

/-- A tick awaits one `select!`, with the timer it arms as it begins. -/
private theorem selectOneTick_select {next : Option Instant} {script : List (List Event)}
    {s t : Sys} {c : Child} {timer : Option Instant} {signals : Bool}
    (h : host.suspension (selectOneTick next) script s = some (.select c timer signals, t)) :
    timer = s.probeTimer next ∧ host.Stalls (.select c timer signals) s t := by
  rw [selectOneTick] at h
  have hthis := (suspension_call_of_ready rfl script).symm.trans h
  have hnow := (suspension_call_of_ready rfl script).symm.trans hthis
  cases hc : s.sup.child with
  | none =>
    simp only [hc] at hnow
    cases hnow
  | some child =>
    simp only [hc] at hnow
    have htarget := (suspension_call_of_ready rfl script).symm.trans hnow
    rcases suspension_call htarget with ⟨hop, hstalls⟩ | ⟨wakeup, u, rest, -, hrest⟩
    · simp only [Op.select.injEq] at hop
      obtain ⟨rfl, rfl, rfl⟩ := hop
      exact ⟨rfl, hstalls⟩
    · refine (only_of_suspension (P := Op.Outside) ?_ hrest).elim
      dsimp only [Prog.bind]
      split
      · exact (only_liftIo _).bind fun _ =>
          outside_of_gentle (childLifetime_gentle.bind fun _ => trivial)
      · exact outside_of_gentle probeBranch_gentle
      · trivial
      · trivial

/-- A turn that waits in the `select!` has found the deadline not passed. -/
private theorem turn_select {next : Option Instant} {script : List (List Event)} {s t : Sys}
    {c : Child} {timer : Option Instant} {signals : Bool}
    (h : host.suspension (turn next) script s = some (.select c timer signals, t)) :
    ¬ s.Expired ∧ timer = s.probeTimer next ∧ host.Stalls (.select c timer signals) s t := by
  rw [turn] at h
  have hthis := (suspension_call_of_ready rfl script).symm.trans h
  have hnow := (suspension_call_of_ready rfl script).symm.trans hthis
  dsimp only [Prog.bind] at hnow
  split at hnow
  · exact (only_of_suspension onExpired_outside hnow).elim
  · rename_i hexp
    rcases suspension_bind_cases hnow with htick | ⟨r, u, rest, -, hrest⟩
    · exact ⟨hexp, selectOneTick_select htick⟩
    · obtain ⟨outcome, next'⟩ := r
      have hhandle := (suspension_call_of_ready rfl rest).symm.trans hrest
      exact (only_of_suspension (onOutcome_outside next' outcome) hhandle).elim

/-- An execution that waits in the `select!` has come to the top of the loop last in a turn
that found the deadline not passed and armed the timer it waits with. -/
theorem suspension_select {s₀ t : Sys} {n : Nat} {script : List (List Event)} {c : Child}
    {timer : Option Instant} {signals : Bool}
    (h : host.suspension (runFor n) script s₀ = some (.select c timer signals, t)) :
    ∃ m next top rest, m < n ∧ execute m script s₀ = ⟨.ret (.looping next), top, rest⟩ ∧
      (∀ k, m < k → k ≤ n → (execute k script s₀).out = .pending) ∧
      ¬ top.Expired ∧ timer = top.probeTimer next ∧
      host.Stalls (.select c timer signals) top t := by
  induction n with
  | zero => exact (only_of_suspension (outside_of_gentle startUp_gentle) h).elim
  | succ n ih =>
    have hpending : (execute (n + 1) script s₀).out = .pending := by
      rw [execute, drive_of_suspension h]
    rcases suspension_bind_cases h with hearlier | ⟨flow, top, rest, hdrive, hturn⟩
    · obtain ⟨m, next, top, rest, hlt, htop, hlast, hselect⟩ := ih hearlier
      refine ⟨m, next, top, rest, Nat.lt_succ_of_lt hlt, htop, fun k hk hle => ?_, hselect⟩
      rcases Nat.lt_or_eq_of_le hle with hlt' | rfl
      · exact hlast k hk (Nat.le_of_lt_succ hlt')
      · exact hpending
    · cases flow with
      | returned => cases hturn
      | looping next =>
        refine ⟨n, next, top, rest, Nat.lt_succ_self n, hdrive, fun k hk hle => ?_,
          turn_select hturn⟩
        rw [Nat.le_antisymm hle hk]
        exact hpending

end RustyAutossh
