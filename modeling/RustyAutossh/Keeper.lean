import Mathlib.Data.List.Basic

/-!
# A process that is kept running

What a keeper of one process does: it starts the process, checks on it, finds it gone or asks
it to go, decides whether there is to be another, and pauses before that one. Of the past it
knows when the process was started and how many processes have failed soon, one after the other.
-/

namespace Keeper

/-- What is decided when the process is lost. -/
inductive Decision where
  | again
  | finish
  | giveUp
  deriving DecidableEq

/-- What a keeper is seen to do. -/
inductive Act where
  | start (ok : Bool)
  | check
  | checked (ok : Bool)
  | keep
  | condemn
  | lose (well : Bool)
  | decide (well : Bool) (life : Nat) (decision : Decision)
  | stop
  | renew (forgives : Bool)
  | expire
  | ask
  deriving DecidableEq

/-- What a keeper goes by. -/
structure Policy where
  /-- The earliest time for another process after one that was lost at a given time. -/
  resume : Nat → Nat
  /-- A process that has lived as long did not fail soon. -/
  settled : Nat
  /-- How many failures in a row are too many. -/
  limit : Option Nat
  /-- How far failures are counted. -/
  ceiling : Nat
  /-- No failure is made good. -/
  once : Bool
  /-- A process that ends well is replaced. -/
  replaces : Bool
  checks : Bool
  firstCheck : Nat
  interval : Nat
  expired : Nat → Prop

/-- What the process is asked to go for. -/
inductive Purpose where
  | judge
  | replace
  | stop
  deriving DecidableEq

/-- Where a keeper is: a start is due or a check may be made from some time on, a process
has gone by itself, or it is being asked to. -/
inductive Phase where
  | due (earliest : Nat)
  | up (earliest : Nat)
  | checking
  | checked (ok : Bool)
  | lost (well : Bool) (life : Nat)
  | leaving (purpose : Purpose)
  | over
  deriving DecidableEq

/-- A keeper: where it is, when its process was started and the failures in a row. -/
structure State where
  phase : Phase
  since : Nat
  failures : Nat
  deriving DecidableEq

/-- The decision on a lost process, with the failures that are held against the next one. -/
def Policy.judge (p : Policy) (failures : Nat) (well : Bool) (life : Nat) : Decision × Nat :=
  if well then
    if p.replaces then (.again, 0) else (.finish, failures)
  else if p.once then (.giveUp, failures)
  else if p.settled ≤ life then (.again, 0)
  else if p.limit.any (· ≤ min (failures + 1) p.ceiling) then
    (.giveUp, min (failures + 1) p.ceiling)
  else (.again, min (failures + 1) p.ceiling)

/-- Where a decision leads. -/
def Decision.phase (p : Policy) (t : Nat) : Decision → Phase
  | .again => .due (p.resume t)
  | .finish | .giveUp => .over

/-- A process may be started. -/
def State.Starts (s : State) (t : Nat) : Prop :=
  s.phase = .leaving .replace ∨ ∃ earliest, s.phase = .due earliest ∧ earliest ≤ t

/-- The process has been lost: by itself, or by a request after a bad check. -/
def State.Mourns (s : State) (t : Nat) (well : Bool) (life : Nat) : Prop :=
  s.phase = .lost well life ∨ s.phase = .leaving .judge ∧ well = false ∧ life = t - s.since

/-- What a keeper may do next, at a given time. -/
inductive Steps (p : Policy) (s : State) (t : Nat) : Act → State → Prop
  | start : s.Starts t →
      Steps p s t (.start true) { s with phase := .up (t + p.firstCheck), since := t }
  | startFailed : s.Starts t → Steps p s t (.start false) { s with phase := .over }
  | check {earliest : Nat} : s.phase = .up earliest → earliest ≤ t → p.checks = true →
      Steps p s t .check { s with phase := .checking }
  | checked {ok : Bool} : s.phase = .checking →
      Steps p s t (.checked ok) { s with phase := .checked ok }
  | keep : s.phase = .checked true → Steps p s t .keep { s with phase := .up (t + p.interval) }
  | condemn : s.phase = .checked false → Steps p s t .condemn { s with phase := .leaving .judge }
  | lose {earliest : Nat} {well : Bool} : s.phase = .up earliest →
      Steps p s t (.lose well) { s with phase := .lost well (t - s.since) }
  | stop {earliest : Nat} : s.phase = .up earliest →
      Steps p s t .stop { s with phase := .leaving .stop }
  | renew {earliest : Nat} {forgives : Bool} : s.phase = .up earliest →
      Steps p s t (.renew forgives)
        { s with phase := .leaving .replace, failures := if forgives then 0 else s.failures }
  | expire {earliest : Nat} : s.phase = .up earliest → p.expired t →
      Steps p s t .expire { s with phase := .leaving .stop }
  | ask {purpose : Purpose} : s.phase = .leaving purpose → Steps p s t .ask s
  | decide {well : Bool} {life : Nat} : s.Mourns t well life →
      Steps p s t (.decide well life (p.judge s.failures well life).1)
        { s with
          phase := (p.judge s.failures well life).1.phase p t
          failures := (p.judge s.failures well life).2 }

/-- What a keeper may do from one state to another, with the times. -/
inductive Path (p : Policy) : State → List (Nat × Act) → State → Prop
  | nil (s : State) : Path p s [] s
  | cons {s u v : State} {t : Nat} {a : Act} {as : List (Nat × Act)} : Steps p s t a u →
      Path p u as v → Path p s ((t, a) :: as) v

section Path

variable {p : Policy} {s u v : State} {as bs : List (Nat × Act)}

theorem Steps.path {t : Nat} {a : Act} (h : Steps p s t a u) : Path p s [(t, a)] u :=
  .cons h (.nil u)

theorem Path.trans (h : Path p s as u) (h' : Path p u bs v) : Path p s (as ++ bs) v := by
  induction h with
  | nil => exact h'
  | cons hstep _ ih => exact .cons hstep (ih h')

/-- A path that is cut in two goes through a state in between. -/
theorem Path.of_append (h : Path p s (as ++ bs) v) : ∃ u, Path p s as u ∧ Path p u bs v := by
  induction as generalizing s with
  | nil => exact ⟨s, .nil s, h⟩
  | cons a as ih =>
    cases h with
    | cons hstep hrest =>
      obtain ⟨u, hu, hv⟩ := ih hrest
      exact ⟨u, .cons hstep hu, hv⟩

/-- While the process leaves it may be asked any number of times. -/
theorem Path.asks {purpose : Purpose} (h : s.phase = .leaving purpose)
    (has : ∀ a ∈ as, a.2 = .ask) : Path p s as s := by
  induction as with
  | nil => exact .nil s
  | cons a as ih =>
    obtain ⟨t, act⟩ := a
    obtain rfl : act = .ask := has _ List.mem_cons_self
    exact .cons (.ask h) (ih fun b hb => has b (List.mem_cons_of_mem _ hb))

end Path

/-- The acts that are attempts to start the process. -/
def Act.starts : Act → Bool
  | .start _ => true
  | _ => false

/-- The acts that ask for another process at once. -/
def Act.renews : Act → Bool
  | .renew _ => true
  | _ => false

/-- The decisions for another process. -/
def Act.retries : Act → Bool
  | .decide _ _ .again => true
  | _ => false

/-- The acts after which no failure counts. -/
def Policy.forgives (p : Policy) : Act → Bool
  | .renew forgives => forgives
  | .decide well life _ => well || decide (p.settled ≤ life)
  | _ => false

/-- A keeper owes a process if one is to be started. -/
def State.owed (s : State) : Nat :=
  match s.phase with
  | .due _ | .leaving .replace => 1
  | _ => 0

section Budget

variable {p : Policy} {s u v : State} {t : Nat} {a : Act} {as : List (Nat × Act)}

theorem State.Starts.owed (h : s.Starts t) : s.owed = 1 := by
  rcases h with h | ⟨earliest, h, -⟩ <;> rw [State.owed, h]

theorem State.Mourns.owed {well : Bool} {life : Nat} (h : s.Mourns t well life) : s.owed = 0 := by
  rcases h with h | ⟨h, -, -⟩ <;> rw [State.owed, h]

theorem countP_cons_toNat (f : Act → Bool) (t : Nat) (a : Act) (as : List (Nat × Act)) :
    ((t, a) :: as).countP (fun b => f b.2) = as.countP (fun b => f b.2) + (f a).toNat := by
  cases hf : f a <;> simp [hf]

/-- A start pays what is owed, and a retry or a renewal runs it up. -/
theorem Steps.accounts (h : Steps p s t a u) :
    a.starts.toNat + u.owed = s.owed + a.retries.toNat + a.renews.toNat := by
  cases h with
  | start hs => rw [hs.owed]; rfl
  | startFailed hs => rw [hs.owed]; rfl
  | @decide well life hs =>
    rw [hs.owed]
    cases (p.judge s.failures well life).1 <;> rfl
  | ask hs => simp [Act.starts, Act.retries, Act.renews]
  | check hs | checked hs | keep hs | condemn hs | lose hs | stop hs | renew hs | expire hs =>
    simp [State.owed, hs, Act.starts, Act.retries, Act.renews]

/-- Every start but the first answers a retry or a renewal. -/
theorem Path.accounts (h : Path p s as u) :
    as.countP (·.2.starts) + u.owed =
      s.owed + as.countP (·.2.retries) + as.countP (·.2.renews) := by
  induction h with
  | nil s => simp
  | @cons s u v t a as hstep _ ih =>
    have hone := hstep.accounts
    rw [countP_cons_toNat, countP_cons_toNat, countP_cons_toNat]
    omega

/-- A retry that forgives nothing has counted the failure, which was not one too many. -/
theorem Steps.retry {n : Nat} (h : Steps p s t a u) (hlimit : p.limit = some n)
    (hceiling : n ≤ p.ceiling) (hforgives : p.forgives a = false) (hretry : a.retries = true) :
    u.failures = s.failures + 1 ∧ s.failures + 1 < n := by
  cases h with
  | @decide well life hs =>
    simp only [Policy.forgives, Bool.or_eq_false_iff, decide_eq_false_iff_not] at hforgives
    obtain ⟨rfl, hsoon⟩ := hforgives
    have hagain : (p.judge s.failures false life).1 = .again := by
      cases hd : (p.judge s.failures false life).1 with
      | again => rfl
      | _ => rw [hd] at hretry; cases hretry
    simp only [Policy.judge, hsoon, hlimit, Option.any_some, Bool.false_eq_true, if_false,
      decide_eq_true_eq] at hagain ⊢
    split at hagain
    · cases hagain
    split at hagain
    · cases hagain
    · rename_i honce hless
      simp only [honce, hless, if_false, Bool.false_eq_true]
      omega
  | _ => cases hretry

/-- What is neither a retry nor forgiving leaves the count, or it is the last decision. -/
theorem Steps.failures_eq (h : Steps p s t a u) (hforgives : p.forgives a = false)
    (hretry : a.retries = false) : u.failures = s.failures ∨ u.phase = .over := by
  cases h with
  | @decide well life hs =>
    refine .inr ?_
    cases hd : (p.judge s.failures well life).1 with
    | again => rw [hd] at hretry; cases hretry
    | _ => rfl
  | @renew earliest forgives hs =>
    refine .inl ?_
    obtain rfl : forgives = false := hforgives
    rfl
  | _ => exact .inl rfl

/-- Where all is over nothing is done any more. -/
theorem Path.nil_of_over (h : Path p s as u) (hover : s.phase = .over) : as = [] := by
  cases h with
  | nil => rfl
  | cons hstep _ =>
    cases hstep with
    | start hs | startFailed hs =>
      rcases hs with hs | ⟨earliest, hs, -⟩ <;> simp [hover] at hs
    | decide hs => rcases hs with hs | ⟨hs, -, -⟩ <;> simp [hover] at hs
    | _ hs => simp [hover] at hs

/-- Where nothing is forgiven there are fewer retries than failures in a row are too many. -/
theorem Path.retries_lt {n : Nat} (h : Path p s as u) (hlimit : p.limit = some n)
    (hceiling : n ≤ p.ceiling) (hforgives : ∀ a ∈ as, p.forgives a.2 = false) :
    as.countP (·.2.retries) = 0 ∨ s.failures + as.countP (·.2.retries) < n := by
  induction h with
  | nil => exact .inl rfl
  | @cons s u v t a as hstep hrest ih =>
    have hown : p.forgives a = false := hforgives (t, a) List.mem_cons_self
    have hrec := ih fun b hb => hforgives b (List.mem_cons_of_mem _ hb)
    rw [countP_cons_toNat]
    cases hretry : a.retries with
    | true =>
      obtain ⟨hcount, hless⟩ := hstep.retry hlimit hceiling hown hretry
      rw [Bool.toNat_true]
      omega
    | false =>
      rw [Bool.toNat_false, Nat.add_zero]
      rcases hstep.failures_eq hown hretry with hcount | hover
      · rwa [hcount] at hrec
      · rw [hrest.nil_of_over hover]
        exact .inl rfl

/-- Where nothing is forgiven the starts are as many as failures in a row are too many, or
one, and the renewals besides. -/
theorem Path.starts_le {n : Nat} (h : Path p s as u) (hlimit : p.limit = some n)
    (hceiling : n ≤ p.ceiling) (hforgives : ∀ a ∈ as, p.forgives a.2 = false) :
    as.countP (·.2.starts) ≤ max n 1 + as.countP (·.2.renews) := by
  have hpaid := h.accounts
  have howed : s.owed ≤ 1 := by
    unfold State.owed
    split <;> simp
  rcases h.retries_lt hlimit hceiling hforgives with hnone | hfew <;> omega

end Budget

end Keeper
