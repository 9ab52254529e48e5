import Mathlib.Data.List.Forall2

/-!
# Counting since the last reset

A sequence of events in which some count, some reset and the others do neither has
a tally: how many have counted since the last reset. The tally follows the
sequence step by step, and a counter that saturates keeps the tally up to its bound.
-/

namespace Tally

/-- What an event does to the tally. -/
inductive Weight where
  | count
  | reset
  | keep
  deriving DecidableEq, Repr

/-- How many events have counted since the last reset. -/
def since (ws : List Weight) : Nat := (ws.reverse.takeWhile (· ≠ .reset)).count .count

/-- The tally after one more event. -/
def step (n : Nat) : Weight → Nat
  | .count => n + 1
  | .reset => 0
  | .keep => n

/-- A counter that saturates at a bound. -/
def saturatingStep (bound n : Nat) : Weight → Nat
  | .count => min (n + 1) bound
  | .reset => 0
  | .keep => n

@[simp] theorem since_nil : since [] = 0 := rfl

@[simp] theorem since_append_singleton (ws : List Weight) (w : Weight) :
    since (ws ++ [w]) = step (since ws) w := by
  cases w <;> simp [since, step]

/-- The tally follows a sequence event by event. -/
theorem since_append (ws us : List Weight) : since (ws ++ us) = us.foldl step (since ws) := by
  induction us generalizing ws with
  | nil => simp
  | cons u us ih =>
    have := ih (ws ++ [u])
    rw [List.append_assoc, List.singleton_append] at this
    rw [this, since_append_singleton, List.foldl_cons]

/-- A counter that saturates holds the tally up to its bound. -/
theorem foldl_saturatingStep_min (bound n : Nat) (ws : List Weight) :
    ws.foldl (saturatingStep bound) (min n bound) = min (ws.foldl step n) bound := by
  induction ws generalizing n with
  | nil => rfl
  | cons w ws ih =>
    have hstep : saturatingStep bound (min n bound) w = min (step n w) bound := by
      cases w with
      | count =>
        simp only [saturatingStep, step]
        omega
      | reset => simp [saturatingStep, step]
      | keep => rfl
    rw [List.foldl_cons, List.foldl_cons, hstep, ih]

/-- Events that change nothing leave the tally. -/
theorem since_append_keep {ws us : List Weight} (h : ∀ u ∈ us, u = .keep) :
    since (ws ++ us) = since ws := by
  rw [since_append]
  induction us with
  | nil => rfl
  | cons u us ih =>
    rw [List.foldl_cons, h u List.mem_cons_self]
    exact ih fun v hv => h v (List.mem_cons_of_mem _ hv)

/-- The tally has stayed below a limit from the start. -/
def Below (limit : Nat) (ws : List Weight) : Prop := ∀ us, us <+: ws → since us < limit

theorem Below.since {limit : Nat} {ws : List Weight} (h : Below limit ws) : since ws < limit :=
  h ws (List.prefix_refl ws)

/-- One more event after which the tally is below the limit. -/
theorem Below.append_singleton {limit : Nat} {ws : List Weight} {w : Weight}
    (h : Below limit ws) (hw : Tally.since (ws ++ [w]) < limit) : Below limit (ws ++ [w]) := by
  intro us hus
  rcases List.prefix_concat_iff.mp hus with rfl | hus
  · exact hw
  · exact h us hus

/-- Events that do not count cannot reach the limit. -/
theorem Below.append {limit : Nat} {ws us : List Weight} (h : Below limit ws)
    (hus : ∀ u ∈ us, u ≠ .count) : Below limit (ws ++ us) := by
  induction us generalizing ws with
  | nil => simpa using h
  | cons u us ih =>
    have hstep : Below limit (ws ++ [u]) := by
      refine h.append_singleton ?_
      have := h.since
      rw [since_append_singleton]
      cases u with
      | count => exact absurd rfl (hus _ List.mem_cons_self)
      | reset => simp only [step]; omega
      | keep => exact this
    have := ih hstep fun v hv => hus v (List.mem_cons_of_mem _ hv)
    rwa [List.append_assoc, List.singleton_append] at this

/-- An event that leaves the tally no higher than another would. -/
inductive Weight.Lighter : Weight → Weight → Prop
  | refl (w : Weight) : Lighter w w
  | reset (w : Weight) : Lighter .reset w
  | count (w : Weight) : Lighter w .count

/-- Nothing is heavier than an event that counts. -/
theorem Weight.Lighter.eq_count {w : Weight} (h : Weight.Lighter .count w) : w = .count := by
  cases h <;> rfl

theorem saturatingStep_le {bound n : Nat} (h : n ≤ bound) (w : Weight) :
    saturatingStep bound n w ≤ bound := by
  cases w with
  | count => exact Nat.min_le_right _ _
  | reset => exact Nat.zero_le _
  | keep => exact h

/-- A lighter event keeps a smaller counter the smaller one. -/
theorem saturatingStep_mono {bound m n : Nat} {w v : Weight} (h : w.Lighter v) (hmn : m ≤ n)
    (hm : m ≤ bound) : saturatingStep bound m w ≤ saturatingStep bound n v := by
  cases h with
  | refl w =>
    cases w with
    | count =>
      simp only [saturatingStep]
      omega
    | reset => exact Nat.le_refl _
    | keep => exact hmn
  | reset => exact Nat.zero_le _
  | count w =>
    simp only [saturatingStep]
    cases w with
    | count => simp only; omega
    | reset => exact Nat.zero_le _
    | keep => simp only; omega

/-- Lighter events keep a smaller counter the smaller one throughout. -/
theorem foldl_saturatingStep_mono {bound m n : Nat} {ws vs : List Weight}
    (h : List.Forall₂ Weight.Lighter ws vs) (hmn : m ≤ n) (hm : m ≤ bound) :
    ws.foldl (saturatingStep bound) m ≤ vs.foldl (saturatingStep bound) n := by
  induction h generalizing m n with
  | nil => exact hmn
  | cons hwv _ ih => exact ih (saturatingStep_mono hwv hmn hm) (saturatingStep_le hm _)

/-- Events that change nothing leave the counter. -/
theorem foldl_saturatingStep_keep {bound n : Nat} {ws : List Weight} (h : ∀ w ∈ ws, w = .keep) :
    ws.foldl (saturatingStep bound) n = n := by
  induction ws with
  | nil => rfl
  | cons w ws ih =>
    rw [List.foldl_cons, h w List.mem_cons_self]
    exact ih fun v hv => h v (List.mem_cons_of_mem _ hv)

end Tally
