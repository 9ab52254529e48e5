import Mathlib.Data.List.Basic

/-!
# Events that keep their distance

In a sequence of timed events some are paced and some are credits. Where any two
consecutive paced events have a credit between them or a gap in time, the number of
paced events in a window is bounded by its length and its credits.
-/

namespace Pacing

variable {β : Type} (time : β → Nat) (paced credit : β → Bool) (gap : Nat)

/-- Consecutive paced events are a gap apart, unless a credit comes between them. -/
def Spaced (es : List β) : Prop :=
  ∀ a e mid f b, es = a ++ e :: (mid ++ f :: b) → paced e = true → paced f = true →
    (∀ x ∈ mid, paced x = false) →
    time e ≤ time f ∧ ((∃ x ∈ mid, credit x = true) ∨ time e + gap ≤ time f)

variable {time paced credit gap}

/-- A sequence with a paced event has a first one. -/
theorem exists_first {es : List β} (h : ∃ x ∈ es, paced x = true) :
    ∃ a x b, es = a ++ x :: b ∧ paced x = true ∧ ∀ y ∈ a, paced y = false := by
  induction es with
  | nil => simp at h
  | cons e es ih =>
    cases he : paced e with
    | true => exact ⟨[], e, es, rfl, he, by simp⟩
    | false =>
      have hrest : ∃ x ∈ es, paced x = true := by
        obtain ⟨x, hx, hpaced⟩ := h
        rcases List.mem_cons.mp hx with rfl | hx
        · rw [he] at hpaced
          cases hpaced
        · exact ⟨x, hx, hpaced⟩
      obtain ⟨a, x, b, rfl, hx, ha⟩ := ih hrest
      refine ⟨e :: a, x, b, rfl, hx, fun y hy => ?_⟩
      rcases List.mem_cons.mp hy with rfl | hy
      · exact he
      · exact ha y hy

/-- In a window between two paced events every paced event but the first costs a gap of time,
or a credit. -/
theorem Spaced.rate {es : List β} (h : Spaced time paced credit gap es) {a mid b : List β}
    {e f : β} (hes : es = a ++ e :: (mid ++ f :: b)) (he : paced e = true)
    (hf : paced f = true) :
    (mid.countP paced + 1) * gap + time e ≤ mid.countP credit * gap + time f := by
  induction hn : mid.length using Nat.strongRecOn generalizing a e mid with
  | ind n ih =>
    by_cases hmid : ∃ x ∈ mid, paced x = true
    · obtain ⟨m, x, m', rfl, hx, hm⟩ := exists_first hmid
      have hfirst := h a e m x (m' ++ f :: b) (by simpa using hes) he hx hm
      have hlater := ih m'.length (by simp only [← hn, List.length_append, List.length_cons]; omega)
        (a := a ++ e :: m) (e := x) (by simpa using hes) hx rfl
      have hnone : m.countP paced = 0 := by
        rw [List.countP_eq_zero]
        intro y hy
        simp [hm y hy]
      simp only [List.countP_append, List.countP_cons, hnone, hx, if_true, Nat.add_mul,
        Nat.one_mul] at hlater ⊢
      rcases hfirst.2 with ⟨y, hy, hcredit⟩ | hgap
      · have hpos : 0 < m.countP credit := List.countP_pos_iff.mpr ⟨y, hy, hcredit⟩
        have hpaid : gap ≤ m.countP credit * gap := Nat.le_mul_of_pos_left gap hpos
        have := hfirst.1
        omega
      · omega
    · have hnone : ∀ x ∈ mid, paced x = false := by
        intro x hx
        by_contra hpaced
        exact hmid ⟨x, hx, by simpa using hpaced⟩
      have hzero : mid.countP paced = 0 := by
        rw [List.countP_eq_zero]
        intro y hy
        simp [hnone y hy]
      obtain ⟨hle, hcredit | hgap⟩ := h a e mid f b hes he hf hnone
      · obtain ⟨y, hy, hc⟩ := hcredit
        have hpos : 0 < mid.countP credit := List.countP_pos_iff.mpr ⟨y, hy, hc⟩
        have hpaid : gap ≤ mid.countP credit * gap := Nat.le_mul_of_pos_left gap hpos
        rw [hzero]
        omega
      · rw [hzero]
        omega

end Pacing
