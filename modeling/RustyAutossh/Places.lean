import Mathlib.Data.List.Basic

/-!
# Items in their places

A predicate on positions says what may stand before an item and after it. A list fits
if every item of it does, which is decided item by item along the list.
-/

namespace Places

variable {α : Type*} {p q : List α → α → List α → Prop}

/-- Every item of a stretch stands where it may, given what precedes the stretch. -/
def Fits (p : List α → α → List α → Prop) : List α → List α → Prop
  | _, [] => True
  | before, a :: after => p before a after ∧ Fits p (before ++ [a]) after

@[simp] theorem fits_nil (before : List α) : Fits p before [] := trivial

@[simp] theorem fits_cons {before after : List α} {a : α} :
    Fits p before (a :: after) ↔ p before a after ∧ Fits p (before ++ [a]) after :=
  Iff.rfl

/-- A place that is allowed in a stretch is allowed in any list the stretch begins. -/
theorem Fits.append {before as bs : List α} (h : Fits p before as)
    (hgrow : ∀ b a c, p b a c → q b a (c ++ bs)) (h' : Fits q (before ++ as) bs) :
    Fits q before (as ++ bs) := by
  induction as generalizing before with
  | nil => simpa using h'
  | cons a as ih =>
    refine ⟨hgrow _ _ _ h.1, ih h.2 ?_⟩
    rw [List.append_assoc]
    exact h'

/-- An item of a list that fits stands where it may. -/
theorem Fits.place {before as b c : List α} {a : α} (h : Fits p before as)
    (heq : as = b ++ a :: c) : p (before ++ b) a c := by
  induction b generalizing before as with
  | nil =>
    subst heq
    simpa using h.1
  | cons x b ih =>
    subst heq
    have := ih h.2 rfl
    rwa [List.append_assoc] at this

end Places
