import Mathlib.Data.List.Basic

/-!
# Histories that follow a law

A law says which item may come after which items. A history follows it if each of its
items may come after those before it, so a history that is cut short still does.
-/

namespace Discipline

variable {α : Type} {law : List α → α → Prop} {es fs : List α}

/-- Every item of the history is lawful after the items before it. -/
def Follows (law : List α → α → Prop) (es : List α) : Prop :=
  ∀ before e after, es = before ++ e :: after → law before e

theorem follows_nil : Follows law [] := by
  intro before e after h
  simp at h

/-- One more item has to be lawful after all the others. -/
theorem Follows.concat {e : α} (h : Follows law es) (he : law es e) : Follows law (es ++ [e]) := by
  intro before f after hsplit
  rcases List.append_eq_append_iff.mp hsplit with ⟨mid, rfl, hmid⟩ | ⟨mid, rfl, hmid⟩
  · cases mid with
    | nil =>
      simp only [List.nil_append, List.cons.injEq] at hmid
      obtain ⟨rfl, -⟩ := hmid
      rwa [List.append_nil]
    | cons g mid => simp at hmid
  · cases mid with
    | nil =>
      simp only [List.nil_append, List.cons.injEq] at hmid
      obtain ⟨rfl, -⟩ := hmid
      rwa [List.append_nil] at he
    | cons g mid =>
      simp only [List.cons_append, List.cons.injEq] at hmid
      obtain ⟨rfl, rfl⟩ := hmid
      exact h before f mid rfl

/-- The beginning of a lawful history is lawful. -/
theorem Follows.of_prefix (h : Follows law fs) (hle : es <+: fs) : Follows law es := by
  obtain ⟨rest, rfl⟩ := hle
  intro before e after hsplit
  exact h before e (after ++ rest) (by simp [hsplit])

/-- Items that the law allows anywhere may follow. -/
theorem Follows.append (h : Follows law es) (hfs : ∀ e ∈ fs, ∀ past, law past e) :
    Follows law (es ++ fs) := by
  induction fs generalizing es with
  | nil => rwa [List.append_nil]
  | cons e fs ih =>
    have hnext := ih (h.concat (hfs e (by simp) es)) fun f hf => hfs f (by simp [hf])
    simpa using hnext

end Discipline
