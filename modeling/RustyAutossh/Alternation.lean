import Mathlib.Data.List.Chain
import Mathlib.Data.List.TakeWhile

/-!
# Items of two kinds that alternate

Some items of a list open a stretch, some close one, and the others do neither. The two
kinds alternate if no two neighbours among them are of one kind. Then a stretch from one
opening item to the next is closed exactly once, and the last stretch at most once.
-/

namespace Alternation

variable {α : Type*}

/-- Among the items of the two kinds, no two neighbours are of one kind. -/
def Alternates (opens closes : α → Bool) (as : List α) : Prop :=
  (as.filter fun a => opens a || closes a).IsChain fun a b => opens a ≠ opens b

/-- The stretch from the opening item after the first `n` up to the next one. -/
structure Stretch (opens : α → Bool) (as : List α) (n : Nat) (b : List α) : Prop where
  split : ∃ a o c, as = a ++ o :: (b ++ c) ∧ opens o = true ∧ a.countP opens = n ∧
    ∀ x, c.head? = some x → opens x = true
  inner : b.countP opens = 0

variable {opens closes : α → Bool}

/-- A list with more than `n` opening items has a stretch after the first `n`. -/
theorem exists_stretch {as : List α} {n : Nat} (h : n < as.countP opens) :
    ∃ b, Stretch opens as n b := by
  induction as generalizing n with
  | nil => simp at h
  | cons x as ih =>
    by_cases hx : opens x = true
    · cases n with
      | zero =>
        refine ⟨as.takeWhile fun a => !opens a, ⟨[], x, as.dropWhile fun a => !opens a, ?_, hx,
          rfl, fun y hy => ?_⟩, ?_⟩
        · rw [List.takeWhile_append_dropWhile, List.nil_append]
        · have := List.head?_dropWhile_not (fun a => !opens a) as
          simpa [hy] using this
        · rw [List.countP_eq_zero]
          intro y hy
          simpa using List.mem_takeWhile_imp hy
      | succ n =>
        rw [List.countP_cons_of_pos hx] at h
        obtain ⟨b, ⟨a, o, c, rfl, ho, hn, hc⟩, hb⟩ := ih (Nat.lt_of_succ_lt_succ h)
        exact ⟨b, ⟨x :: a, o, c, rfl, ho, by rw [List.countP_cons_of_pos hx, hn], hc⟩, hb⟩
    · rw [List.countP_cons_of_neg hx] at h
      obtain ⟨b, ⟨a, o, c, rfl, ho, hn, hc⟩, hb⟩ := ih h
      exact ⟨b, ⟨x :: a, o, c, rfl, ho, by rw [List.countP_cons_of_neg hx, hn], hc⟩, hb⟩

/-- The beginning of a list that alternates alternates. -/
theorem Alternates.left_of_append {as bs : List α} (h : Alternates opens closes (as ++ bs)) :
    Alternates opens closes as := by
  rw [Alternates, List.filter_append] at h
  exact h.left_of_append

/-- A list that is opened last goes on alternating with one that closes first. -/
theorem Alternates.append {as bs : List α} (h : Alternates opens closes as)
    (h' : Alternates opens closes bs)
    (hjoin : ∀ x y, (as.filter fun a => opens a || closes a).getLast? = some x →
      (bs.filter fun a => opens a || closes a).head? = some y → opens x ≠ opens y) :
    Alternates opens closes (as ++ bs) := by
  rw [Alternates, List.filter_append, List.isChain_append]
  exact ⟨h, h', fun x hx y hy => hjoin x y hx hy⟩

/-- Where nothing is opened, the items of the two kinds are those that close. -/
theorem filter_of_inner {b : List α} (hb : b.countP opens = 0) :
    (b.filter fun a => opens a || closes a) = b.filter closes := by
  refine List.filter_congr fun x hx => ?_
  have := List.countP_eq_zero.mp hb x hx
  simp [this]

/-- A stretch of a list that alternates is closed at most once, and if it is not closed it is
the last one and the list is opened last. -/
theorem Alternates.stretch {as b : List α} {n : Nat} (h : Alternates opens closes as)
    (hb : Stretch opens as n b) :
    (∃ x, b.filter closes = [x]) ∨ b.filter closes = [] ∧ as.countP opens = n + 1 ∧
      ∃ x, (as.filter fun a => opens a || closes a).getLast? = some x ∧ opens x = true := by
  obtain ⟨⟨a, o, c, rfl, ho, hn, hc⟩, hinner⟩ := hb
  have hno : ∀ x ∈ b.filter closes, opens x = false := fun x hx => by
    simpa using List.countP_eq_zero.mp hinner x (List.mem_of_mem_filter hx)
  rw [Alternates, List.filter_append] at h
  have hchain := h.right_of_append
  rw [List.filter_cons_of_pos (by simp [ho]), List.filter_append, filter_of_inner hinner] at hchain
  cases hclosed : b.filter closes with
  | nil =>
    rw [hclosed] at hchain
    cases c with
    | nil =>
      refine .inr ⟨rfl, ?_, o, ?_, ho⟩
      · simp [List.countP_append, List.countP_cons_of_pos ho, hn, hinner]
      · rw [List.filter_append, List.filter_cons_of_pos (by simp [ho]), List.append_nil,
          filter_of_inner hinner, hclosed, List.getLast?_concat]
    | cons o' c =>
      have ho' := hc o' rfl
      rw [List.nil_append, List.filter_cons_of_pos (by simp [ho'])] at hchain
      exact absurd (ho.trans ho'.symm) (List.isChain_cons_cons.mp hchain).1
  | cons x xs =>
    rw [hclosed] at hchain hno
    cases xs with
    | nil => exact .inl ⟨x, rfl⟩
    | cons y ys =>
      have hxy := (List.isChain_cons_cons.mp (List.isChain_cons_cons.mp hchain).2).1
      exact absurd ((hno x (by simp)).trans (hno y (by simp)).symm) hxy

/-- A stretch that another one follows is closed exactly once. -/
theorem Alternates.between {as a b c : List α} {o o' : α} (h : Alternates opens closes as)
    (heq : as = a ++ o :: (b ++ o' :: c)) (ho : opens o = true) (ho' : opens o' = true)
    (hb : b.countP opens = 0) : ∃ x, b.filter closes = [x] := by
  have hstretch : Stretch opens as (a.countP opens) b :=
    ⟨⟨a, o, o' :: c, heq, ho, rfl, by simp [ho']⟩, hb⟩
  refine (h.stretch hstretch).resolve_right fun ⟨_, hcount, _⟩ => ?_
  rw [heq, List.countP_append, List.countP_cons_of_pos ho, List.countP_append,
    List.countP_cons_of_pos ho'] at hcount
  omega

end Alternation
