import Mathlib.Data.List.Basic
import Mathlib.InformationTheory.Coding.UniquelyDecodable

/-!
# Words that end in a delimiter

A word is framed by a delimiter if it ends in it and has it nowhere else. No framed word
begins another one, so a list of them is read back from its concatenation.
-/

namespace Framing

open InformationTheory

variable {α : Type*} {d : α} {w v : List α}

/-- The word ends in the delimiter, which stands nowhere else in it. -/
def Framed (d : α) (w : List α) : Prop := ∃ body, w = body ++ [d] ∧ d ∉ body

/-- A word without the delimiter is framed by adding it. -/
theorem Framed.concat {body : List α} (h : d ∉ body) : Framed d (body ++ [d]) := ⟨body, rfl, h⟩

theorem Framed.ne_nil (h : Framed d w) : w ≠ [] := by
  obtain ⟨body, rfl, -⟩ := h
  simp

/-- The delimiter occurs once in a framed word. -/
theorem Framed.count_eq_one [BEq α] [LawfulBEq α] (h : Framed d w) : w.count d = 1 := by
  obtain ⟨body, rfl, hbody⟩ := h
  rw [List.count_append, List.count_eq_zero.mpr hbody, List.count_singleton_self]

theorem Framed.getLast? (h : Framed d w) : w.getLast? = some d := by
  obtain ⟨body, rfl, -⟩ := h
  rw [List.getLast?_concat]

/-- What precedes the first delimiter of a list is determined by the list. -/
theorem append_cons_inj_of_notMem {body body' xs ys : List α} (hbody : d ∉ body)
    (hbody' : d ∉ body') (h : body ++ d :: xs = body' ++ d :: ys) : body = body' ∧ xs = ys := by
  induction body generalizing body' with
  | nil =>
    cases body' with
    | nil => exact ⟨rfl, List.cons_inj_right d |>.mp h⟩
    | cons b body' =>
      obtain ⟨rfl, -⟩ := List.cons_eq_cons.mp h
      exact absurd List.mem_cons_self hbody'
  | cons a body ih =>
    cases body' with
    | nil =>
      obtain ⟨rfl, -⟩ := List.cons_eq_cons.mp h
      exact absurd List.mem_cons_self hbody
    | cons b body' =>
      obtain ⟨rfl, htail⟩ := List.cons_eq_cons.mp h
      obtain ⟨rfl, hxs⟩ := ih (List.not_mem_of_not_mem_cons hbody)
        (List.not_mem_of_not_mem_cons hbody') htail
      exact ⟨rfl, hxs⟩

/-- A framed word at the start of a list is determined by the list. -/
theorem Framed.append_inj (hw : Framed d w) (hv : Framed d v) {xs ys : List α}
    (h : w ++ xs = v ++ ys) : w = v ∧ xs = ys := by
  obtain ⟨body, rfl, hbody⟩ := hw
  obtain ⟨body', rfl, hbody'⟩ := hv
  rw [List.append_assoc, List.append_assoc] at h
  obtain ⟨rfl, hrest⟩ := append_cons_inj_of_notMem hbody hbody' h
  exact ⟨rfl, hrest⟩

/-- Framed words are a uniquely decodable code. -/
theorem uniquelyDecodable_framed (d : α) : UniquelyDecodable {w : List α | Framed d w} := by
  intro ws vs hws hvs h
  induction ws generalizing vs with
  | nil =>
    cases vs with
    | nil => rfl
    | cons v vs =>
      have hne := (hvs v List.mem_cons_self).ne_nil
      simp [hne] at h
  | cons w ws ih =>
    cases vs with
    | nil =>
      have hne := (hws w List.mem_cons_self).ne_nil
      simp [hne] at h
    | cons v vs =>
      rw [List.flatten_cons, List.flatten_cons] at h
      obtain ⟨rfl, hrest⟩ := (hws w List.mem_cons_self).append_inj (hvs v List.mem_cons_self) h
      rw [ih vs (fun u hu => hws u (List.mem_cons_of_mem _ hu))
        (fun u hu => hvs u (List.mem_cons_of_mem _ hu)) hrest]

/-- Two lists are equal if their images under an injective framed code concatenate alike. -/
theorem flatMap_inj_of_framed {β : Type*} {code : β → List α} {p : β → Prop}
    (hcode : ∀ b, p b → Framed d (code b))
    (hinj : ∀ b c, p b → p c → code b = code c → b = c)
    {bs cs : List β} (hbs : ∀ b ∈ bs, p b) (hcs : ∀ c ∈ cs, p c)
    (h : bs.flatMap code = cs.flatMap code) : bs = cs := by
  have hwords : bs.map code = cs.map code := by
    refine uniquelyDecodable_framed d _ _ (fun w hw => ?_) (fun w hw => ?_) ?_
    · obtain ⟨b, hb, rfl⟩ := List.mem_map.mp hw
      exact hcode b (hbs b hb)
    · obtain ⟨c, hc, rfl⟩ := List.mem_map.mp hw
      exact hcode c (hcs c hc)
    · rwa [← List.flatMap_def, ← List.flatMap_def]
  clear h
  induction bs generalizing cs with
  | nil => exact (List.map_eq_nil_iff.mp hwords.symm).symm
  | cons b bs ih =>
    cases cs with
    | nil => cases hwords
    | cons c cs =>
      rw [List.map_cons, List.map_cons, List.cons.injEq] at hwords
      obtain rfl := hinj b c (hbs b List.mem_cons_self) (hcs c List.mem_cons_self) hwords.1
      rw [ih (fun x hx => hbs x (List.mem_cons_of_mem _ hx))
        (fun x hx => hcs x (List.mem_cons_of_mem _ hx)) hwords.2]

end Framing
