import RustyAutossh.Async.Logic

/-!
# Executions between two actions of the environment

On the frozen host nothing happens between two polls, so an operation is answered at
once or never. What a program does before its environment acts again is its execution
on the frozen host, and an execution that leaves its script untouched is one of these.
-/

namespace Async

namespace Runtime

variable {Op : Type} {Ans : Op → Type} {ρ α σ ε : Type}

/-- The host until its environment acts again. -/
def frozen (rt : Runtime Op Ans σ ε) : Runtime Op Ans σ Empty where
  poll := rt.poll
  act e _ := e.elim

variable {rt : Runtime Op Ans σ ε}

/-- A frozen host answers an operation at once or never. -/
theorem frozen_answers_iff {op : Op} {s t : σ} {a : Ans op} :
    rt.frozen.Answers op s a t ↔ rt.poll op s = (some a, t) := by
  constructor
  · rintro ⟨u, hw, hp⟩
    cases hw with
    | here => exact hp
    | wake e => exact e.elim
  · exact fun h => ⟨s, .here s, h⟩

/-- The execution over the empty script is the frozen one. -/
theorem drive_nil_eq_frozen (p : Prog Op Ans ρ α) (s : σ) :
    (rt.drive p [] s).out = (rt.frozen.drive p [] s).out ∧
      (rt.drive p [] s).state = (rt.frozen.drive p [] s).state := by
  induction p generalizing s with
  | ret a => exact ⟨rfl, rfl⟩
  | fail e => exact ⟨rfl, rfl⟩
  | abort => exact ⟨rfl, rfl⟩
  | call op k ih =>
    have hpoll : rt.frozen.poll op s = rt.poll op s := rfl
    simp only [drive, await, hpoll]
    cases (rt.poll op s).1 with
    | some a => exact ih a _
    | none => exact ⟨rfl, rfl⟩

/-- So it meets every postcondition whose precondition holds on the frozen host. -/
theorem wp_frozen_sound {Q : Post ρ α σ} {p : Prog Op Ans ρ α} {s : σ}
    (h : rt.frozen.wp Q p s) : Q.holds (rt.drive p [] s).out (rt.drive p [] s).state := by
  have hdrive : (rt.drive p [] s).out = _ ∧ (rt.drive p [] s).state = _ :=
    drive_nil_eq_frozen p s
  rw [hdrive.1, hdrive.2]
  exact wp_sound h []

/-- Waiting uses up the script from its front. -/
theorem await_rest_suffix (op : Op) (script : List ε) (s : σ) :
    (rt.await op script s).2.2 <:+ script := by
  induction script generalizing s with
  | nil => exact List.suffix_rfl
  | cons e script ih =>
    simp only [await]
    split
    · exact List.suffix_rfl
    · exact (ih _).trans (List.suffix_cons e script)

/-- An execution uses up its script from its front. -/
theorem drive_rest_suffix (p : Prog Op Ans ρ α) (script : List ε) (s : σ) :
    (rt.drive p script s).rest <:+ script := by
  induction p generalizing script s with
  | ret a => exact List.suffix_rfl
  | fail e => exact List.suffix_rfl
  | abort => exact List.suffix_rfl
  | call op k ih =>
    have hawait : (rt.await op script s).2.2 <:+ script := await_rest_suffix op script s
    simp only [drive]
    split
    · rename_i a t rest heq
      rw [heq] at hawait
      exact (ih a rest t).trans hawait
    · rename_i t rest heq
      rw [heq] at hawait
      exact hawait

/-- An operation answered without an action of the environment is ready. -/
private theorem await_of_rest_eq {op : Op} {script : List ε} {s t : σ} {r : Option (Ans op)}
    (h : rt.await op script s = (r, t, script)) : rt.await op [] s = (r, t, []) := by
  cases script with
  | nil => exact h
  | cons e script =>
    simp only [await] at h ⊢
    split at h
    · rename_i a ha
      simp only [Prod.mk.injEq] at h
      rw [ha, h.1, h.2.1]
    · have hsuffix : (rt.await op script (rt.act e (rt.poll op s).2)).2.2 <:+ script :=
        await_rest_suffix op script _
      rw [h] at hsuffix
      exact absurd hsuffix.length_le (by simp)

/-- An execution that leaves its script untouched is the one over the empty script. -/
theorem drive_of_rest_eq {p : Prog Op Ans ρ α} {script : List ε} {s t : σ} {out : End ρ α}
    (h : rt.drive p script s = ⟨out, t, script⟩) : rt.drive p [] s = ⟨out, t, []⟩ := by
  induction p generalizing s with
  | ret a =>
    cases h
    rfl
  | fail e =>
    cases h
    rfl
  | abort =>
    cases h
    rfl
  | call op k ih =>
    simp only [drive] at h ⊢
    cases hawait : rt.await op script s with
    | mk r tr =>
      obtain ⟨u, rest⟩ := tr
      have hsuffix : rest <:+ script := by
        have hrest : (rt.await op script s).2.2 <:+ script := await_rest_suffix op script s
        rwa [hawait] at hrest
      rw [hawait] at h
      cases r with
      | some a =>
        dsimp only at h
        have hdrive : (rt.drive (k a) rest u).rest <:+ rest := drive_rest_suffix _ _ _
        rw [h] at hdrive
        obtain rfl := hsuffix.eq_of_length_le hdrive.length_le
        rw [await_of_rest_eq hawait]
        exact ih a h
      | none =>
        cases h
        rw [await_of_rest_eq hawait]

end Runtime

end Async
