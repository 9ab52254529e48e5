import RustyAutossh.Async.Logic

/-!
# Runtimes seen through an abstraction

A runtime with more detail refines a coarser one if its polls answer alike and each action
of its environment amounts to one of the coarser environment. Every execution on the first
is then one of the same program on the second, over a script as long, so what holds of
every execution on the coarser runtime holds on the finer one.
-/

namespace Async

variable {Op : Type} {Ans : Op → Type} {ρ α σ τ ε δ : Type}

/-- An execution on the finer runtime and what is seen of it: the same end, the state
abstracted, and as much of the script unused. -/
structure Outcome.Shows (abs : τ → σ) (fine : Outcome ρ α τ δ) (o : Outcome ρ α σ ε) : Prop where
  out : o.out = fine.out
  state : o.state = abs fine.state
  rest : o.rest.length = fine.rest.length

namespace Runtime

/-- The first runtime is the second one in more detail. -/
structure Refines (fine : Runtime Op Ans τ δ) (rt : Runtime Op Ans σ ε) (abs : τ → σ) : Prop where
  poll : ∀ op s, rt.poll op (abs s) = ((fine.poll op s).1, abs (fine.poll op s).2)
  act : ∀ d s, ∃ e, rt.act e (abs s) = abs (fine.act d s)

variable {fine : Runtime Op Ans τ δ} {rt : Runtime Op Ans σ ε} {abs : τ → σ}

/-- The script used up for an answer can be told to the coarser runtime. -/
theorem Refines.exists_await (h : fine.Refines rt abs) {op : Op} {script rest : List δ} {s t : τ}
    {r : Option (Ans op)} (hawait : fine.await op script s = (r, t, rest)) :
    ∃ told : List ε, told.length + rest.length = script.length ∧
      ∀ left : List ε, left.length = rest.length →
        rt.await op (told ++ left) (abs s) = (r, abs t, left) := by
  induction script generalizing s with
  | nil =>
    cases hawait
    refine ⟨[], rfl, fun left hleft => ?_⟩
    obtain rfl := List.length_eq_zero_iff.mp hleft
    simp only [List.nil_append, await, h.poll]
  | cons d script ih =>
    rw [await] at hawait
    cases hp : (fine.poll op s).1 with
    | some a =>
      rw [hp] at hawait
      cases hawait
      refine ⟨[], Nat.zero_add _, fun left hleft => ?_⟩
      cases left with
      | nil => cases hleft
      | cons e left => simp only [List.nil_append, await, h.poll, hp]
    | none =>
      rw [hp] at hawait
      obtain ⟨told, hlen, htold⟩ := ih hawait
      obtain ⟨e, he⟩ := h.act d (fine.poll op s).2
      refine ⟨e :: told, by simp only [List.length_cons]; omega, fun left hleft => ?_⟩
      simp only [List.cons_append, await, h.poll, hp, he]
      exact htold left hleft

/-- Every execution on the finer runtime is one on the coarser runtime, suspended at the same
operation if it is suspended. -/
theorem Refines.exists_script (h : fine.Refines rt abs) (p : Prog Op Ans ρ α) (script : List δ)
    (s : τ) : ∃ told : List ε, told.length = script.length ∧
      (fine.drive p script s).Shows abs (rt.drive p told (abs s)) ∧
      rt.suspension p told (abs s) =
        (fine.suspension p script s).map fun q => (q.1, abs q.2) := by
  have hover : ∃ told : List ε, told.length = script.length :=
    ⟨script.map fun d => (h.act d s).choose, List.length_map _⟩
  induction p generalizing script s with
  | ret a =>
    obtain ⟨told, hlen⟩ := hover
    exact ⟨told, hlen, ⟨rfl, rfl, hlen⟩, rfl⟩
  | fail e =>
    obtain ⟨told, hlen⟩ := hover
    exact ⟨told, hlen, ⟨rfl, rfl, hlen⟩, rfl⟩
  | abort =>
    obtain ⟨told, hlen⟩ := hover
    exact ⟨told, hlen, ⟨rfl, rfl, hlen⟩, rfl⟩
  | call op k ih =>
    rcases hawait : fine.await op script s with ⟨r, t, rest⟩
    obtain ⟨told, hlen, htold⟩ := h.exists_await hawait
    have hrest : ∃ left : List ε, left.length = rest.length :=
      ⟨rest.map fun d => (h.act d s).choose, List.length_map _⟩
    cases r with
    | none =>
      obtain ⟨left, hleft⟩ := hrest
      refine ⟨told ++ left, by rw [List.length_append, hleft, hlen], ?_, ?_⟩
      · simp only [drive, hawait, htold left hleft]
        exact ⟨rfl, rfl, hleft⟩
      · simp only [suspension, hawait, htold left hleft, Option.map_some]
    | some a =>
      obtain ⟨left, hleft, hshows, hsusp⟩ := ih a rest t hrest
      refine ⟨told ++ left, by rw [List.length_append, hleft, hlen], ?_, ?_⟩
      · simp only [drive, hawait, htold left hleft]
        exact hshows
      · simp only [suspension, hawait, htold left hleft]
        exact hsusp

theorem Refines.waits (h : fine.Refines rt abs) {op : Op} {s t : τ} (hw : fine.Waits op s t) :
    rt.Waits op (abs s) (abs t) := by
  induction hw with
  | here => exact .here _
  | @wake s t d hnone _ ih =>
    obtain ⟨e, he⟩ := h.act d (fine.poll op s).2
    refine .wake e (by rw [h.poll, hnone]) ?_
    rw [h.poll, he]
    exact ih

theorem Refines.answers (h : fine.Refines rt abs) {op : Op} {s t : τ} {a : Ans op}
    (ha : fine.Answers op s a t) : rt.Answers op (abs s) a (abs t) := by
  obtain ⟨u, hw, hp⟩ := ha
  exact ⟨abs u, h.waits hw, by rw [h.poll, hp]⟩

/-- A postcondition of the coarser runtime is one of the finer runtime. -/
theorem Refines.wp (h : fine.Refines rt abs) {Q : Post ρ α σ} {p : Prog Op Ans ρ α} {s : τ}
    (hp : rt.wp Q p (abs s)) : fine.wp ⟨fun a t => Q.ret a (abs t), fun e t => Q.fail e (abs t),
      fun t => Q.abort (abs t)⟩ p s := by
  induction p generalizing s with
  | ret a => exact hp
  | fail e => exact hp
  | abort => exact hp
  | call op k ih => exact fun a t ha => ih a (hp a (abs t) (h.answers ha))

end Runtime

end Async
