import RustyAutossh.Async.Logic

/-!
# Programs with a typestate

A typestate is noted along a program from the answers it gets. `Obeys` says which operations
a program may issue in which typestate, and how it may end there, whatever is answered;
`Along` says of one execution what holds each time an operation has been answered. An
invariant that these two keep together holds wherever the execution comes to.
-/

namespace Async

variable {Op : Type} {Ans : Op → Type} {κ ρ α β σ ε : Type}

namespace Prog

/-- In the typestate `g`, followed by `note`, the program issues operations that `P` allows,
and ends with values that `Q` and errors that `F` allows. -/
def Obeys (note : κ → (op : Op) → Ans op → κ) (P : κ → Op → Prop) (F : κ → ρ → Prop)
    (Q : κ → α → Prop) : Prog Op Ans ρ α → κ → Prop
  | ret a, g => Q g a
  | fail e, g => F g e
  | abort, _ => True
  | call op k, g => P g op ∧ ∀ r, Obeys note P F Q (k r) (note g op r)

variable {note : κ → (op : Op) → Ans op → κ} {P : κ → Op → Prop} {F : κ → ρ → Prop}

/-- A composition obeys where its first part leaves a typestate that its second part obeys in. -/
theorem obeys_bind {Q : κ → β → Prop} {p : Prog Op Ans ρ α} {f : α → Prog Op Ans ρ β} {g : κ} :
    (p >>= f).Obeys note P F Q g ↔
      p.Obeys note P F (fun g a => (f a).Obeys note P F Q g) g := by
  induction p generalizing g with
  | ret a => exact Iff.rfl
  | fail e => exact Iff.rfl
  | abort => exact Iff.rfl
  | call op k ih =>
    simp only [call_bind, Obeys]
    exact and_congr_right fun _ => forall_congr' fun r => ih r

/-- A kept `Result` may hold the errors that were allowed. -/
theorem obeys_attempt {Q : κ → Except ρ α → Prop} {p : Prog Op Ans ρ α} {g : κ} :
    p.attempt.Obeys note P F Q g ↔
      p.Obeys note P (fun g e => Q g (.error e)) (fun g a => Q g (.ok a)) g := by
  induction p generalizing g with
  | ret a => exact Iff.rfl
  | fail e => exact Iff.rfl
  | abort => exact Iff.rfl
  | call op k ih =>
    simp only [attempt, Obeys]
    exact and_congr_right fun _ => forall_congr' fun r => ih r

/-- What a program may return may be allowed more widely. -/
theorem Obeys.mono {Q Q' : κ → α → Prop} {p : Prog Op Ans ρ α} {g : κ}
    (hp : p.Obeys note P F Q g) (h : ∀ g a, Q g a → Q' g a) : p.Obeys note P F Q' g := by
  induction p generalizing g with
  | ret a => exact h g a hp
  | fail e => exact hp
  | abort => trivial
  | call op k ih => exact ⟨hp.1, fun r => ih r (hp.2 r)⟩

/-- A program whose operations leave the typestate alone obeys as it ends. -/
theorem Only.obeys {P' : Op → Prop} {Q : κ → α → Prop} {p : Prog Op Ans ρ α} {g : κ}
    (hp : p.Only P') (hop : ∀ op, P' op → P g op) (hnote : ∀ op r, P' op → note g op r = g)
    (hfail : ∀ e, F g e) (hret : ∀ a, Q g a) : p.Obeys note P F Q g := by
  induction p with
  | ret a => exact hret a
  | fail e => exact hfail e
  | abort => trivial
  | call op k ih =>
    refine ⟨hop op hp.1, fun r => ?_⟩
    rw [hnote op r hp.1]
    exact ih r (hp.2 r)

end Prog

namespace Runtime

/-- Along an execution each answer leaves a typestate and a state in which `φ` holds of the
operation that was answered. -/
def Along (rt : Runtime Op Ans σ ε) (note : κ → (op : Op) → Ans op → κ)
    (φ : κ → Op → σ → Prop) : Prog Op Ans ρ α → κ → List ε → σ → Prop
  | .ret _, _, _, _ => True
  | .fail _, _, _, _ => True
  | .abort, _, _, _ => True
  | .call op k, g, script, s =>
    match rt.await op script s with
    | (some a, t, rest) => φ (note g op a) op t ∧ Along rt note φ (k a) (note g op a) rest t
    | (none, _, _) => True

variable {rt : Runtime Op Ans σ ε} {note : κ → (op : Op) → Ans op → κ} {φ : κ → Op → σ → Prop}

theorem along_call {op : Op} {k : Ans op → Prog Op Ans ρ α} {g : κ} {script : List ε} {s : σ} :
    rt.Along note φ (.call op k) g script s ↔
      match rt.await op script s with
      | (some a, t, rest) =>
        φ (note g op a) op t ∧ rt.Along note φ (k a) (note g op a) rest t
      | (none, _, _) => True := by
  rw [Along]

/-- What is asked of an execution can be computed along it. -/
def decidableAlong (rt : Runtime Op Ans σ ε) (note : κ → (op : Op) → Ans op → κ)
    (φ : κ → Op → σ → Prop) [hφ : ∀ g op s, Decidable (φ g op s)] :
    (p : Prog Op Ans ρ α) → (g : κ) → (script : List ε) → (s : σ) →
      Decidable (rt.Along note φ p g script s)
  | .ret _, _, _, _ => .isTrue trivial
  | .fail _, _, _, _ => .isTrue trivial
  | .abort, _, _, _ => .isTrue trivial
  | .call op k, g, script, s =>
    have : Decidable (match rt.await op script s with
        | (some a, t, rest) =>
          φ (note g op a) op t ∧ rt.Along note φ (k a) (note g op a) rest t
        | (none, _, _) => True) :=
      match rt.await op script s with
      | (some a, t, rest) =>
        have := decidableAlong rt note φ (k a) (note g op a) rest t
        inferInstance
      | (none, _, _) => .isTrue trivial
    decidable_of_iff _ along_call.symm

instance (rt : Runtime Op Ans σ ε) (note : κ → (op : Op) → Ans op → κ) (φ : κ → Op → σ → Prop)
    [∀ g op s, Decidable (φ g op s)] (p : Prog Op Ans ρ α) (g : κ) (script : List ε) (s : σ) :
    Decidable (rt.Along note φ p g script s) :=
  rt.decidableAlong note φ p g script s

/-- Allowed operations preserve an invariant where their answers come as they are asked to;
`J` is what is left of it while one is pending. -/
structure Follows (rt : Runtime Op Ans σ ε) (note : κ → (op : Op) → Ans op → κ)
    (φ : κ → Op → σ → Prop) (P : κ → Op → Prop) (I : κ → σ → Prop) (J : σ → Prop) : Prop where
  answered : ∀ {g op s a t}, P g op → I g s → rt.Answers op s a t → φ (note g op a) op t →
    I (note g op a) t
  stalled : ∀ {g op s t}, P g op → I g s → rt.Stalls op s t → J t
  weaker : ∀ {g s}, I g s → J s

/-- What is left of the invariant holds wherever a program that obeys comes to, and one that
ends does so as it is allowed to, in a typestate in which the invariant holds. -/
theorem Follows.drive {P : κ → Op → Prop} {I : κ → σ → Prop} {J : σ → Prop}
    (h : rt.Follows note φ P I J) {F : κ → ρ → Prop} {Q : κ → α → Prop} {p : Prog Op Ans ρ α}
    {g : κ} {s : σ} (hp : p.Obeys note P F Q g) (hs : I g s) {script : List ε}
    (hφ : rt.Along note φ p g script s) : J (rt.drive p script s).state ∧
      ((rt.drive p script s).out ≠ .pending → ∃ g', I g' (rt.drive p script s).state ∧
        (∀ a, (rt.drive p script s).out = .ret a → Q g' a) ∧
        ∀ e, (rt.drive p script s).out = .fail e → F g' e) := by
  induction p generalizing g script s with
  | ret a =>
    exact ⟨h.weaker hs, fun _ => ⟨g, hs, fun _ ha => End.ret.inj ha ▸ hp, by simp [Runtime.drive]⟩⟩
  | fail e =>
    exact ⟨h.weaker hs, fun _ => ⟨g, hs, by simp [Runtime.drive], fun _ he => End.fail.inj he ▸ hp⟩⟩
  | abort =>
    exact ⟨h.weaker hs, fun _ => ⟨g, hs, by simp [Runtime.drive], by simp [Runtime.drive]⟩⟩
  | call op k ih =>
    rw [along_call] at hφ
    simp only [Runtime.drive]
    rcases hawait : rt.await op script s with ⟨_ | a, t, rest⟩
    · exact ⟨h.stalled hp.1 hs (stalls_of_await hawait).1, fun hpend => absurd rfl hpend⟩
    · rw [hawait] at hφ
      have ht : I (note g op a) t := h.answered hp.1 hs (answers_of_await hawait) hφ.1
      exact ih a (hp.2 a) ht hφ.2

end Runtime

end Async
