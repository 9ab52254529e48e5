import RustyAutossh.Async.Hiding
import RustyAutossh.Async.Logic

/-!
# Programs that begin their operations well

`guarded` asks of every operation that the state it is begun in meets a condition on it. It
is computed along the program as `wp` is, and holds over every script.
-/

namespace Async

namespace Runtime

variable {Op : Type} {Ans : Op → Type} {ρ α β σ ε : Type}

/-- Each operation is begun in a state that meets a condition on it, whatever is answered. -/
def guarded (rt : Runtime Op Ans σ ε) (φ : Op → σ → Prop) : Prog Op Ans ρ α → σ → Prop
  | .ret _, _ => True
  | .fail _, _ => True
  | .abort, _ => True
  | .call op k, s => φ op s ∧ ∀ a t, rt.Answers op s a t → guarded rt φ (k a) t

variable {rt : Runtime Op Ans σ ε} {φ : Op → σ → Prop}

/-- A guarded program begins its operations well in every execution. -/
theorem begins_of_guarded {p : Prog Op Ans ρ α} {s : σ} (h : rt.guarded φ p s)
    (script : List ε) : rt.Begins φ p script s := by
  induction p generalizing script s with
  | ret a => trivial
  | fail e => trivial
  | abort => trivial
  | call op k ih =>
    refine begins_call.mpr ⟨h.1, ?_⟩
    rcases hawait : rt.await op script s with ⟨_ | a, t, rest⟩
    · trivial
    · exact ih a (h.2 a t (answers_of_await hawait)) rest

/-- A program that begins no operation the condition is about. -/
theorem guarded_of_only {P : Op → Prop} (hφ : ∀ op s, P op → φ op s) {p : Prog Op Ans ρ α}
    (hp : p.Only P) (s : σ) : rt.guarded φ p s := by
  induction p generalizing s with
  | ret a => trivial
  | fail e => trivial
  | abort => trivial
  | call op k ih => exact ⟨hφ op s hp.1, fun a t _ => ih a (hp.2 a) t⟩

/-- An operation that is ready needs its own condition and what its answer leads to. -/
theorem guarded_call_of_ready {op : Op} {k : Ans op → Prog Op Ans ρ α} {s t : σ} {a : Ans op}
    (h : rt.poll op s = (some a, t)) :
    rt.guarded φ (.call op k) s ↔ φ op s ∧ rt.guarded φ (k a) t := by
  simp only [guarded, answers_of_ready h]
  exact and_congr_right fun _ =>
    ⟨fun hw => hw a t ⟨rfl, rfl⟩, by rintro hw b u ⟨rfl, rfl⟩; exact hw⟩

/-- A composition is guarded in its first part, and in the second from where the first ends. -/
theorem guarded_bind {p : Prog Op Ans ρ α} {f : α → Prog Op Ans ρ β} {s : σ} :
    rt.guarded φ (p >>= f) s ↔ rt.guarded φ p s ∧
      rt.wp ⟨fun a t => rt.guarded φ (f a) t, fun _ _ => True, fun _ => True⟩ p s := by
  induction p generalizing s with
  | ret a => exact ⟨fun h => ⟨trivial, h⟩, fun h => h.2⟩
  | fail e => exact ⟨fun _ => ⟨trivial, trivial⟩, fun _ => trivial⟩
  | abort => exact ⟨fun _ => ⟨trivial, trivial⟩, fun _ => trivial⟩
  | call op k ih =>
    simp only [Prog.call_bind, guarded, wp, and_assoc]
    refine and_congr_right fun _ => ⟨fun h => ?_, fun h a t ha => ?_⟩
    · exact ⟨fun a t ha => ((ih a).mp (h a t ha)).1, fun a t ha => ((ih a).mp (h a t ha)).2⟩
    · exact (ih a).mpr ⟨h.1 a t ha, h.2 a t ha⟩

/-- Keeping the `Result` begins no operation of its own. -/
theorem guarded_attempt {p : Prog Op Ans ρ α} {s : σ} :
    rt.guarded φ p.attempt s ↔ rt.guarded φ p s := by
  induction p generalizing s with
  | ret a => exact Iff.rfl
  | fail e => exact Iff.rfl
  | abort => exact Iff.rfl
  | call op k ih =>
    simp only [Prog.attempt, guarded]
    exact and_congr_right fun _ =>
      forall_congr' fun a => forall_congr' fun t => imp_congr_right fun _ => ih a

end Runtime

end Async
