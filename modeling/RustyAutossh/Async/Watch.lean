import RustyAutossh.Async.Logic

/-!
# Programs watched while they wait

`watch` asks for a postcondition and, of every operation the program can be suspended in,
for a condition on the state it leaves. It is computed along the program as `wp` is.
-/

namespace Async

namespace Runtime

variable {Op : Type} {Ans : Op → Type} {ρ α β σ ε : Type}

/-- `Q` holds at the end, and `R` of every operation the program is suspended in. -/
def watch (rt : Runtime Op Ans σ ε) (R : Op → σ → Prop) (Q : Post ρ α σ) :
    Prog Op Ans ρ α → σ → Prop
  | .ret a, s => Q.ret a s
  | .fail e, s => Q.fail e s
  | .abort, s => Q.abort s
  | .call op k, s =>
    (∀ t, rt.Stalls op s t → R op t) ∧ ∀ a t, rt.Answers op s a t → watch rt R Q (k a) t

variable {rt : Runtime Op Ans σ ε} {R : Op → σ → Prop}

/-- What is watched for holds of every suspension. -/
theorem watch_sound {Q : Post ρ α σ} {p : Prog Op Ans ρ α} {s t : σ} {op : Op}
    {script : List ε} (h : rt.watch R Q p s) (hsusp : rt.suspension p script s = some (op, t)) :
    R op t := by
  induction p generalizing script s with
  | ret a => simp [suspension] at hsusp
  | fail e => simp [suspension] at hsusp
  | abort => simp [suspension] at hsusp
  | call op' k ih =>
    rcases suspension_call hsusp with ⟨rfl, hstalls⟩ | ⟨a, u, rest, ha, hrest⟩
    · exact h.1 t hstalls
    · exact ih a (h.2 a u ha) hrest

/-- A program is suspended in an operation that is pending. -/
theorem stalls_of_suspension {p : Prog Op Ans ρ α} {s t : σ} {op : Op} {script : List ε}
    (h : rt.suspension p script s = some (op, t)) : ∃ u, rt.Stalls op u t := by
  induction p generalizing script s with
  | ret a => simp [suspension] at h
  | fail e => simp [suspension] at h
  | abort => simp [suspension] at h
  | call op' k ih =>
    rcases suspension_call h with ⟨rfl, hstalls⟩ | ⟨a, u, rest, -, hrest⟩
    · exact ⟨s, hstalls⟩
    · exact ih a hrest

/-- What is watched for at the end is a postcondition. -/
theorem wp_of_watch {Q : Post ρ α σ} {p : Prog Op Ans ρ α} {s : σ} (h : rt.watch R Q p s) :
    rt.wp Q p s := by
  induction p generalizing s with
  | ret a => exact h
  | fail e => exact h
  | abort => exact h
  | call op k ih => exact fun a t ha => ih a (h.2 a t ha)

/-- A weaker postcondition is watched for as well. -/
theorem watch_mono {Q Q' : Post ρ α σ} {p : Prog Op Ans ρ α} {s : σ} (h : rt.watch R Q p s)
    (hret : ∀ a t, Q.ret a t → Q'.ret a t) (hfail : ∀ e t, Q.fail e t → Q'.fail e t)
    (habort : ∀ t, Q.abort t → Q'.abort t) : rt.watch R Q' p s := by
  induction p generalizing s with
  | ret a => exact hret a s h
  | fail e => exact hfail e s h
  | abort => exact habort s h
  | call op k ih => exact ⟨h.1, fun a t ha => ih a (h.2 a t ha)⟩

/-- A condition its operations preserve is watched for all along a program. -/
theorem Keeps.watch {P : Op → Prop} {I : σ → Prop} (h : rt.Keeps P I) {Q : Post ρ α σ}
    (hret : ∀ a t, I t → Q.ret a t) (hfail : ∀ e t, I t → Q.fail e t)
    (habort : ∀ t, I t → Q.abort t) (hR : ∀ op t, I t → R op t) {p : Prog Op Ans ρ α}
    (hp : p.Only P) {s : σ} (hs : I s) : rt.watch R Q p s := by
  induction p generalizing s with
  | ret a => exact hret a s hs
  | fail e => exact hfail e s hs
  | abort => exact habort s hs
  | call op k ih =>
    exact ⟨fun t ht => hR op t (h.stalls hp.1 hs ht),
      fun a t ha => ih a (hp.2 a) (h.answers hp.1 hs ha)⟩

/-- An operation that is ready needs only what its answer leads to. -/
theorem watch_call_of_ready {op : Op} {k : Ans op → Prog Op Ans ρ α} {Q : Post ρ α σ}
    {s t : σ} {a : Ans op} (h : rt.poll op s = (some a, t)) :
    rt.watch R Q (.call op k) s ↔ rt.watch R Q (k a) t := by
  simp only [watch, answers_of_ready h, not_stalls_of_ready h, false_implies, implies_true,
    true_and]
  exact ⟨fun hw => hw a t ⟨rfl, rfl⟩, by rintro hw b u ⟨rfl, rfl⟩; exact hw⟩

/-- A composition is watched in its first part, and in the second from where the first ends. -/
theorem watch_bind {Q : Post ρ β σ} {p : Prog Op Ans ρ α} {f : α → Prog Op Ans ρ β} {s : σ} :
    rt.watch R Q (p >>= f) s ↔
      rt.watch R ⟨fun a t => rt.watch R Q (f a) t, Q.fail, Q.abort⟩ p s := by
  induction p generalizing s with
  | ret a => exact Iff.rfl
  | fail e => exact Iff.rfl
  | abort => exact Iff.rfl
  | call op k ih =>
    simp only [Prog.call_bind, watch]
    exact and_congr_right fun _ =>
      forall_congr' fun a => forall_congr' fun t => imp_congr_right fun _ => ih a

/-- A kept `Result` turns the failure condition into one on the returned value. -/
theorem watch_attempt {Q : Post ρ (Except ρ α) σ} {p : Prog Op Ans ρ α} {s : σ} :
    rt.watch R Q p.attempt s ↔
      rt.watch R ⟨fun a t => Q.ret (.ok a) t, fun e t => Q.ret (.error e) t, Q.abort⟩ p s := by
  induction p generalizing s with
  | ret a => exact Iff.rfl
  | fail e => exact Iff.rfl
  | abort => exact Iff.rfl
  | call op k ih =>
    simp only [Prog.attempt, watch]
    exact and_congr_right fun _ =>
      forall_congr' fun a => forall_congr' fun t => imp_congr_right fun _ => ih a

/-- What is watched for may be joined with a postcondition proved apart. -/
theorem watch_and {Q Q' Q'' : Post ρ α σ} {p : Prog Op Ans ρ α} {s : σ}
    (h : rt.watch R Q p s) (h' : rt.wp Q' p s)
    (hret : ∀ a t, Q.ret a t → Q'.ret a t → Q''.ret a t)
    (hfail : ∀ e t, Q.fail e t → Q'.fail e t → Q''.fail e t)
    (habort : ∀ t, Q.abort t → Q'.abort t → Q''.abort t) : rt.watch R Q'' p s := by
  induction p generalizing s with
  | ret a => exact hret a s h h'
  | fail e => exact hfail e s h h'
  | abort => exact habort s h h'
  | call op k ih => exact ⟨h.1, fun a t ha => ih a (h.2 a t ha) (h' a t ha)⟩

end Runtime

end Async
