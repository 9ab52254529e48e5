import RustyAutossh.Async.Prog

/-!
# Pre- and postconditions of asynchronous programs

`wp` is the weakest condition under which every finished execution ends as a
postcondition says, over every script; a suspended execution satisfies it.
`whileWaiting` is the companion for suspended executions: what holds wherever
the program is waiting. Both are computed along the program, so an operation
is only ever described by the ways it can be answered or stay pending. `Only`
bounds the operations a program can issue; what those operations and the
environment preserve holds throughout the program. `Agree` says that two programs
have the same executions from a state.
-/

namespace Async

variable {Op : Type} {Ans : Op → Type} {ρ α β σ ε : Type}

/-- What is required of a returned value, of an error and of a panic. -/
structure Post (ρ α σ : Type) where
  ret : α → σ → Prop
  fail : ρ → σ → Prop
  abort : σ → Prop

/-- A postcondition read at the end of an execution; being suspended is no end. -/
def Post.holds (Q : Post ρ α σ) : End ρ α → σ → Prop
  | .ret a, s => Q.ret a s
  | .fail e, s => Q.fail e s
  | .abort, s => Q.abort s
  | .pending, _ => True

namespace Runtime

/-- The weakest precondition for a postcondition of every finished execution. -/
def wp (rt : Runtime Op Ans σ ε) (Q : Post ρ α σ) : Prog Op Ans ρ α → σ → Prop
  | .ret a, s => Q.ret a s
  | .fail e, s => Q.fail e s
  | .abort, s => Q.abort s
  | .call op k, s => ∀ a t, rt.Answers op s a t → wp rt Q (k a) t

/-- The condition under which `R` holds wherever the program is suspended. -/
def whileWaiting (rt : Runtime Op Ans σ ε) (R : σ → Prop) : Prog Op Ans ρ α → σ → Prop
  | .ret _, _ => True
  | .fail _, _ => True
  | .abort, _ => True
  | .call op k, s =>
    (∀ t, rt.Stalls op s t → R t) ∧ ∀ a t, rt.Answers op s a t → whileWaiting rt R (k a) t

variable {rt : Runtime Op Ans σ ε}

/-- Every finished execution meets a postcondition whose precondition held. -/
theorem wp_sound {Q : Post ρ α σ} {p : Prog Op Ans ρ α} {s : σ} (h : rt.wp Q p s)
    (script : List ε) : Q.holds (rt.drive p script s).out (rt.drive p script s).state := by
  induction p generalizing script s with
  | ret a => exact h
  | fail e => exact h
  | abort => exact h
  | call op k ih =>
    simp only [drive]
    split
    · rename_i a t rest ha
      exact ih a (h a t (answers_of_await ha)) rest
    · trivial

/-- Every suspended execution satisfies what holds while the program waits. -/
theorem whileWaiting_sound {R : σ → Prop} {p : Prog Op Ans ρ α} {s : σ}
    (h : rt.whileWaiting R p s) {script : List ε} (hp : (rt.drive p script s).out = .pending) :
    R (rt.drive p script s).state := by
  induction p generalizing script s with
  | ret a => simp [drive] at hp
  | fail e => simp [drive] at hp
  | abort => simp [drive] at hp
  | call op k ih =>
    simp only [drive] at hp ⊢
    cases ha : rt.await op script s with
    | mk r tr =>
      obtain ⟨t, rest⟩ := tr
      cases r with
      | some a =>
        simp only [ha] at hp ⊢
        exact ih a (h.2 a t (answers_of_await ha)) hp
      | none => exact h.1 t (stalls_of_await ha).1

@[simp] theorem wp_ret {Q : Post ρ α σ} {a : α} {s : σ} :
    rt.wp Q (.ret a) s ↔ Q.ret a s := Iff.rfl

@[simp] theorem wp_fail {Q : Post ρ α σ} {e : ρ} {s : σ} :
    rt.wp Q (.fail e) s ↔ Q.fail e s := Iff.rfl

@[simp] theorem wp_abort {Q : Post ρ α σ} {s : σ} : rt.wp Q .abort s ↔ Q.abort s := Iff.rfl

/-- An operation that is ready needs only what its answer leads to. -/
theorem wp_call_of_ready {op : Op} {k : Ans op → Prog Op Ans ρ α} {Q : Post ρ α σ} {s t : σ}
    {a : Ans op} (h : rt.poll op s = (some a, t)) : rt.wp Q (.call op k) s ↔ rt.wp Q (k a) t := by
  simp only [wp, answers_of_ready h]
  exact ⟨fun hw => hw a t ⟨rfl, rfl⟩, by rintro hw b u ⟨rfl, rfl⟩; exact hw⟩

/-- A composition requires of its first part that the second part's condition holds. -/
theorem wp_bind {Q : Post ρ β σ} {p : Prog Op Ans ρ α} {f : α → Prog Op Ans ρ β} {s : σ} :
    rt.wp Q (p >>= f) s ↔ rt.wp ⟨fun a t => rt.wp Q (f a) t, Q.fail, Q.abort⟩ p s := by
  induction p generalizing s with
  | ret a => exact Iff.rfl
  | fail e => exact Iff.rfl
  | abort => exact Iff.rfl
  | call op k ih =>
    simp only [Prog.call_bind, wp]
    exact forall_congr' fun a => forall_congr' fun t => imp_congr_right fun _ => ih a

/-- A kept `Result` turns the failure condition into one on the returned value. -/
theorem wp_attempt {Q : Post ρ (Except ρ α) σ} {p : Prog Op Ans ρ α} {s : σ} :
    rt.wp Q p.attempt s ↔
      rt.wp ⟨fun a t => Q.ret (.ok a) t, fun e t => Q.ret (.error e) t, Q.abort⟩ p s := by
  induction p generalizing s with
  | ret a => exact Iff.rfl
  | fail e => exact Iff.rfl
  | abort => exact Iff.rfl
  | call op k ih =>
    simp only [Prog.attempt, wp]
    exact forall_congr' fun a => forall_congr' fun t => imp_congr_right fun _ => ih a

/-- A weaker postcondition has a weaker precondition. -/
theorem wp_mono {Q Q' : Post ρ α σ} (hret : ∀ a s, Q.ret a s → Q'.ret a s)
    (hfail : ∀ e s, Q.fail e s → Q'.fail e s) (habort : ∀ s, Q.abort s → Q'.abort s)
    {p : Prog Op Ans ρ α} {s : σ} (h : rt.wp Q p s) : rt.wp Q' p s := by
  induction p generalizing s with
  | ret a => exact hret a s h
  | fail e => exact hfail e s h
  | abort => exact habort s h
  | call op k ih => exact fun a t ht => ih a (h a t ht)

/-- Two postconditions hold together where each does. -/
theorem wp_and {Q Q' : Post ρ α σ} {p : Prog Op Ans ρ α} {s : σ} (h : rt.wp Q p s)
    (h' : rt.wp Q' p s) : rt.wp ⟨fun a t => Q.ret a t ∧ Q'.ret a t,
      fun e t => Q.fail e t ∧ Q'.fail e t, fun t => Q.abort t ∧ Q'.abort t⟩ p s := by
  induction p generalizing s with
  | ret a => exact ⟨h, h'⟩
  | fail e => exact ⟨h, h'⟩
  | abort => exact ⟨h, h'⟩
  | call op k ih => exact fun a t ht => ih a (h a t ht) (h' a t ht)

/-- A postcondition that always holds needs nothing. -/
theorem wp_of_forall {Q : Post ρ α σ} (hret : ∀ a t, Q.ret a t) (hfail : ∀ e t, Q.fail e t)
    (habort : ∀ t, Q.abort t) (p : Prog Op Ans ρ α) (s : σ) : rt.wp Q p s := by
  induction p generalizing s with
  | ret a => exact hret a s
  | fail e => exact hfail e s
  | abort => exact habort s
  | call op k ih => exact fun a t _ => ih a t

/-- A composition waits in its first part, or in the second after the first returned. -/
theorem whileWaiting_bind {R : σ → Prop} {p : Prog Op Ans ρ α} {f : α → Prog Op Ans ρ β}
    {s : σ} : rt.whileWaiting R (p >>= f) s ↔ rt.whileWaiting R p s ∧
      rt.wp ⟨fun a t => rt.whileWaiting R (f a) t, fun _ _ => True, fun _ => True⟩ p s := by
  induction p generalizing s with
  | ret a => simp [whileWaiting]
  | fail e => simp [whileWaiting]
  | abort => simp [whileWaiting]
  | call op k ih =>
    simp only [Prog.call_bind, whileWaiting, wp, ih]
    constructor
    · rintro ⟨hs, h⟩
      exact ⟨⟨hs, fun a t ht => (h a t ht).1⟩, fun a t ht => (h a t ht).2⟩
    · rintro ⟨⟨hs, h⟩, hw⟩
      exact ⟨hs, fun a t ht => ⟨h a t ht, hw a t ht⟩⟩

/-- A program never waits at an operation that is ready. -/
theorem whileWaiting_call_of_ready {op : Op} {k : Ans op → Prog Op Ans ρ α} {R : σ → Prop}
    {s t : σ} {a : Ans op} (h : rt.poll op s = (some a, t)) :
    rt.whileWaiting R (.call op k) s ↔ rt.whileWaiting R (k a) t := by
  simp only [whileWaiting, answers_of_ready h, not_stalls_of_ready h, false_implies,
    implies_true, true_and]
  exact ⟨fun hw => hw a t ⟨rfl, rfl⟩, by rintro hw b u ⟨rfl, rfl⟩; exact hw⟩

end Runtime

namespace Prog

/-- Every operation the program can issue satisfies a predicate. -/
def Only (P : Op → Prop) : Prog Op Ans ρ α → Prop
  | ret _ => True
  | fail _ => True
  | abort => True
  | call op k => P op ∧ ∀ r, (k r).Only P

variable {P : Op → Prop}

@[simp] theorem only_ret (a : α) : (ret a : Prog Op Ans ρ α).Only P := trivial

@[simp] theorem only_fail (e : ρ) : (fail e : Prog Op Ans ρ α).Only P := trivial

@[simp] theorem only_abort : (abort : Prog Op Ans ρ α).Only P := trivial

@[simp] theorem only_perform {op : Op} :
    (perform op : Prog Op Ans ρ (Ans op)).Only P ↔ P op :=
  ⟨fun h => h.1, fun h => ⟨h, fun _ => trivial⟩⟩

/-- A predicate of every operation bounds every program. -/
theorem only_of_forall (h : ∀ op, P op) (p : Prog Op Ans ρ α) : p.Only P := by
  induction p with
  | ret a => trivial
  | fail e => trivial
  | abort => trivial
  | call op k ih => exact ⟨h op, ih⟩

/-- A weaker predicate bounds the operations as well. -/
theorem Only.mono {Q : Op → Prop} {p : Prog Op Ans ρ α} (hp : p.Only P)
    (h : ∀ op, P op → Q op) : p.Only Q := by
  induction p with
  | ret a => trivial
  | fail e => trivial
  | abort => trivial
  | call op k ih => exact ⟨h op hp.1, fun r => ih r (hp.2 r)⟩

/-- A composition issues the operations of its parts. -/
theorem Only.bind {p : Prog Op Ans ρ α} {f : α → Prog Op Ans ρ β} (hp : p.Only P)
    (hf : ∀ a, (f a).Only P) : (p >>= f).Only P := by
  induction p with
  | ret a => exact hf a
  | fail e => trivial
  | abort => trivial
  | call op k ih => exact ⟨hp.1, fun r => ih r (hp.2 r)⟩

/-- Keeping the `Result` issues no operation of its own. -/
theorem Only.attempt {p : Prog Op Ans ρ α} (hp : p.Only P) : p.attempt.Only P := by
  induction p with
  | ret a => trivial
  | fail e => trivial
  | abort => trivial
  | call op k ih => exact ⟨hp.1, fun r => ih r (hp.2 r)⟩

end Prog

namespace Runtime

/-- A program is suspended in one of its operations. -/
theorem only_of_suspension {rt : Runtime Op Ans σ ε} {P : Op → Prop} {p : Prog Op Ans ρ α}
    (hp : p.Only P) {script : List ε} {s t : σ} {op : Op}
    (h : rt.suspension p script s = some (op, t)) : P op := by
  induction p generalizing script s with
  | ret a => simp [suspension] at h
  | fail e => simp [suspension] at h
  | abort => simp [suspension] at h
  | call op' k ih =>
    rcases suspension_call h with ⟨rfl, -⟩ | ⟨a, u, rest, -, hrest⟩
    · exact hp.1
    · exact ih a (hp.2 a) hrest

/-- Polling certain operations and any action of the environment preserve a condition. -/
structure Keeps (rt : Runtime Op Ans σ ε) (P : Op → Prop) (I : σ → Prop) : Prop where
  poll : ∀ {op s}, P op → I s → I (rt.poll op s).2
  act : ∀ {s} e, I s → I (rt.act e s)

variable {rt : Runtime Op Ans σ ε} {P : Op → Prop} {I : σ → Prop}

theorem Keeps.waits (h : rt.Keeps P I) {op : Op} {s t : σ} (hop : P op) (hs : I s)
    (hw : rt.Waits op s t) : I t := by
  induction hw with
  | here => exact hs
  | wake e _ _ ih => exact ih (h.act e (h.poll hop hs))

theorem Keeps.answers (h : rt.Keeps P I) {op : Op} {s t : σ} {a : Ans op} (hop : P op)
    (hs : I s) (ha : rt.Answers op s a t) : I t := by
  obtain ⟨u, hu, hp⟩ := ha
  have ht := h.poll hop (h.waits hop hs hu)
  rwa [hp] at ht

theorem Keeps.stalls (h : rt.Keeps P I) {op : Op} {s t : σ} (hop : P op) (hs : I s)
    (hst : rt.Stalls op s t) : I t := by
  obtain ⟨u, hu, hp⟩ := hst
  have ht := h.poll hop (h.waits hop hs hu)
  rwa [hp] at ht

/-- A condition its operations preserve holds wherever a program ends. -/
theorem Keeps.wp (h : rt.Keeps P I) {p : Prog Op Ans ρ α} (hp : p.Only P) {s : σ} (hs : I s) :
    rt.wp ⟨fun _ => I, fun _ => I, I⟩ p s := by
  induction p generalizing s with
  | ret a => exact hs
  | fail e => exact hs
  | abort => exact hs
  | call op k ih => exact fun a t ha => ih a (hp.2 a) (h.answers hp.1 hs ha)

/-- Such a condition may be assumed of the state a program ends in. -/
theorem Keeps.wp_of_imp (h : rt.Keeps P I) {Q : Post ρ α σ} {p : Prog Op Ans ρ α}
    (hp : p.Only P) {s : σ} (hs : I s)
    (hw : rt.wp ⟨fun a t => I t → Q.ret a t, fun e t => I t → Q.fail e t,
      fun t => I t → Q.abort t⟩ p s) : rt.wp Q p s := by
  refine wp_mono ?_ ?_ ?_ (wp_and (h.wp hp hs) hw)
  · exact fun a t ht => ht.2 ht.1
  · exact fun e t ht => ht.2 ht.1
  · exact fun t ht => ht.2 ht.1

/-- A condition its operations preserve holds wherever a program waits. -/
theorem Keeps.whileWaiting (h : rt.Keeps P I) {p : Prog Op Ans ρ α} (hp : p.Only P) {s : σ}
    (hs : I s) : rt.whileWaiting I p s := by
  induction p generalizing s with
  | ret a => trivial
  | fail e => trivial
  | abort => trivial
  | call op k ih =>
    exact ⟨fun t ht => h.stalls hp.1 hs ht, fun a t ha => ih a (hp.2 a) (h.answers hp.1 hs ha)⟩

/-- Where each operation of a program can stall, the program can wait. -/
theorem whileWaiting_of_stalls (h : ∀ op, P op → ∀ s t, rt.Stalls op s t → I t)
    {p : Prog Op Ans ρ α} (hp : p.Only P) (s : σ) : rt.whileWaiting I p s := by
  induction p generalizing s with
  | ret a => trivial
  | fail e => trivial
  | abort => trivial
  | call op k ih => exact ⟨fun t ht => h op hp.1 s t ht, fun a t _ => ih a (hp.2 a) t⟩

/-- A weaker condition holds wherever a program waits. -/
theorem whileWaiting_mono {J : σ → Prop} (hIJ : ∀ s, I s → J s) {p : Prog Op Ans ρ α} {s : σ}
    (h : rt.whileWaiting I p s) : rt.whileWaiting J p s := by
  induction p generalizing s with
  | ret a => trivial
  | fail e => trivial
  | abort => trivial
  | call op k ih => exact ⟨fun t ht => hIJ t (h.1 t ht), fun a t ha => ih a (h.2 a t ha)⟩

/-- Two programs have the same executions from a state. -/
def Agree (rt : Runtime Op Ans σ ε) (p q : Prog Op Ans ρ α) (s : σ) : Prop :=
  ∀ script, rt.drive p script s = rt.drive q script s

theorem Agree.refl (p : Prog Op Ans ρ α) (s : σ) : rt.Agree p p s := fun _ => rfl

/-- After an operation that is ready, programs agree as their continuations do. -/
theorem agree_call_of_ready {op : Op} {k k' : Ans op → Prog Op Ans ρ α} {s t : σ} {a : Ans op}
    (h : rt.poll op s = (some a, t)) :
    rt.Agree (.call op k) (.call op k') s ↔ rt.Agree (k a) (k' a) t := by
  simp only [Agree, drive_call_of_ready h]

/-- A common second part keeps the agreement of the first parts. -/
theorem Agree.bind_same {p q : Prog Op Ans ρ α} {s : σ} (hpq : rt.Agree p q s)
    (f : α → Prog Op Ans ρ β) : rt.Agree (p >>= f) (q >>= f) s := by
  intro script
  rw [drive_bind, drive_bind, hpq script]

/-- Compositions agree if their first parts do, and their second parts wherever the first
returns. -/
theorem Agree.bind {p q : Prog Op Ans ρ α} {f g : α → Prog Op Ans ρ β} {s : σ}
    (hpq : rt.Agree p q s)
    (h : rt.wp ⟨fun a t => rt.Agree (f a) (g a) t, fun _ _ => True, fun _ => True⟩ q s) :
    rt.Agree (p >>= f) (q >>= g) s := by
  intro script
  have hret := wp_sound h script
  rw [drive_bind, drive_bind, hpq script]
  rcases hq : rt.drive q script s with ⟨out, t, rest⟩
  rw [hq] at hret
  cases out with
  | ret a => exact hret rest
  | fail e => rfl
  | abort => rfl
  | pending => rfl

end Runtime

end Async
