import RustyAutossh.Async.Prog

/-!
# Hiding part of the state

A program can be run on a state with a part of it hidden. If the operations that touch
the hidden part are left out or answer at once, the execution is the one on the full
state, seen through the hiding map. The rules follow the shape of the program, and
`Begins` says that each operation is begun in a state that meets a condition.
-/

namespace Async

variable {Op : Type} {Ans : Op → Type} {ρ α β σ ε : Type}

/-- An execution seen through a map of its states. -/
def Outcome.map (f : σ → σ) (o : Outcome ρ α σ ε) : Outcome ρ α σ ε := { o with state := f o.state }

namespace Runtime

/-- Each operation of an execution is begun in a state that meets a condition on it. -/
def Begins (rt : Runtime Op Ans σ ε) (φ : Op → σ → Prop) : Prog Op Ans ρ α → List ε → σ → Prop
  | .ret _, _, _ => True
  | .fail _, _, _ => True
  | .abort, _, _ => True
  | .call op k, script, s => φ op s ∧
    match rt.await op script s with
    | (some a, t, rest) => Begins rt φ (k a) rest t
    | (none, _, _) => True

theorem begins_call {rt : Runtime Op Ans σ ε} {φ : Op → σ → Prop} {op : Op}
    {k : Ans op → Prog Op Ans ρ α} {script : List ε} {s : σ} :
    rt.Begins φ (.call op k) script s ↔ φ op s ∧
      match rt.await op script s with
      | (some a, t, rest) => rt.Begins φ (k a) rest t
      | (none, _, _) => True := by
  rw [Begins]

/-- Whether each operation is begun in such a state can be computed along the execution. -/
def decidableBegins (rt : Runtime Op Ans σ ε) (φ : Op → σ → Prop)
    [hφ : ∀ op s, Decidable (φ op s)] :
    (p : Prog Op Ans ρ α) → (script : List ε) → (s : σ) → Decidable (rt.Begins φ p script s)
  | .ret _, _, _ => .isTrue trivial
  | .fail _, _, _ => .isTrue trivial
  | .abort, _, _ => .isTrue trivial
  | .call op k, script, s =>
    have : Decidable (match rt.await op script s with
        | (some a, t, rest) => rt.Begins φ (k a) rest t
        | (none, _, _) => True) :=
      match rt.await op script s with
      | (some a, t, rest) => decidableBegins rt φ (k a) rest t
      | (none, _, _) => .isTrue trivial
    decidable_of_iff _ begins_call.symm

instance (rt : Runtime Op Ans σ ε) (φ : Op → σ → Prop) [∀ op s, Decidable (φ op s)]
    (p : Prog Op Ans ρ α) (script : List ε) (s : σ) : Decidable (rt.Begins φ p script s) :=
  rt.decidableBegins φ p script s

/-- The second program on the hidden state executes as the first does on the full one, as
long as each operation of the first is begun in a state that meets the condition. -/
structure Hides (rt : Runtime Op Ans σ ε) (φ : Op → σ → Prop) (f : σ → σ)
    (p p' : Prog Op Ans ρ α) : Prop where
  drive : ∀ script s, rt.Begins φ p script s →
    rt.drive p' script (f s) = (rt.drive p script s).map f

variable {rt : Runtime Op Ans σ ε} {φ : Op → σ → Prop} {f : σ → σ}

/-- A composition begins the operations of its first part, and those of its second part
once the first has returned. -/
theorem begins_bind {p : Prog Op Ans ρ α} {q : α → Prog Op Ans ρ β} {script : List ε} {s : σ} :
    rt.Begins φ (p >>= q) script s ↔ rt.Begins φ p script s ∧
      ∀ a t rest, rt.drive p script s = ⟨.ret a, t, rest⟩ → rt.Begins φ (q a) rest t := by
  induction p generalizing script s with
  | ret a =>
    refine ⟨fun h => ⟨trivial, ?_⟩, fun h => h.2 a s script rfl⟩
    rintro b t rest ⟨⟩
    exact h
  | fail e => exact ⟨fun _ => ⟨trivial, by rintro a t rest ⟨⟩⟩, fun _ => trivial⟩
  | abort => exact ⟨fun _ => ⟨trivial, by rintro a t rest ⟨⟩⟩, fun _ => trivial⟩
  | call op k ih =>
    simp only [Prog.call_bind, Begins, drive, and_assoc]
    rcases rt.await op script s with ⟨a | a, t, rest⟩
    · simp
    · exact and_congr_right fun _ => ih a

/-- Keeping the `Result` begins no operation of its own. -/
theorem begins_attempt {p : Prog Op Ans ρ α} {script : List ε} {s : σ} :
    rt.Begins φ p.attempt script s ↔ rt.Begins φ p script s := by
  induction p generalizing script s with
  | ret a => exact Iff.rfl
  | fail e => exact Iff.rfl
  | abort => exact Iff.rfl
  | call op k ih =>
    simp only [Prog.attempt, Begins]
    rcases rt.await op script s with ⟨a | a, t, rest⟩
    · exact Iff.rfl
    · exact and_congr_right fun _ => ih a

/-- Executing a program whose `Result` is kept. -/
theorem drive_attempt (p : Prog Op Ans ρ α) (script : List ε) (s : σ) :
    rt.drive p.attempt script s =
      match rt.drive p script s with
      | ⟨.ret a, t, rest⟩ => ⟨.ret (.ok a), t, rest⟩
      | ⟨.fail e, t, rest⟩ => ⟨.ret (.error e), t, rest⟩
      | ⟨.abort, t, rest⟩ => ⟨.abort, t, rest⟩
      | ⟨.pending, t, rest⟩ => ⟨.pending, t, rest⟩ := by
  induction p generalizing script s with
  | ret a => rfl
  | fail e => rfl
  | abort => rfl
  | call op k ih =>
    simp only [Prog.attempt, drive]
    split
    · exact ih _ _ _
    · rfl

theorem hides_ret (a : α) : rt.Hides φ f (.ret a : Prog Op Ans ρ α) (.ret a) :=
  ⟨fun _ _ _ => rfl⟩

theorem hides_fail (e : ρ) : rt.Hides φ f (.fail e : Prog Op Ans ρ α) (.fail e) :=
  ⟨fun _ _ _ => rfl⟩

theorem hides_abort : rt.Hides φ f (.abort : Prog Op Ans ρ α) .abort := ⟨fun _ _ _ => rfl⟩

/-- An operation on the hidden state that is polled as another is on the full one. -/
structure Hides.Polls (rt : Runtime Op Ans σ ε) (f : σ → σ) (op op' : Op)
    (g : Ans op → Ans op') : Prop where
  poll : ∀ s, rt.poll op' (f s) = ((rt.poll op s).1.map g, f (rt.poll op s).2)
  act : ∀ e s, rt.act e (f s) = f (rt.act e s)

/-- Such an operation is awaited as the other. -/
theorem Hides.Polls.await {op op' : Op} {g : Ans op → Ans op'} (h : Hides.Polls rt f op op' g)
    (script : List ε) (s : σ) :
    rt.await op' script (f s) = ((rt.await op script s).1.map g, f (rt.await op script s).2.1,
      (rt.await op script s).2.2) := by
  induction script generalizing s with
  | nil => simp only [Runtime.await, h.poll]
  | cons e script ih =>
    simp only [Runtime.await, h.poll]
    cases (rt.poll op s).1 with
    | some a => rfl
    | none =>
      simp only [Option.map_none, h.act]
      exact ih _

/-- An operation that is polled as another is hidden if what follows their answers is. -/
theorem hides_call {op op' : Op} {g : Ans op → Ans op'} {k : Ans op → Prog Op Ans ρ α}
    {k' : Ans op' → Prog Op Ans ρ α} (h : Hides.Polls rt f op op' g)
    (hk : ∀ a, rt.Hides φ f (k a) (k' (g a))) : rt.Hides φ f (.call op k) (.call op' k') := by
  refine ⟨fun script s hbegins => ?_⟩
  have hrest := (begins_call.mp hbegins).2
  simp only [Runtime.drive, h.await]
  rcases hawait : rt.await op script s with ⟨a | a, t, rest⟩
  · rfl
  · rw [hawait] at hrest
    exact (hk a).drive rest t hrest

/-- An operation that is answered at once and changes only the hidden part is left out. -/
theorem hides_skip {op : Op} {k : Ans op → Prog Op Ans ρ α} {p : Prog Op Ans ρ α}
    (h : ∀ s, φ op s → ∃ a t, rt.poll op s = (some a, t) ∧ f t = f s)
    (hk : ∀ a, rt.Hides φ f (k a) p) : rt.Hides φ f (.call op k) p := by
  refine ⟨fun script s hbegins => ?_⟩
  obtain ⟨a, t, hpoll, ht⟩ := h s (begins_call.mp hbegins).1
  have hawait : rt.await op script s = (some a, t, script) := by
    cases script <;> simp [await, hpoll]
  have hrest := (begins_call.mp hbegins).2
  rw [hawait] at hrest
  rw [drive_call_of_ready hpoll, ← ht]
  exact (hk a).drive script t hrest

/-- Compositions of hidden programs are hidden. -/
theorem Hides.bind {p p' : Prog Op Ans ρ α} {q q' : α → Prog Op Ans ρ β}
    (hp : rt.Hides φ f p p') (hq : ∀ a, rt.Hides φ f (q a) (q' a)) :
    rt.Hides φ f (p >>= q) (p' >>= q') := by
  refine ⟨fun script s hbegins => ?_⟩
  obtain ⟨hbegins, hrest⟩ := begins_bind.mp hbegins
  rw [drive_bind, drive_bind, hp.drive script s hbegins]
  rcases hdrive : rt.drive p script s with ⟨out, t, rest⟩
  cases out with
  | ret a => exact (hq a).drive rest t (hrest a t rest hdrive)
  | fail e => rfl
  | abort => rfl
  | pending => rfl

/-- Keeping the `Result` of a hidden program. -/
theorem Hides.attempt {p p' : Prog Op Ans ρ α} (hp : rt.Hides φ f p p') :
    rt.Hides φ f p.attempt p'.attempt := by
  refine ⟨fun script s hbegins => ?_⟩
  rw [drive_attempt, drive_attempt, hp.drive script s (begins_attempt.mp hbegins)]
  rcases rt.drive p script s with ⟨out, t, rest⟩
  cases out <;> rfl

end Runtime

end Async
