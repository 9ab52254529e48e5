import Mathlib.Data.List.Forall2
import RustyAutossh.Async.Logic

/-!
# Two executions side by side

What an execution does not depend on is seen by running two that differ in it alone. If
related actions keep related states related and the operations of two programs are polled
alike, the programs execute alike: to the same end, in related states, with related scripts
unused. The rules follow the shape of the programs.
-/

namespace Async

variable {Op : Type} {Ans : Op → Type} {ρ α β σ ε : Type}

/-- Two executions that stand alike. -/
structure Outcome.Alike (R : σ → σ → Prop) (E : ε → ε → Prop) (o o' : Outcome ρ α σ ε) : Prop where
  out : o.out = o'.out
  state : R o.state o'.state
  rest : List.Forall₂ E o.rest o'.rest

namespace Runtime

variable (rt : Runtime Op Ans σ ε) (R : σ → σ → Prop) (E : ε → ε → Prop)

/-- Related actions of the environment keep related states related. -/
structure ActsAlike : Prop where
  act : ∀ {e e' s s'}, E e e' → R s s' → R (rt.act e s) (rt.act e' s')

/-- In related states both operations are pending, or their answers are related. -/
structure PollsAlike (op op' : Op) (A : Ans op → Ans op' → Prop) : Prop where
  answer : ∀ {s s'}, R s s' → Option.Rel A (rt.poll op s).1 (rt.poll op' s').1
  state : ∀ {s s'}, R s s' → R (rt.poll op s).2 (rt.poll op' s').2

/-- Over related scripts from related states, the two programs execute alike. -/
structure RunAlike (p p' : Prog Op Ans ρ α) : Prop where
  drive : ∀ {script script' s s'}, List.Forall₂ E script script' → R s s' →
    (rt.drive p script s).Alike R E (rt.drive p' script' s')

variable {rt R E} {op op' : Op} {A : Ans op → Ans op' → Prop}

/-- Operations polled alike are awaited alike. -/
theorem PollsAlike.await (hop : rt.PollsAlike R op op' A) (hact : rt.ActsAlike R E)
    {script script' : List ε} {s s' : σ} (hscript : List.Forall₂ E script script')
    (hs : R s s') :
    Option.Rel A (rt.await op script s).1 (rt.await op' script' s').1 ∧
      R (rt.await op script s).2.1 (rt.await op' script' s').2.1 ∧
      List.Forall₂ E (rt.await op script s).2.2 (rt.await op' script' s').2.2 := by
  induction hscript generalizing s s' with
  | nil => exact ⟨hop.answer hs, hop.state hs, .nil⟩
  | cons he hrest ih =>
    have hanswer := hop.answer hs
    have hstate := hop.state hs
    simp only [Runtime.await]
    generalize (rt.poll op s).1 = r at hanswer
    generalize (rt.poll op' s').1 = r' at hanswer
    cases hanswer with
    | some hrel => exact ⟨.some hrel, hstate, .cons he hrest⟩
    | none => exact ih (hact.act he hstate)

theorem runAlike_ret (a : α) : rt.RunAlike R E (.ret a : Prog Op Ans ρ α) (.ret a) :=
  ⟨fun hscript hs => ⟨rfl, hs, hscript⟩⟩

/-- Operations polled alike, if what follows related answers runs alike. -/
theorem runAlike_call (hact : rt.ActsAlike R E) (hop : rt.PollsAlike R op op' A)
    {k : Ans op → Prog Op Ans ρ α} {k' : Ans op' → Prog Op Ans ρ α}
    (hk : ∀ a a', A a a' → rt.RunAlike R E (k a) (k' a')) :
    rt.RunAlike R E (.call op k) (.call op' k') := by
  refine ⟨fun {script script' s s'} hscript hs => ?_⟩
  have hawait := hop.await hact hscript hs
  simp only [drive]
  generalize rt.await op script s = step at hawait
  generalize rt.await op' script' s' = step' at hawait
  obtain ⟨r, t, rest⟩ := step
  obtain ⟨r', t', rest'⟩ := step'
  obtain ⟨hanswer, hstate, hrest⟩ := hawait
  cases hanswer with
  | some hrel => exact (hk _ _ hrel).drive hrest hstate
  | none => exact ⟨rfl, hstate, hrest⟩

/-- Compositions of programs that run alike. -/
theorem RunAlike.bind {p p' : Prog Op Ans ρ α} {q q' : α → Prog Op Ans ρ β}
    (hp : rt.RunAlike R E p p') (hq : ∀ a, rt.RunAlike R E (q a) (q' a)) :
    rt.RunAlike R E (p >>= q) (p' >>= q') := by
  refine ⟨fun {script script' s s'} hscript hs => ?_⟩
  have hfirst := hp.drive hscript hs
  rw [drive_bind, drive_bind]
  generalize rt.drive p script s = o at hfirst
  generalize rt.drive p' script' s' = o' at hfirst
  obtain ⟨out, t, rest⟩ := o
  obtain ⟨out', t', rest'⟩ := o'
  obtain ⟨rfl : out = out', hstate, hrest⟩ := hfirst
  cases out with
  | ret a => exact (hq a).drive hrest hstate
  | fail e => exact ⟨rfl, hstate, hrest⟩
  | abort => exact ⟨rfl, hstate, hrest⟩
  | pending => exact ⟨rfl, hstate, hrest⟩

/-- A program whose operations are all polled as themselves runs as itself. -/
theorem runAlike_of_only (hact : rt.ActsAlike R E) {P : Op → Prop}
    (hpoll : ∀ op, P op → rt.PollsAlike R op op Eq) {p : Prog Op Ans ρ α}
    (hp : p.Only P) : rt.RunAlike R E p p := by
  induction p with
  | ret a => exact runAlike_ret a
  | fail e => exact ⟨fun hscript hs => ⟨rfl, hs, hscript⟩⟩
  | abort => exact ⟨fun hscript hs => ⟨rfl, hs, hscript⟩⟩
  | call op k ih =>
    refine runAlike_call hact (hpoll op hp.1) fun a a' heq => ?_
    subst heq
    exact ih a (hp.2 a)

end Runtime

end Async
