import Mathlib.Logic.Basic

/-!
# Asynchronous programs and the runs of their host

An asynchronous program is a tree of operations whose answers come from a host.
Polling an operation either answers it or leaves it pending; between two polls
the host's environment acts. A finite script of environment actions therefore
determines one execution, and all interleavings are the runs over all scripts.
Nothing here mentions a particular set of operations or a particular host.
-/

namespace Async

/-- A program: finished, failed with an error, aborted by a panic, or waiting
for the answer to one operation. -/
inductive Prog (Op : Type) (Ans : Op → Type) (ρ α : Type) where
  | ret (a : α)
  | fail (e : ρ)
  | abort
  | call (op : Op) (k : Ans op → Prog Op Ans ρ α)

variable {Op : Type} {Ans : Op → Type} {ρ α β σ ε : Type}

namespace Prog

/-- Sequential composition; an error or a panic ends the whole program. -/
def bind : Prog Op Ans ρ α → (α → Prog Op Ans ρ β) → Prog Op Ans ρ β
  | ret a, f => f a
  | fail e, _ => fail e
  | abort, _ => abort
  | call op k, f => call op fun r => (k r).bind f

instance : Monad (Prog Op Ans ρ) where
  pure := ret
  bind := bind

/-- Issue one operation and return its answer. -/
def perform (op : Op) : Prog Op Ans ρ (Ans op) := call op ret

/-- Turn a failure into a value, as keeping the `Result` of an awaited call does. -/
def attempt : Prog Op Ans ρ α → Prog Op Ans ρ (Except ρ α)
  | ret a => ret (.ok a)
  | fail e => ret (.error e)
  | abort => abort
  | call op k => call op fun r => (k r).attempt

@[simp] theorem pure_eq (a : α) : (pure a : Prog Op Ans ρ α) = ret a := rfl

@[simp] theorem ret_bind (a : α) (f : α → Prog Op Ans ρ β) : ret a >>= f = f a := rfl

@[simp] theorem fail_bind (e : ρ) (f : α → Prog Op Ans ρ β) :
    (fail e : Prog Op Ans ρ α) >>= f = fail e := rfl

@[simp] theorem abort_bind (f : α → Prog Op Ans ρ β) :
    (abort : Prog Op Ans ρ α) >>= f = abort := rfl

@[simp] theorem call_bind (op : Op) (k : Ans op → Prog Op Ans ρ α)
    (f : α → Prog Op Ans ρ β) : call op k >>= f = call op fun r => k r >>= f := rfl

@[simp] theorem perform_bind (op : Op) (f : Ans op → Prog Op Ans ρ β) :
    (perform op : Prog Op Ans ρ (Ans op)) >>= f = call op f := rfl

end Prog

/-- A host: how it polls an operation, and what one action of its environment does. -/
structure Runtime (Op : Type) (Ans : Op → Type) (σ ε : Type) where
  /-- Poll an operation: an answer, or `none` while it is pending. -/
  poll : (op : Op) → σ → Option (Ans op) × σ
  /-- What happens between two polls. -/
  act : ε → σ → σ

/-- How an execution stands when its script is used up or its program is over. -/
inductive End (ρ α : Type) where
  | ret (a : α)
  | fail (e : ρ)
  | abort
  | pending
  deriving DecidableEq, Repr

/-- The end of an execution, the state it leaves and the unused script. -/
structure Outcome (ρ α σ ε : Type) where
  out : End ρ α
  state : σ
  rest : List ε

namespace Runtime

variable (rt : Runtime Op Ans σ ε)

/-- Poll an operation until it is answered, letting the environment act in between. -/
def await (op : Op) : List ε → σ → Option (Ans op) × σ × List ε
  | [], s => ((rt.poll op s).1, (rt.poll op s).2, [])
  | e :: script, s =>
    match (rt.poll op s).1 with
    | some a => (some a, (rt.poll op s).2, e :: script)
    | none => await op script (rt.act e (rt.poll op s).2)

/-- Execute a program over a script. -/
def drive : Prog Op Ans ρ α → List ε → σ → Outcome ρ α σ ε
  | .ret a, script, s => ⟨.ret a, s, script⟩
  | .fail e, script, s => ⟨.fail e, s, script⟩
  | .abort, script, s => ⟨.abort, s, script⟩
  | .call op k, script, s =>
    match rt.await op script s with
    | (some a, s', rest) => drive (k a) rest s'
    | (none, s', rest) => ⟨.pending, s', rest⟩

/-- The operation an execution is suspended in, with the state it leaves, when its script is
used up before it ends. -/
def suspension : Prog Op Ans ρ α → List ε → σ → Option (Op × σ)
  | .ret _, _, _ => none
  | .fail _, _, _ => none
  | .abort, _, _ => none
  | .call op k, script, s =>
    match rt.await op script s with
    | (some a, s', rest) => suspension (k a) rest s'
    | (none, s', _) => some (op, s')

/-- The states in which an operation begun in a given state may be polled. -/
inductive Waits (op : Op) : σ → σ → Prop
  | here (s : σ) : Waits op s s
  | wake {s t : σ} (e : ε) : (rt.poll op s).1 = none →
      Waits op (rt.act e (rt.poll op s).2) t → Waits op s t

/-- An operation begun in `s` is answered `a`, leaving `t`. -/
def Answers (op : Op) (s : σ) (a : Ans op) (t : σ) : Prop :=
  ∃ u, rt.Waits op s u ∧ rt.poll op u = (some a, t)

/-- An operation begun in `s` is pending in `t`. -/
def Stalls (op : Op) (s t : σ) : Prop :=
  ∃ u, rt.Waits op s u ∧ rt.poll op u = (none, t)

variable {rt}

/-- An answer obtained over a script is an answer of the operation. -/
theorem answers_of_await {op : Op} {script rest : List ε} {s t : σ} {a : Ans op}
    (h : rt.await op script s = (some a, t, rest)) : rt.Answers op s a t := by
  induction script generalizing s with
  | nil =>
    simp only [await, Prod.mk.injEq] at h
    exact ⟨s, .here s, Prod.ext h.1 h.2.1⟩
  | cons e script ih =>
    simp only [await] at h
    split at h
    · rename_i b hb
      simp only [Prod.mk.injEq, Option.some.injEq] at h
      exact ⟨s, .here s, Prod.ext (hb.trans (congrArg some h.1)) h.2.1⟩
    · rename_i hb
      obtain ⟨u, hu, hp⟩ := ih h
      exact ⟨u, .wake e hb hu, hp⟩

/-- A script that does not answer an operation is used up, and leaves it pending. -/
theorem stalls_of_await {op : Op} {script rest : List ε} {s t : σ}
    (h : rt.await op script s = (none, t, rest)) : rt.Stalls op s t ∧ rest = [] := by
  induction script generalizing s with
  | nil =>
    simp only [await, Prod.mk.injEq] at h
    exact ⟨⟨s, .here s, Prod.ext h.1 h.2.1⟩, h.2.2.symm⟩
  | cons e script ih =>
    simp only [await] at h
    split at h
    · simp at h
    · rename_i hb
      obtain ⟨⟨u, hu, hp⟩, hr⟩ := ih h
      exact ⟨⟨u, .wake e hb hu, hp⟩, hr⟩

/-- An operation that is ready when it is begun is answered at once. -/
theorem answers_of_ready {op : Op} {s t u : σ} {a b : Ans op} (h : rt.poll op s = (some a, t)) :
    rt.Answers op s b u ↔ b = a ∧ u = t := by
  constructor
  · rintro ⟨v, hw, hp⟩
    cases hw with
    | here => simp_all
    | wake e hb _ => simp [h] at hb
  · rintro ⟨rfl, rfl⟩
    exact ⟨s, .here s, h⟩

/-- An operation that is ready when it is begun never waits. -/
theorem not_stalls_of_ready {op : Op} {s t u : σ} {a : Ans op}
    (h : rt.poll op s = (some a, t)) : ¬ rt.Stalls op s u := by
  rintro ⟨v, hw, hp⟩
  cases hw with
  | here => simp [h] at hp
  | wake e hb _ => simp [h] at hb

/-- A longer script changes nothing once the operation has been answered. -/
theorem await_append_of_some {op : Op} {script rest : List ε} {s t : σ} {a : Ans op}
    (h : rt.await op script s = (some a, t, rest)) (more : List ε) :
    rt.await op (script ++ more) s = (some a, t, rest ++ more) := by
  induction script generalizing s with
  | nil =>
    simp only [await, Prod.mk.injEq] at h
    obtain ⟨ha, ht, rfl⟩ := h
    cases more <;> simp [await, ha, ht]
  | cons e script ih =>
    simp only [await, List.cons_append] at h ⊢
    split at h
    · simp only [Prod.mk.injEq] at h
      obtain ⟨ha, ht, rfl⟩ := h
      simp [ha, ht]
    · exact ih h

/-- A used-up script continues from the pending operation. -/
theorem await_append_of_none {op : Op} {script rest : List ε} {s t : σ}
    (h : rt.await op script s = (none, t, rest)) (e : ε) (more : List ε) :
    rt.await op (script ++ e :: more) s = rt.await op more (rt.act e t) := by
  induction script generalizing s with
  | nil =>
    simp only [await, Prod.mk.injEq] at h
    simp [await, h.1, h.2.1]
  | cons e' script ih =>
    simp only [await, List.cons_append] at h ⊢
    split at h
    · simp at h
    · exact ih h

/-- An operation that is ready takes nothing from the script. -/
theorem drive_call_of_ready {op : Op} {k : Ans op → Prog Op Ans ρ α} {s t : σ} {a : Ans op}
    (h : rt.poll op s = (some a, t)) (script : List ε) :
    rt.drive (.call op k) script s = rt.drive (k a) script t := by
  cases script <;> simp [drive, await, h]

/-- Executing a composition executes its first part, then the second on what is left. -/
theorem drive_bind (p : Prog Op Ans ρ α) (f : α → Prog Op Ans ρ β) (script : List ε) (s : σ) :
    rt.drive (p >>= f) script s =
      match rt.drive p script s with
      | ⟨.ret a, t, rest⟩ => rt.drive (f a) rest t
      | ⟨.fail e, t, rest⟩ => ⟨.fail e, t, rest⟩
      | ⟨.abort, t, rest⟩ => ⟨.abort, t, rest⟩
      | ⟨.pending, t, rest⟩ => ⟨.pending, t, rest⟩ := by
  induction p generalizing script s with
  | ret a => rfl
  | fail e => rfl
  | abort => rfl
  | call op k ih =>
    simp only [Prog.call_bind, drive]
    split
    · exact ih _ _ _
    · rfl

/-- A composition whose first part returns continues with the second part. -/
theorem drive_bind_of_ret {p : Prog Op Ans ρ α} {script rest : List ε} {s t : σ} {a : α}
    (h : rt.drive p script s = ⟨.ret a, t, rest⟩) (f : α → Prog Op Ans ρ β) :
    rt.drive (p >>= f) script s = rt.drive (f a) rest t := by
  rw [drive_bind, h]

/-- A suspended execution is pending in the state it is suspended in. -/
theorem drive_of_suspension {p : Prog Op Ans ρ α} {script : List ε} {s t : σ} {op : Op}
    (h : rt.suspension p script s = some (op, t)) : rt.drive p script s = ⟨.pending, t, []⟩ := by
  induction p generalizing script s with
  | ret a => simp [suspension] at h
  | fail e => simp [suspension] at h
  | abort => simp [suspension] at h
  | call op' k ih =>
    simp only [suspension] at h
    simp only [drive]
    split at h
    · exact ih _ h
    · rename_i u rest ha
      simp only [Option.some.injEq, Prod.mk.injEq] at h
      rw [(stalls_of_await ha).2, h.2]

/-- A pending execution is suspended in an operation that is pending. -/
theorem suspension_of_pending {p : Prog Op Ans ρ α} {script : List ε} {s : σ}
    (h : (rt.drive p script s).out = .pending) :
    ∃ op, rt.suspension p script s = some (op, (rt.drive p script s).state) ∧
      ∃ u, rt.Stalls op u (rt.drive p script s).state := by
  induction p generalizing script s with
  | ret a => simp [drive] at h
  | fail e => simp [drive] at h
  | abort => simp [drive] at h
  | call op k ih =>
    simp only [drive] at h ⊢
    simp only [suspension]
    cases ha : rt.await op script s with
    | mk r tr =>
      obtain ⟨t, rest⟩ := tr
      cases r with
      | some a =>
        simp only [ha] at h ⊢
        exact ih a h
      | none => exact ⟨op, rfl, s, (stalls_of_await ha).1⟩

/-- An execution is suspended in its first operation, or in what follows the answer. -/
theorem suspension_call {op op' : Op} {k : Ans op → Prog Op Ans ρ α} {script : List ε} {s t : σ}
    (h : rt.suspension (.call op k) script s = some (op', t)) :
    (op' = op ∧ rt.Stalls op s t) ∨
      ∃ a u rest, rt.Answers op s a u ∧ rt.suspension (k a) rest u = some (op', t) := by
  simp only [suspension] at h
  split at h
  · rename_i a u rest ha
    exact .inr ⟨a, u, rest, answers_of_await ha, h⟩
  · rename_i u rest ha
    simp only [Option.some.injEq, Prod.mk.injEq] at h
    obtain ⟨rfl, rfl⟩ := h
    exact .inl ⟨rfl, (stalls_of_await ha).1⟩

/-- An operation that is ready suspends nothing. -/
theorem suspension_call_of_ready {op : Op} {k : Ans op → Prog Op Ans ρ α} {s t : σ} {a : Ans op}
    (h : rt.poll op s = (some a, t)) (script : List ε) :
    rt.suspension (.call op k) script s = rt.suspension (k a) script t := by
  cases script <;> simp [suspension, await, h]

/-- A composition is suspended in its first part, or in the second after the first returned. -/
theorem suspension_bind (p : Prog Op Ans ρ α) (f : α → Prog Op Ans ρ β) (script : List ε)
    (s : σ) : rt.suspension (p >>= f) script s =
      match rt.drive p script s with
      | ⟨.ret a, t, rest⟩ => rt.suspension (f a) rest t
      | _ => rt.suspension p script s := by
  induction p generalizing script s with
  | ret a => rfl
  | fail e => rfl
  | abort => rfl
  | call op k ih =>
    simp only [Prog.call_bind, suspension, drive]
    split
    · exact ih _ _ _
    · rfl

/-- A suspended composition has not come to its second part, or is suspended in it. -/
theorem suspension_bind_cases {p : Prog Op Ans ρ α} {f : α → Prog Op Ans ρ β} {script : List ε}
    {s t : σ} {op : Op} (h : rt.suspension (p >>= f) script s = some (op, t)) :
    rt.suspension p script s = some (op, t) ∨
      ∃ a u rest, rt.drive p script s = ⟨.ret a, u, rest⟩ ∧
        rt.suspension (f a) rest u = some (op, t) := by
  rw [suspension_bind] at h
  split at h
  · rename_i a u rest heq
    exact .inr ⟨a, u, rest, heq, h⟩
  · exact .inl h

/-- A finished execution does not depend on the unused script. -/
theorem drive_append {p : Prog Op Ans ρ α} {script : List ε} {s : σ}
    (h : (rt.drive p script s).out ≠ .pending) (more : List ε) :
    rt.drive p (script ++ more) s =
      { rt.drive p script s with rest := (rt.drive p script s).rest ++ more } := by
  induction p generalizing script s with
  | ret a => rfl
  | fail e => rfl
  | abort => rfl
  | call op k ih =>
    simp only [drive] at h ⊢
    cases ha : rt.await op script s with
    | mk r tr =>
      obtain ⟨t, rest⟩ := tr
      cases r with
      | none => simp [ha] at h
      | some a =>
        simp only [ha] at h ⊢
        rw [await_append_of_some ha]
        exact ih a h

/-- A pending operation is answered after one more action of the environment. -/
def Responsive (rt : Runtime Op Ans σ ε) : Prop :=
  ∀ op s, (rt.poll op s).1 = none → ∃ e, (rt.poll op (rt.act e (rt.poll op s).2)).1.isSome

/-- Polling and acting only move upwards in an order on states. -/
structure Grows (rt : Runtime Op Ans σ ε) (le : σ → σ → Prop) : Prop where
  refl : ∀ s, le s s
  trans : ∀ {s t u}, le s t → le t u → le s u
  poll : ∀ op s, le s (rt.poll op s).2
  act : ∀ e s, le s (rt.act e s)

theorem Grows.waits {le : σ → σ → Prop} (h : rt.Grows le) {op : Op} {s t : σ}
    (hw : rt.Waits op s t) : le s t := by
  induction hw with
  | here s => exact h.refl s
  | wake e _ _ ih => exact h.trans (h.poll op _) (h.trans (h.act e _) ih)

theorem Grows.answers {le : σ → σ → Prop} (h : rt.Grows le) {op : Op} {s t : σ} {a : Ans op}
    (ha : rt.Answers op s a t) : le s t := by
  obtain ⟨u, hu, hp⟩ := ha
  have hle := h.poll op u
  rw [hp] at hle
  exact h.trans (h.waits hu) hle

theorem Grows.stalls {le : σ → σ → Prop} (h : rt.Grows le) {op : Op} {s t : σ}
    (hs : rt.Stalls op s t) : le s t := by
  obtain ⟨u, hu, hp⟩ := hs
  have hle := h.poll op u
  rw [hp] at hle
  exact h.trans (h.waits hu) hle

/-- A whole execution moves upwards. -/
theorem Grows.drive {le : σ → σ → Prop} (h : rt.Grows le) (p : Prog Op Ans ρ α)
    (script : List ε) (s : σ) : le s (rt.drive p script s).state := by
  induction p generalizing script s with
  | ret a => exact h.refl s
  | fail e => exact h.refl s
  | abort => exact h.refl s
  | call op k ih =>
    simp only [Runtime.drive]
    split
    · rename_i a t rest ha
      exact h.trans (h.answers (answers_of_await ha)) (ih a rest t)
    · rename_i t rest ha
      exact h.stalls (stalls_of_await ha).1

/-- What the actions of a script weigh together. -/
def weigh (weight : ε → Nat) (script : List ε) : Nat :=
  script.foldr (fun e total => weight e + total) 0

@[simp] theorem weigh_cons (weight : ε → Nat) (e : ε) (script : List ε) :
    weigh weight (e :: script) = weight e + weigh weight script := rfl

/-- A measure of the state that polling leaves alone, and that an action of the environment
raises by its weight at most. -/
structure Paced (rt : Runtime Op Ans σ ε) (f : σ → Nat) (weight : ε → Nat) : Prop where
  poll : ∀ op s, f (rt.poll op s).2 = f s
  act : ∀ e s, f (rt.act e s) ≤ f s + weight e

/-- Waiting raises it by the weight of the actions it uses up. -/
theorem Paced.await {f : σ → Nat} {weight : ε → Nat} (h : rt.Paced f weight) (op : Op)
    (script : List ε) (s : σ) :
    f (rt.await op script s).2.1 + weigh weight (rt.await op script s).2.2 ≤
      f s + weigh weight script := by
  induction script generalizing s with
  | nil => exact Nat.le_of_eq (by rw [Runtime.await, h.poll])
  | cons e script ih =>
    rw [Runtime.await]
    split
    · exact Nat.le_of_eq (by rw [h.poll])
    · refine Nat.le_trans (ih _) ?_
      have hact := h.act e (rt.poll op s).2
      rw [h.poll] at hact
      rw [weigh_cons]
      omega

/-- An execution raises it by the weight of its script at most. -/
theorem Paced.drive {f : σ → Nat} {weight : ε → Nat} (h : rt.Paced f weight)
    (p : Prog Op Ans ρ α) (script : List ε) (s : σ) :
    f (rt.drive p script s).state ≤ f s + weigh weight script := by
  induction p generalizing script s with
  | ret a => exact Nat.le_add_right _ _
  | fail e => exact Nat.le_add_right _ _
  | abort => exact Nat.le_add_right _ _
  | call op k ih =>
    have hawait := h.await op script s
    simp only [Runtime.drive]
    split
    · rename_i a t rest heq
      rw [heq] at hawait
      exact Nat.le_trans (ih a rest t) hawait
    · rename_i t rest heq
      rw [heq] at hawait
      exact Nat.le_trans (Nat.le_add_right _ _) hawait

/-- A condition that polling keeps, and under which one more action of the environment that
keeps it answers a pending operation. -/
structure RespondsWithin (rt : Runtime Op Ans σ ε) (I : σ → Prop) : Prop where
  poll : ∀ op s, I s → I (rt.poll op s).2
  wake : ∀ op s, (rt.poll op s).1 = none → I (rt.poll op s).2 →
    ∃ e, I (rt.act e (rt.poll op s).2) ∧ (rt.poll op (rt.act e (rt.poll op s).2)).1.isSome

theorem Responsive.within (h : rt.Responsive) : rt.RespondsWithin fun _ => True where
  poll _ _ _ := trivial
  wake op s hpend _ := by
    obtain ⟨e, he⟩ := h op s hpend
    exact ⟨e, trivial, he⟩

/-- An execution without further actions of the environment keeps the condition. -/
theorem RespondsWithin.drive_nil {I : σ → Prop} (h : rt.RespondsWithin I)
    (p : Prog Op Ans ρ α) {s : σ} (hs : I s) : I (rt.drive p [] s).state := by
  induction p generalizing s with
  | ret a => exact hs
  | fail e => exact hs
  | abort => exact hs
  | call op k ih =>
    have hpoll := h.poll op s hs
    simp only [Runtime.drive, await]
    cases (rt.poll op s).1 with
    | some a => exact ih a hpoll
    | none => exact hpoll

/-- Where the environment can answer within a condition, every execution suspended under it
can be driven to an end under it, and what it had done by then is below what the finished
execution has done. -/
theorem exists_completion_within {I : σ → Prop} {le : σ → σ → Prop} (hr : rt.RespondsWithin I)
    (hg : rt.Grows le) (p : Prog Op Ans ρ α) (script : List ε) (s : σ)
    (hI : I (rt.drive p script s).state) :
    ∃ more, (rt.drive p (script ++ more) s).out ≠ .pending ∧
      le (rt.drive p script s).state (rt.drive p (script ++ more) s).state ∧
      I (rt.drive p (script ++ more) s).state := by
  induction p generalizing script s with
  | ret a => exact ⟨[], by simp [Runtime.drive], hg.refl _, hI⟩
  | fail e => exact ⟨[], by simp [Runtime.drive], hg.refl _, hI⟩
  | abort => exact ⟨[], by simp [Runtime.drive], hg.refl _, hI⟩
  | call op k ih =>
    cases ha : rt.await op script s with
    | mk r tr =>
      obtain ⟨t, rest⟩ := tr
      cases r with
      | some a =>
        have hI' : I (rt.drive (k a) rest t).state := by simpa only [Runtime.drive, ha] using hI
        obtain ⟨more, hend, hle, hkept⟩ := ih a rest t hI'
        refine ⟨more, ?_, ?_, ?_⟩
        · simpa only [Runtime.drive, await_append_of_some ha] using hend
        · simpa only [Runtime.drive, ha, await_append_of_some ha] using hle
        · simpa only [Runtime.drive, await_append_of_some ha] using hkept
      | none =>
        have hIt : I t := by simpa only [Runtime.drive, ha] using hI
        obtain ⟨⟨u, _, hp⟩, _⟩ := stalls_of_await ha
        obtain ⟨e, hact, he⟩ := hr.wake op u (by rw [hp]) (by rw [hp]; exact hIt)
        rw [hp] at hact he
        obtain ⟨a, ha'⟩ := Option.isSome_iff_exists.mp he
        have hI' := hr.drive_nil (k a) (hr.poll op _ hact)
        obtain ⟨more, hend, hle, hkept⟩ := ih a [] (rt.poll op (rt.act e t)).2 hI'
        have hcont : rt.await op (script ++ e :: more) s =
            (some a, (rt.poll op (rt.act e t)).2, more) := by
          rw [await_append_of_none ha]
          cases more <;> simp [await, ha']
        refine ⟨e :: more, ?_, ?_, ?_⟩
        · simpa only [Runtime.drive, hcont, List.nil_append] using hend
        · have hup := hg.drive (k a) more (rt.poll op (rt.act e t)).2
          simp only [Runtime.drive, ha, hcont]
          exact hg.trans (hg.act e t) (hg.trans (hg.poll op _) hup)
        · simpa only [Runtime.drive, hcont, List.nil_append] using hkept

/-- Over a responsive host every suspended execution can be driven to an end, and
what it had done by then is below what the finished execution has done. -/
theorem exists_completion {le : σ → σ → Prop} (hr : rt.Responsive) (hg : rt.Grows le)
    (p : Prog Op Ans ρ α) (script : List ε) (s : σ) :
    ∃ more, (rt.drive p (script ++ more) s).out ≠ .pending ∧
      le (rt.drive p script s).state (rt.drive p (script ++ more) s).state := by
  obtain ⟨more, hend, hle, -⟩ := exists_completion_within hr.within hg p script s trivial
  exact ⟨more, hend, hle⟩

end Runtime

end Async
