import Mathlib.Algebra.BigOperators.Group.Finset.Basic
import Mathlib.Data.Fintype.Basic

/-!
# Notifications relayed into a bounded channel

Every source has a task of its own that installs a listener, waits for a notification and
sends a message into a channel shared by all tasks. A notification is a flag: raising it
again before the task has looked changes nothing. The tasks, the sources and the
receiver take their steps in any order; what holds of every order is proved here.
-/

namespace Relay

/-- The await at which the task of a source stands. -/
inductive Phase where
  | starting
  | listening
  | sending
  | done
  deriving DecidableEq, Repr

/-- The notifications that a task at an await has received and not passed on. -/
def Phase.carries : Phase → Nat
  | .sending => 1
  | _ => 0

/-- How many steps a task has before it until it has ended, if nothing more is raised. -/
def Phase.weight : Phase → Nat
  | .starting => 2
  | .listening => 1
  | .sending => 3
  | .done => 0

/-- The tasks, the flags of their listeners and the channel. -/
structure State (ι μ : Type) where
  phase : ι → Phase
  pending : ι → Bool
  queue : List μ
  isOpen : Bool

/-- One step of a task, a source or the receiver. -/
inductive Action (ι μ : Type) where
  | install (k : ι) (ok : Bool)
  | raise (k : ι)
  | receive (k : ι)
  | finish (k : ι)
  | push (k : ι)
  | refuse (k : ι)
  | take (m : μ)
  | drop
  deriving DecidableEq, Repr

variable {ι μ : Type}

/-- The steps of the receiver. -/
def Action.byReceiver : Action ι μ → Bool
  | .take _ | .drop => true
  | _ => false

/-- The steps that a task takes by itself, whatever its listener's stream does. -/
def Action.byTask : Action ι μ → Bool
  | .install _ _ | .receive _ | .push _ | .refuse _ => true
  | _ => false

/-- The sources raised, in order. -/
def raised (as : List (Action ι μ)) : List ι :=
  as.filterMap fun a => match a with
    | .raise k => some k
    | _ => none

/-- The sources whose message was put into the channel, in order. -/
def pushed (as : List (Action ι μ)) : List ι :=
  as.filterMap fun a => match a with
    | .push k => some k
    | _ => none

/-- The messages taken from the channel, in order. -/
def taken (as : List (Action ι μ)) : List μ :=
  as.filterMap fun a => match a with
    | .take m => some m
    | _ => none

@[simp] theorem raised_append (as bs : List (Action ι μ)) :
    raised (as ++ bs) = raised as ++ raised bs :=
  List.filterMap_append

@[simp] theorem pushed_append (as bs : List (Action ι μ)) :
    pushed (as ++ bs) = pushed as ++ pushed bs :=
  List.filterMap_append

@[simp] theorem taken_append (as bs : List (Action ι μ)) :
    taken (as ++ bs) = taken as ++ taken bs :=
  List.filterMap_append

@[simp] theorem taken_takes (ms : List μ) : taken (ms.map (.take : μ → Action ι μ)) = ms := by
  induction ms with
  | nil => rfl
  | cons m ms ih => exact congrArg (m :: ·) ih

theorem Action.not_byReceiver {a : Action ι μ} (h : a.byTask = true) : a.byReceiver = false := by
  cases a <;> first | rfl | cases h

theorem raised_eq_nil_of_byTask {a : Action ι μ} (h : a.byTask = true) : raised [a] = [] := by
  cases a <;> first | rfl | cases h

/-- The listener of a source is installed, and its task waits for it or will do so again. -/
def State.Hears (s : State ι μ) (k : ι) : Prop := s.phase k = .listening ∨ s.phase k = .sending

instance (s : State ι μ) (k : ι) : Decidable (s.Hears k) :=
  inferInstanceAs (Decidable (_ ∨ _))

/-- Something raised at a source has not been taken from the channel yet. -/
def State.Owed (msg : ι → μ) (s : State ι μ) (k : ι) : Prop :=
  s.pending k = true ∨ s.phase k = .sending ∨ msg k ∈ s.queue

/-- What is on its way from a source to the channel. -/
def State.inFlight (s : State ι μ) (k : ι) : Nat :=
  (s.pending k).toNat + (s.phase k).carries

/-- A flag is only up where a task will see it. -/
def State.Heard (s : State ι μ) : Prop :=
  s.isOpen = true → ∀ k, s.pending k = true → s.Hears k

section Step

variable [DecidableEq ι]

/-- A task comes to its next await. -/
def State.move (s : State ι μ) (k : ι) (p : Phase) : State ι μ :=
  { s with phase := Function.update s.phase k p }

/-- The flag of a listener goes up or down. -/
def State.flag (s : State ι μ) (k : ι) (b : Bool) : State ι μ :=
  { s with pending := Function.update s.pending k b }

@[simp] theorem State.move_pending (s : State ι μ) (k : ι) (p : Phase) :
    (s.move k p).pending = s.pending := rfl

@[simp] theorem State.move_queue (s : State ι μ) (k : ι) (p : Phase) :
    (s.move k p).queue = s.queue := rfl

@[simp] theorem State.move_isOpen (s : State ι μ) (k : ι) (p : Phase) :
    (s.move k p).isOpen = s.isOpen := rfl

@[simp] theorem State.flag_phase (s : State ι μ) (k : ι) (b : Bool) :
    (s.flag k b).phase = s.phase := rfl

@[simp] theorem State.flag_queue (s : State ι μ) (k : ι) (b : Bool) :
    (s.flag k b).queue = s.queue := rfl

@[simp] theorem State.flag_isOpen (s : State ι μ) (k : ι) (b : Bool) :
    (s.flag k b).isOpen = s.isOpen := rfl

theorem State.move_phase (s : State ι μ) (k j : ι) (p : Phase) :
    (s.move k p).phase j = if j = k then p else s.phase j := by
  simp [State.move, Function.update_apply]

theorem State.flag_pending (s : State ι μ) (k j : ι) (b : Bool) :
    (s.flag k b).pending j = if j = k then b else s.pending j := by
  simp [State.flag, Function.update_apply]

variable (capacity : Nat) (msg : ι → μ)

/-- Every action that can be taken, with what it needs and what it does. -/
inductive Steps (s : State ι μ) : Action ι μ → State ι μ → Prop
  | installed {k : ι} : s.phase k = .starting → Steps s (.install k true) (s.move k .listening)
  | failed {k : ι} : s.phase k = .starting → Steps s (.install k false) (s.move k .done)
  | heard {k : ι} : s.Hears k → Steps s (.raise k) (s.flag k true)
  | unheard {k : ι} : ¬ s.Hears k → Steps s (.raise k) s
  | received {k : ι} : s.phase k = .listening → s.pending k = true →
      Steps s (.receive k) ((s.flag k false).move k .sending)
  | finished {k : ι} : s.phase k = .listening → s.pending k = false →
      Steps s (.finish k) (s.move k .done)
  | pushed {k : ι} : s.phase k = .sending → s.isOpen = true → s.queue.length < capacity →
      Steps s (.push k) { s.move k .listening with queue := s.queue ++ [msg k] }
  | refused {k : ι} : s.phase k = .sending → s.isOpen = false →
      Steps s (.refuse k) (s.move k .done)
  | taken {m : μ} {rest : List μ} : s.isOpen = true → s.queue = m :: rest →
      Steps s (.take m) { s with queue := rest }
  | dropped : s.isOpen = true → Steps s .drop { s with isOpen := false }

variable {capacity msg} {s t u : State ι μ} {a : Action ι μ} {as bs : List (Action ι μ)}

/-- What a step puts into the channel was on its way, and what is on its way was raised. -/
theorem Steps.count_pushed_le (h : Steps capacity msg s a t) (k : ι) :
    (Relay.pushed [a]).count k + t.inFlight k ≤ (raised [a]).count k + s.inFlight k := by
  cases h with
  | @heard j =>
    by_cases hjk : j = k
    · subst hjk
      cases hp : s.pending j <;>
        simp [Relay.pushed, raised, State.inFlight, State.flag_pending, hp]
    · simp [Relay.pushed, raised, State.inFlight, State.flag_pending, hjk, Ne.symm hjk]
  | @received j hj hp =>
    by_cases hjk : j = k
    · subst hjk
      simp [Relay.pushed, raised, State.inFlight, State.flag_pending, State.move_phase, hj, hp,
        Phase.carries]
    · simp [Relay.pushed, raised, State.inFlight, State.flag_pending, State.move_phase,
        Ne.symm hjk]
  | @pushed j hj =>
    by_cases hjk : j = k
    · subst hjk
      simp [Relay.pushed, raised, State.inFlight, State.move_phase, hj, Phase.carries,
        Nat.add_comm]
    · simp [Relay.pushed, raised, State.inFlight, State.move_phase, hjk, Ne.symm hjk]
  | @installed j hj | @failed j hj | @finished j hj | @refused j hj =>
    by_cases hjk : k = j
    · subst hjk
      simp [Relay.pushed, raised, State.inFlight, State.move_phase, hj, Phase.carries]
    · simp [Relay.pushed, raised, State.inFlight, State.move_phase, hjk]
  | unheard => simp [Relay.pushed, raised]
  | taken => exact Nat.le_of_eq rfl
  | dropped => exact Nat.le_of_eq rfl

/-- A flag that is up while the receiver is there belongs to a task that will see it. -/
theorem Steps.keeps_heard (h : Steps capacity msg s a t) (hs : s.Heard) : t.Heard := by
  intro hopen k
  cases h with
  | @heard j hj =>
    intro hp
    rw [State.flag_pending] at hp
    split at hp
    · rename_i hjk
      exact hjk ▸ hj
    · exact hs hopen k hp
  | @received j hj =>
    intro hp
    rw [State.move_pending, State.flag_pending] at hp
    have hkj : k ≠ j := by
      rintro rfl
      simp at hp
    rw [if_neg hkj] at hp
    have := hs hopen k hp
    simpa [State.Hears, State.move_phase, hkj] using this
  | @installed j hj | @failed j hj =>
    intro hp
    have hk := hs hopen k hp
    have hkj : k ≠ j := by
      rintro rfl
      simp [State.Hears, hj] at hk
    simpa [State.Hears, State.move_phase, hkj] using hk
  | @finished j hj hquiet =>
    intro hp
    have hkj : k ≠ j := by
      rintro rfl
      simp [hquiet] at hp
    simpa [State.Hears, State.move_phase, hkj] using hs hopen k hp
  | @pushed j hj hopen =>
    intro hp
    have hk := hs hopen k hp
    by_cases hkj : k = j
    · simp [State.Hears, State.move_phase, hkj]
    · simpa [State.Hears, State.move_phase, hkj] using hk
  | refused _ hclosed =>
    rw [State.move_isOpen, hclosed] at hopen
    cases hopen
  | dropped => cases hopen
  | _ => exact hs hopen k

/-- The receiver does not come back. -/
theorem Steps.isOpen (h : Steps capacity msg s a t) (ht : t.isOpen = true) : s.isOpen = true := by
  cases h with
  | dropped => cases ht
  | taken hopen => exact hopen
  | _ => exact ht

/-- A task that has ended stays so. -/
theorem Steps.keeps_done (h : Steps capacity msg s a t) {k : ι} (hk : s.phase k = .done) :
    t.phase k = .done := by
  cases h with
  | @received j hj | @pushed j hj | @installed j hj | @failed j hj | @finished j hj
  | @refused j hj =>
    have hkj : k ≠ j := by
      rintro rfl
      rw [hk] at hj
      cases hj
    simpa [State.move_phase, hkj] using hk
  | _ => exact hk

/-- What is owed stays owed until its message is taken or nobody is left to take it. -/
theorem Steps.owed (h : Steps capacity msg s a t) {k : ι} (hk : s.Owed msg k)
    (ht : t.isOpen = true) : t.Owed msg k ∨ a = .take (msg k) := by
  cases h with
  | @heard j =>
    refine .inl (hk.imp_left fun hp => ?_)
    rw [State.flag_pending]
    split
    · rfl
    · exact hp
  | @received j hj hp =>
    by_cases hkj : k = j
    · exact .inl (.inr (.inl (by simp [State.move_phase, hkj])))
    · exact .inl (by simpa [State.Owed, State.move_phase, State.flag_pending, hkj] using hk)
  | @pushed j hj =>
    by_cases hkj : k = j
    · exact .inl (.inr (.inr (by simp [hkj])))
    · refine .inl (hk.imp_right (Or.imp ?_ fun hq => List.mem_append_left _ hq))
      simp [State.move_phase, hkj]
  | @installed j hj | @failed j hj | @finished j hj =>
    refine .inl (hk.imp_right (Or.imp_left fun hsend => ?_))
    have hkj : k ≠ j := by
      rintro rfl
      simp [hj] at hsend
    rw [State.move_phase, if_neg hkj]
    exact hsend
  | refused _ hclosed =>
    rw [State.move_isOpen, hclosed] at ht
    cases ht
  | @taken m rest _ hq =>
    rcases hk with hp | hsend | hmem
    · exact .inl (.inl hp)
    · exact .inl (.inr (.inl hsend))
    · rw [hq] at hmem
      rcases List.mem_cons.mp hmem with rfl | hmem
      · exact .inr rfl
      · exact .inl (.inr (.inr hmem))
  | dropped => cases ht
  | unheard => exact .inl hk

/-- No step of a task pays what is owed. -/
theorem Steps.owed_of_byTask (h : Steps capacity msg s a t) {k : ι} (hk : s.Owed msg k)
    (ht : t.isOpen = true) (ha : a.byTask = true) : t.Owed msg k := by
  rcases h.owed hk ht with howed | rfl
  · exact howed
  · cases ha

/-- A notification that is heard is owed. -/
theorem Steps.owed_of_raise {k : ι} (h : Steps capacity msg s (.raise k) t) (hk : s.Hears k) :
    t.Owed msg k := by
  cases h with
  | heard => exact .inl (by simp [State.flag_pending])
  | unheard hk' => exact absurd hk hk'

section Work

variable [Fintype ι]

/-- How many steps the task of a source has before it. -/
def State.weight (s : State ι μ) (k : ι) : Nat := (s.phase k).weight + 3 * (s.pending k).toNat

/-- How many steps are left before everything raised so far has been taken. -/
def State.work (s : State ι μ) : Nat :=
  (Finset.univ.sum fun k => s.weight k) + s.queue.length + s.isOpen.toNat

/-- Only the weight of the source that moves changes. -/
theorem sum_weight_of_eq {k : ι} (h : ∀ j, j ≠ k → t.weight j = s.weight j) :
    (Finset.univ.sum fun j => t.weight j) + s.weight k =
      (Finset.univ.sum fun j => s.weight j) + t.weight k := by
  have hrest : ∀ j ∈ Finset.univ.erase k, t.weight j = s.weight j := fun j hj =>
    h j (Finset.ne_of_mem_erase hj)
  rw [← Finset.add_sum_erase Finset.univ (fun j => t.weight j) (Finset.mem_univ k),
    ← Finset.add_sum_erase Finset.univ (fun j => s.weight j) (Finset.mem_univ k),
    Finset.sum_congr rfl hrest, Nat.add_right_comm, Nat.add_comm (t.weight k),
    Nat.add_right_comm]

/-- Every step but a notification is one of those that are left. -/
theorem Steps.work_le (h : Steps capacity msg s a t) :
    1 + t.work ≤ s.work + 4 * (raised [a]).length := by
  have hmove : ∀ k, (∀ j, j ≠ k → t.weight j = s.weight j) →
      t.queue.length + t.weight k + t.isOpen.toNat + 1 ≤
        s.queue.length + s.weight k + s.isOpen.toNat + 4 * (raised [a]).length →
      1 + t.work ≤ s.work + 4 * (raised [a]).length := by
    intro k hother hk
    have := sum_weight_of_eq hother
    unfold State.work
    omega
  cases h with
  | @heard k =>
    refine hmove k (fun j hj => by simp [State.weight, State.flag_pending, hj]) ?_
    have hflag : (s.pending k).toNat ≤ 1 := Bool.toNat_le _
    have hone : (raised [(.raise k : Action ι μ)]).length = 1 := rfl
    simp only [State.weight, State.flag_phase, State.flag_pending, State.flag_queue,
      State.flag_isOpen, if_true, Bool.toNat_true, hone]
    omega
  | unheard =>
    show 1 + s.work ≤ s.work + 4
    omega
  | @received k hk hp =>
    refine hmove k (fun j hj => by
      simp [State.weight, State.move_phase, State.flag_pending, hj]) ?_
    simp only [State.weight, State.move_phase, State.move_pending, State.move_queue,
      State.move_isOpen, State.flag_pending, State.flag_queue, State.flag_isOpen, if_true, hk, hp,
      Phase.weight, Bool.toNat_false, Bool.toNat_true]
    omega
  | @pushed k hk =>
    refine hmove k (fun j hj => by simp [State.weight, State.move_phase, hj]) ?_
    simp only [State.weight, State.move_phase, State.move_pending, State.move_isOpen, if_true, hk,
      Phase.weight, List.length_append, List.length_singleton]
    omega
  | @installed k hk | @failed k hk | @finished k hk | @refused k hk =>
    refine hmove k (fun j hj => by simp [State.weight, State.move_phase, hj]) ?_
    simp only [State.weight, State.move_phase, State.move_pending, State.move_queue,
      State.move_isOpen, if_true, hk, Phase.weight]
    omega
  | @taken m rest _ hq =>
    show 1 + ((Finset.univ.sum fun k => s.weight k) + rest.length + s.isOpen.toNat) ≤ s.work + 0
    rw [State.work, hq, List.length_cons]
    omega
  | dropped hopen =>
    show 1 + ((Finset.univ.sum fun k => s.weight k) + s.queue.length + 0) ≤ s.work + 0
    rw [State.work, hopen, Bool.toNat_true]
    omega

end Work

section Run

variable [DecidableEq μ]

variable (capacity msg) in
/-- The effect of one action, if it can be taken. -/
def step (s : State ι μ) : Action ι μ → Option (State ι μ)
  | .install k ok =>
    if s.phase k = .starting then some (s.move k (if ok then .listening else .done)) else none
  | .raise k => some (if s.Hears k then s.flag k true else s)
  | .receive k =>
    if s.phase k = .listening ∧ s.pending k = true then some ((s.flag k false).move k .sending)
    else none
  | .finish k =>
    if s.phase k = .listening ∧ s.pending k = false then some (s.move k .done) else none
  | .push k =>
    if s.phase k = .sending ∧ s.isOpen = true ∧ s.queue.length < capacity then
      some { s.move k .listening with queue := s.queue ++ [msg k] }
    else none
  | .refuse k =>
    if s.phase k = .sending ∧ s.isOpen = false then some (s.move k .done) else none
  | .take m =>
    if s.isOpen = true ∧ s.queue.head? = some m then some { s with queue := s.queue.tail } else none
  | .drop => if s.isOpen = true then some { s with isOpen := false } else none

variable (capacity msg) in
/-- The effect of a sequence of actions, if each of them can be taken. -/
def run (s : State ι μ) : List (Action ι μ) → Option (State ι μ)
  | [] => some s
  | a :: as => (step capacity msg s a).bind fun t => run t as

/-- What an action did. -/
theorem steps_of_step (h : step capacity msg s a = some t) : Steps capacity msg s a t := by
  cases a with
  | install k ok =>
    obtain ⟨hk, heq⟩ := Option.ite_none_right_eq_some.mp h
    cases heq
    cases ok with
    | false => exact .failed hk
    | true => exact .installed hk
  | raise k =>
    rw [step, Option.some.injEq] at h
    subst h
    split
    · exact .heard ‹_›
    · exact .unheard ‹_›
  | receive k =>
    obtain ⟨⟨hk, hp⟩, heq⟩ := Option.ite_none_right_eq_some.mp h
    cases heq
    exact .received hk hp
  | finish k =>
    obtain ⟨⟨hk, hp⟩, heq⟩ := Option.ite_none_right_eq_some.mp h
    cases heq
    exact .finished hk hp
  | push k =>
    obtain ⟨⟨hk, hopen, hroom⟩, heq⟩ := Option.ite_none_right_eq_some.mp h
    cases heq
    exact .pushed hk hopen hroom
  | refuse k =>
    obtain ⟨⟨hk, hopen⟩, heq⟩ := Option.ite_none_right_eq_some.mp h
    cases heq
    exact .refused hk hopen
  | take m =>
    obtain ⟨⟨hopen, hhead⟩, heq⟩ := Option.ite_none_right_eq_some.mp h
    cases heq
    obtain ⟨rest, hrest⟩ := List.head?_eq_some_iff.mp hhead
    rw [hrest]
    exact .taken hopen hrest
  | drop =>
    obtain ⟨hopen, heq⟩ := Option.ite_none_right_eq_some.mp h
    cases heq
    exact .dropped hopen

@[simp] theorem run_nil : run capacity msg s [] = some s := rfl

@[simp] theorem run_singleton : run capacity msg s [a] = step capacity msg s a :=
  Option.bind_fun_some _

/-- The first action of a run, and the run after it. -/
theorem run_cons (h : run capacity msg s (a :: as) = some u) :
    ∃ t, Steps capacity msg s a t ∧ run capacity msg t as = some u := by
  obtain ⟨t, ht, hu⟩ := Option.bind_eq_some_iff.mp h
  exact ⟨t, steps_of_step ht, hu⟩

theorem run_append : run capacity msg s (as ++ bs) =
    (run capacity msg s as).bind fun t => run capacity msg t bs := by
  induction as generalizing s with
  | nil => rfl
  | cons a as ih =>
    simp only [List.cons_append, run, ih, Option.bind_assoc]

/-- What every action preserves holds after a run. -/
theorem run_invariant {P : State ι μ → Prop}
    (hstep : ∀ {s a t}, Steps capacity msg s a t → P s → P t)
    (h : run capacity msg s as = some t) (hs : P s) : P t := by
  induction as generalizing s with
  | nil =>
    rw [run_nil, Option.some.injEq] at h
    exact h ▸ hs
  | cons a as ih =>
    obtain ⟨v, hv, hrun⟩ := run_cons h
    exact ih hrun (hstep hv hs)

/-- The receiver takes what is first in the channel. -/
theorem run_takes {ms rest : List μ} (hopen : s.isOpen = true) (hq : s.queue = ms ++ rest) :
    run capacity msg s (ms.map .take) = some { s with queue := rest } := by
  induction ms generalizing s with
  | nil =>
    subst hq
    rfl
  | cons m ms ih =>
    have hfirst : step capacity msg s (.take m) = some { s with queue := ms ++ rest } := by
      simp [step, hopen, hq]
    rw [List.map_cons, run, hfirst, Option.bind_some]
    exact ih hopen rfl

/-- The channel never holds more than its capacity. -/
theorem queue_length_le (h : run capacity msg s as = some t) (hs : s.queue.length ≤ capacity) :
    t.queue.length ≤ capacity := by
  refine run_invariant (P := fun s => s.queue.length ≤ capacity) (fun hv hs => ?_) h hs
  cases hv with
  | pushed _ _ hroom =>
    rw [List.length_append]
    exact hroom
  | taken _ hq =>
    rw [hq, List.length_cons] at hs
    exact Nat.le_of_succ_le hs
  | _ => exact hs

/-- Messages are taken in the order they were put in, each once. -/
theorem queue_fifo (h : run capacity msg s as = some t) :
    s.queue ++ (pushed as).map msg = taken as ++ t.queue := by
  induction as generalizing s with
  | nil =>
    rw [run_nil, Option.some.injEq] at h
    subst h
    simp [pushed, taken]
  | cons a as ih =>
    obtain ⟨v, hv, hrun⟩ := run_cons h
    have hrest := ih hrun
    cases hv with
    | pushed => simpa [pushed, taken] using hrest
    | taken _ hq =>
      rw [hq]
      simpa [pushed, taken] using hrest
    | _ => exact hrest

/-- No source puts more into the channel than was raised at it, less what is on its way. -/
theorem count_pushed_le (h : run capacity msg s as = some t) (k : ι) :
    (pushed as).count k + t.inFlight k ≤ (raised as).count k + s.inFlight k := by
  induction as generalizing s with
  | nil =>
    rw [run_nil, Option.some.injEq] at h
    subst h
    simp [pushed, raised]
  | cons a as ih =>
    obtain ⟨v, hv, hrun⟩ := run_cons h
    have hfirst := hv.count_pushed_le k
    have hrest := ih hrun
    rw [← List.singleton_append, pushed_append, raised_append, List.count_append,
      List.count_append]
    omega

theorem heard_run (h : run capacity msg s as = some t) (hs : s.Heard) : t.Heard :=
  run_invariant (fun hv hs => hv.keeps_heard hs) h hs

theorem isOpen_run (h : run capacity msg s as = some t) (ht : t.isOpen = true) :
    s.isOpen = true := by
  induction as generalizing s with
  | nil =>
    rw [run_nil, Option.some.injEq] at h
    exact h ▸ ht
  | cons a as ih =>
    obtain ⟨v, hv, hrun⟩ := run_cons h
    exact hv.isOpen (ih hrun)

/-- No notification is lost: what is owed is still owed after a run, or its message has been
taken in the course of it. -/
theorem owed_run (h : run capacity msg s as = some t) {k : ι} (hk : s.Owed msg k)
    (ht : t.isOpen = true) : t.Owed msg k ∨ msg k ∈ taken as := by
  induction as generalizing s with
  | nil =>
    rw [run_nil, Option.some.injEq] at h
    exact .inl (h ▸ hk)
  | cons a as ih =>
    obtain ⟨v, hv, hrun⟩ := run_cons h
    rcases hv.owed hk (isOpen_run hrun ht) with hv | rfl
    · refine (ih hrun hv).imp_right fun hmem => ?_
      rw [← List.singleton_append, taken_append]
      exact List.mem_append_right _ hmem
    · exact .inr List.mem_cons_self

/-- No task can take a step by itself. -/
def State.Idle (capacity : Nat) (msg : ι → μ) (s : State ι μ) : Prop :=
  ∀ a, a.byTask = true → step capacity msg s a = none

/-- When no task can take a step and the channel is empty, nothing is owed and every task has
installed its listener or ended. -/
theorem State.Idle.settled (h : s.Idle capacity msg) (hheard : s.Heard) (hopen : s.isOpen = true)
    (hroom : s.queue.length < capacity) (k : ι) :
    s.pending k = false ∧ (s.phase k = .listening ∨ s.phase k = .done) := by
  have hinstall := h (.install k true) rfl
  have hreceive := h (.receive k) rfl
  have hpush := h (.push k) rfl
  simp only [step, ite_eq_right_iff, reduceCtorEq, imp_false] at hinstall hreceive hpush
  have hphase : s.phase k = .listening ∨ s.phase k = .done := by
    cases hk : s.phase k with
    | starting => exact absurd hk hinstall
    | listening => exact .inl rfl
    | sending => exact absurd ⟨hk, hopen, hroom⟩ hpush
    | done => exact .inr rfl
  refine ⟨?_, hphase⟩
  by_contra hp
  have hp : s.pending k = true := by simpa using hp
  rcases hheard hopen k hp with hk | hk
  · exact hreceive ⟨hk, hp⟩
  · exact hpush ⟨hk, hopen, hroom⟩

/-- A notification that was heard is owed, or its message has been taken since. -/
theorem owed_of_raise {k : ι} (h : run capacity msg s (.raise k :: as) = some t)
    (hk : s.Hears k) (ht : t.isOpen = true) : t.Owed msg k ∨ msg k ∈ taken as := by
  obtain ⟨v, hv, hrun⟩ := run_cons h
  exact owed_run hrun (hv.owed_of_raise hk) ht

end Run

end Step

end Relay
