import RustyAutossh.Alternation
import RustyAutossh.Correctness.SpawnRate

/-!
# Every spawn answers one call

After the first spawn attempt the loop makes one for each decision to respawn and for each signal
on which the child is replaced, and none besides: it owes no attempt to an earlier call when
another one comes, and it makes none that nothing called for.
-/

namespace RustyAutossh

open Async Runtime

/-- A line that calls for a spawn: a decision to respawn, or a renewing signal. -/
def Entry.calls (e : Entry) : Bool :=
  match e.act with
  | .passed (.decided _ _ _ .respawn) => true
  | .passed (.ticked (.signal kind)) => !kind.stops
  | _ => false

/-- The calls and the attempts of a log. -/
def demand (es : List Entry) : List Entry := es.filter fun e => e.spawns || e.calls

@[simp] theorem demand_nil : demand [] = [] := rfl

@[simp] theorem demand_append (es fs : List Entry) :
    demand (es ++ fs) = demand es ++ demand fs := List.filter_append ..

@[simp] theorem demand_passed_cons (s : Sys) (m : Mark) (es : List Entry) :
    demand (s.line (.passed m) :: es) =
      if (s.line (.passed m)).calls then s.line (.passed m) :: demand es else demand es := by
  have hspawns : (s.line (.passed m)).spawns = false := rfl
  cases h : (s.line (.passed m)).calls <;> simp [demand, hspawns, h]

/-- Calls and attempts are part of the core. -/
theorem demand_core (es : List Entry) : demand (core es) = demand es := by
  rw [demand, demand, core, List.filter_filter]
  refine List.filter_congr fun e _ => ?_
  unfold Entry.spawns Entry.calls
  cases e.act with
  | passed m => exact Bool.and_true _
  | _ => rfl

@[simp] theorem Emitted.demand_eq {s t : Sys} {evs : List SupervisorEvent} {es : List Entry}
    (h : Emitted s evs es t) : demand es = [] := by
  rw [← demand_core, h.core_eq, demand_nil]

@[simp] theorem Terminates.demand_eq {s t : Sys} {c : Child} {es : List Entry}
    (h : Terminates s c es t) : demand es = [] := by
  rw [← demand_core, h.core_eq, demand_nil]

/-- A launch is one attempt. -/
theorem Launches.demand_eq {s t : Sys} {announced : List SupervisorEvent} {es : List Entry}
    {out : End AutosshError Flow} (h : Launches s announced es out t) :
    ∃ e, demand es = [e] ∧ e.spawns = true := by
  rw [← demand_core, h.core_eq]
  exact ⟨_, rfl, rfl⟩

@[simp] theorem Ticks.demand_eq {s t : Sys} {next next' : Option Instant} {c : Child}
    {es : List Entry} {outcome : LoopOutcome} (h : Ticks s next c es outcome next' t) :
    demand es = [] := by
  cases h <;> rfl

/-- Losing a child calls for nothing; what is decided on it may. -/
@[simp] theorem Lost.demand_eq {s t : Sys} {next : Option Instant} {c : Child} {es : List Entry}
    {outcome : LoopOutcome} {status : ExitStatus} {lifetime : Duration}
    (h : Lost s next c es outcome status lifetime t) : demand es = [] := by
  cases h with
  | exited hticks hem =>
    rw [demand_passed_cons, hem.demand_eq]
    rfl
  | timedOut hticks hem hterm _ hem' =>
    rw [demand_append, hticks.demand_eq, demand_passed_cons, demand_append, demand_append,
      hem.demand_eq, hterm.demand_eq, hem'.demand_eq]
    rfl

/-- What a stretch adds to the calls and the attempts: nothing, or a call and its attempt. -/
inductive Answers : List Entry → Prop
  | quiet : Answers []
  | answered {call spawn : Entry} : call.calls = true → spawn.spawns = true →
      Answers [call, spawn]

/-- A turn answers the call it makes. -/
theorem Turn.answers {s t : Sys} {next : Option Instant} {c : Child} {es : List Entry}
    {out : End AutosshError Flow} (h : Turn s next c es out t) : Answers (demand es) := by
  cases h with
  | expired _ hem hterm =>
    rw [demand_passed_cons, demand_append, hem.demand_eq, hterm.demand_eq]
    exact .quiet
  | waitFailed => exact .quiet
  | probeOverflow _ hfails =>
    cases hfails with
    | overflow => exact .quiet
  | probeOk _ hticks =>
    rw [demand_append, hticks.demand_eq, demand_passed_cons]
    exact .quiet
  | terminateFailed _ hticks hem hterm =>
    rw [demand_append, hticks.demand_eq, demand_passed_cons, demand_append, hem.demand_eq,
      hterm.demand_eq]
    exact .quiet
  | lost _ hlost hdec hset =>
    rw [demand_append, hlost.demand_eq, List.nil_append, demand_passed_cons]
    cases hset with
    | respawn _ _ hl =>
      obtain ⟨e, he, hspawns⟩ := hl.demand_eq
      rw [he]
      exact .answered rfl hspawns
    | finished => exact .quiet
    | capped hem =>
      rw [hem.demand_eq]
      exact .quiet
    | oneShotExit => exact .quiet
    | oneShotTimeout => exact .quiet
  | stopped _ _ hstops hem hterm =>
    rw [demand_passed_cons, demand_append, hem.demand_eq, hterm.demand_eq]
    simp [Entry.calls, hstops, Answers.quiet]
  | @renewed kind _ _ _ a _ _ _ _ _ _ hrenews hem hterm hl =>
    obtain ⟨e, he, hspawns⟩ := hl.demand_eq
    have hcalls : (a.line (.passed (.ticked (.signal kind)))).calls = true := by
      simp [Entry.calls, hrenews]
    rw [demand_passed_cons, if_pos hcalls, demand_append, demand_append, hem.demand_eq,
      hterm.demand_eq, he]
    exact .answered hcalls hspawns

/-- Calls and attempts alternate, beginning with an attempt and ending in one. -/
structure Accounted (es : List Entry) : Prop where
  alternates : Alternation.Alternates Entry.spawns Entry.calls es
  first : ∀ e, (demand es).head? = some e → e.spawns = true
  last : ∃ e, (demand es).getLast? = some e ∧ e.spawns = true

/-- No line both calls and spawns. -/
theorem Entry.not_spawns_of_calls {e : Entry} (h : e.calls = true) : e.spawns = false := by
  unfold Entry.calls at h
  unfold Entry.spawns
  cases hact : e.act <;> simp_all

/-- A log that ends in an attempt is continued by a call and its attempt, or by nothing. -/
theorem Accounted.append {es fs : List Entry} (h : Accounted es) (hfs : Answers (demand fs)) :
    Accounted (es ++ fs) := by
  obtain ⟨e, he, hspawns⟩ := h.last
  generalize hdemand : demand fs = new at hfs
  have hjoin (hnew : Alternation.Alternates Entry.spawns Entry.calls fs)
      (hcall : ∀ y, new.head? = some y → y.spawns = false) :
      Alternation.Alternates Entry.spawns Entry.calls (es ++ fs) := by
    refine h.alternates.append hnew fun x y hx hy => ?_
    have hx : (demand es).getLast? = some x := hx
    have hy : (demand fs).head? = some y := hy
    rw [he, Option.some.injEq] at hx
    rw [hdemand] at hy
    rw [← hx, hspawns, hcall y hy]
    simp
  have hfirst : ∀ x, (demand es ++ new).head? = some x → x.spawns = true := by
    intro x hx
    cases hes : demand es with
    | nil =>
      rw [hes] at he
      cases he
    | cons y ys =>
      rw [hes, List.cons_append, List.head?_cons] at hx
      exact h.first x (by rw [hes, List.head?_cons, hx])
  have hchain (hnew : new.IsChain (fun a b => a.spawns ≠ b.spawns)) :
      Alternation.Alternates Entry.spawns Entry.calls fs := by
    show (demand fs).IsChain _
    rw [hdemand]
    exact hnew
  rw [← hdemand, ← demand_append] at hfirst
  cases hfs with
  | quiet =>
    refine ⟨hjoin (hchain .nil) (by simp), hfirst, e, ?_, hspawns⟩
    rw [demand_append, hdemand, List.append_nil, he]
  | @answered call spawn hcall hspawn =>
    have hno := Entry.not_spawns_of_calls hcall
    refine ⟨hjoin (hchain ?_) (by simpa using hno), hfirst, spawn, ?_, hspawn⟩
    · simp [hno, hspawn]
    · rw [demand_append, hdemand]
      simp

/-- The log of every run is accounted for. -/
theorem RunEnd.accounted {s₀ t : Sys} {n : Nat} {out : End AutosshError Flow}
    (h : RunEnd s₀ n out t) (hs : s₀.Fresh) : Accounted t.world.history := by
  refine h.invariant (fun _ _ es => Accounted es) (fun hl => ?_)
    (fun _ ih hturn => ih.append hturn.answers) hs
  obtain ⟨e, he, hspawns⟩ := hl.demand_eq
  refine ⟨?_, fun x hx => ?_, e, by rw [he]; rfl, hspawns⟩
  · show (demand _).IsChain _
    rw [he]
    exact .singleton _
  · rw [he, List.head?_cons, Option.some.injEq] at hx
    exact hx ▸ hspawns

/-- In the log of every execution the spawn attempts and the calls for one alternate, and an
attempt comes first: between two attempts there is exactly one decision to respawn or renewing
signal, and each of these is answered by one attempt before the next. An execution that is not
suspended has answered the last call as well. -/
theorem run_spawns_answer_calls (s₀ : Sys) (hs : s₀.Fresh) (n : Nat)
    (script : List (List Event)) :
    Alternation.Alternates Entry.spawns Entry.calls (execute n script s₀).state.world.history ∧
      (∀ e, ((execute n script s₀).state.world.history.filter
        fun e => e.spawns || e.calls).head? = some e → e.spawns = true) ∧
      ((execute n script s₀).out ≠ .pending →
        ∃ e, ((execute n script s₀).state.world.history.filter
          fun e => e.spawns || e.calls).getLast? = some e ∧ e.spawns = true) := by
  obtain ⟨out, t, hrun, more, hmore⟩ := execute_logGrows hs.still n script
  have haccounted := hrun.accounted hs
  rw [← hmore] at haccounted
  refine ⟨haccounted.alternates.left_of_append, fun e he => haccounted.first e ?_,
    fun hend => ((runEnd_of_execute hs.still hend).accounted hs).last⟩
  rw [demand_append, List.head?_append]
  exact Option.or_of_isSome (by rw [demand, he]; rfl) |>.trans he

/-- A crash, the backoff, and a hangup right after it: three attempts, with two calls between,
and both of them answered. -/
theorem run_spawns_answer_calls_hangup :
    let log := (execute 2 [[.exit 0 ⟨256⟩], [.elapse (Duration.fromSecs 30)],
      [.signal (.signalReceived .hangup)], [.exit 1 ⟨15⟩]]
      ⟨.initial, .initial .unix⟩).state.world.history
    log.countP Entry.spawns = 3 ∧ log.countP Entry.calls = 2 ∧
      Alternation.Alternates Entry.spawns Entry.calls log ∧
      ∃ e, (log.filter fun e => e.spawns || e.calls).getLast? = some e ∧ e.spawns = true := by
  obtain ⟨halternates, -, hlast⟩ := run_spawns_answer_calls _
    (Sys.fresh_initial .initial .unix rfl) 2 [[.exit 0 ⟨256⟩], [.elapse (Duration.fromSecs 30)],
      [.signal (.signalReceived .hangup)], [.exit 1 ⟨15⟩]]
  exact ⟨by decide +kernel, by decide +kernel, halternates, hlast (by decide +kernel)⟩

end RustyAutossh
