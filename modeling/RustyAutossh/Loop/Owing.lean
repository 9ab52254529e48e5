import RustyAutossh.Async.Typestate
import RustyAutossh.Loop.Footprint
import RustyAutossh.Loop.Relaunch

/-!
# When a child is owed

A run owes a child from its start, and again from the answer that tells it of a loss or brings
a renewing signal, up to the next attempt to spawn one. It spawns, reports a loss or a renewing
signal, and gives up at the cap, only while it owes one.
-/

namespace RustyAutossh

open Async

/-- Whether a child is owed behind an answer. -/
def Op.owing (owing : Bool) : (op : Op) → op.Answer → Bool
  | .select _ _ _, .exited (.ok _) => true
  | .select _ _ _, .received (some (.signalReceived kind)) => owing || !kind.stops
  | .roundtrip _ _ _, some (.ok _) => owing
  | .roundtrip _ _ _, some (.error _) => true
  | .roundtrip _ _ _, none => true
  | .spawn _ _, _ => false
  | _, _ => owing

/-- What may be done only while a child is owed. -/
def Op.Due (owing : Bool) : Op → Prop
  | .spawn _ _ => owing = true
  | .trace (.ticked outcome) => outcome.replaces = true → owing = true
  | _ => True

/-- An operation that neither spawns nor logs an outcome, and is answered neither a loss nor
a signal. -/
def Op.Steady : Op → Prop
  | .spawn _ _ | .select _ _ _ | .roundtrip _ _ _ => False
  | .trace (.ticked _) => False
  | _ => True

/-- The function does what is due only while a child is owed, as its callers leave it, and
gives up at the cap only then. -/
def Dutiful {α : Type} (Q : Bool → α → Prop) (p : Future α) (owing : Bool) : Prop :=
  p.Obeys Op.owing Op.Due (fun owing e => (∃ a, e = .maxStartReached a) → owing = true) Q owing

section Rules

variable {α β : Type} {owing : Bool}

theorem dutiful_bind {Q : Bool → β → Prop} {p : Future α} {f : α → Future β} :
    Dutiful Q (p >>= f) owing ↔ Dutiful (fun owing a => Dutiful Q (f a) owing) p owing :=
  Prog.obeys_bind

/-- An awaited operation and what follows its answer. -/
theorem dutiful_await {Q : Bool → α → Prop} {op : Op} {f : op.Answer → Future α}
    (hop : op.Due owing) (hf : ∀ r, Dutiful Q (f r) (Op.owing owing op r)) :
    Dutiful Q (await op >>= f) owing :=
  ⟨hop, hf⟩

theorem dutiful_modifySelf {Q : Bool → α → Prop} {f : Supervisor → Supervisor}
    {k : Unit → Future α} (hk : Dutiful Q (k ()) owing) :
    Dutiful Q (modifySelf f >>= k) owing :=
  dutiful_await trivial fun _ => dutiful_await trivial fun _ => hk

theorem dutiful_liftIo {Q : Bool → α → Prop} {r : Except IoError α} (hQ : ∀ a, Q owing a) :
    Dutiful Q (liftIo r) owing := by
  cases r with
  | error e =>
    rintro ⟨a, ha⟩
    cases ha
  | ok a => exact hQ a

/-- Behind an event the typestate is the one before it. -/
theorem dutiful_emit {Q : Bool → Unit → Prop} (ev : SupervisorEvent) (hQ : Q owing ()) :
    Dutiful Q (emit ev) owing := by
  refine dutiful_await trivial fun self => ?_
  split
  · exact dutiful_await trivial fun _ => hQ
  · exact hQ

theorem dutiful_nowPlus {Q : Bool → Instant → Prop} (d : Duration) (hQ : ∀ t, Q owing t) :
    Dutiful Q (nowPlus d) owing := by
  refine dutiful_await trivial fun now => dutiful_await trivial fun os => ?_
  split
  · exact hQ _
  · trivial

theorem Op.Terminating.steady {op : Op} (h : op.Terminating) : op.Steady := by
  cases op with
  | target | now | this | put | childId | kill | startKill | wait | waitTimeout => trivial
  | _ => exact h.elim

theorem Op.Steady.due {op : Op} (h : op.Steady) : op.Due owing := by
  cases op with
  | trace m =>
    cases m with
    | ticked => exact h.elim
    | _ => trivial
  | spawn => exact h.elim
  | _ => trivial

theorem Op.Steady.owing_eq {op : Op} (h : op.Steady) (r : op.Answer) :
    Op.owing owing op r = owing := by
  cases op with
  | spawn | select | roundtrip => exact h.elim
  | _ => rfl

/-- Terminating the child leaves the typestate alone. -/
theorem dutiful_terminateChild {Q : Bool → Option ExitStatus → Prop}
    (hQ : ∀ status, Q true status) : Dutiful Q terminateChild true :=
  (terminateChild_only.mono fun _ => Op.Terminating.steady).obeys (fun _ => Op.Steady.due)
    (fun _ r hop => hop.owing_eq r) (fun _ _ => rfl) hQ

/-- So it does where its failure is kept. -/
theorem dutiful_attempt_terminateChild {Q : Bool → Except AutosshError (Option ExitStatus) → Prop}
    (hQ : ∀ r, Q owing r) : Dutiful Q terminateChild.attempt owing :=
  Prog.obeys_attempt.mpr ((terminateChild_only.mono fun _ => Op.Terminating.steady).obeys
    (fun _ => Op.Steady.due) (fun _ r hop => hop.owing_eq r) (fun _ => hQ _) fun _ => hQ _)

end Rules

section Loop

variable {owing : Bool}

theorem dutiful_spawnChild {Q : Bool → Unit → Prop} (hQ : Q false ()) :
    Dutiful Q spawnChild true := by
  refine dutiful_await trivial fun self => dutiful_bind.mpr ?_
  refine dutiful_await rfl fun r => dutiful_liftIo fun c => ?_
  refine dutiful_await trivial fun pid => dutiful_modifySelf ?_
  exact dutiful_await trivial fun now => dutiful_modifySelf (dutiful_emit _ hQ)

/-- The child is spawned and announced. -/
theorem dutiful_respawned {Q : Bool → Unit → Prop} (hQ : Q false ()) :
    Dutiful Q (do spawnChild; emit .childRespawned) true :=
  dutiful_bind.mpr (dutiful_spawnChild (dutiful_emit _ hQ))

theorem dutiful_respawn {Q : Bool → Unit → Prop} (hQ : Q false ()) : Dutiful Q respawn true := by
  refine dutiful_await trivial fun self => dutiful_bind.mpr ?_
  refine dutiful_await trivial fun now => dutiful_await trivial fun os => ?_
  exact dutiful_await trivial fun _ => dutiful_respawned hQ

theorem dutiful_firstProbe {Q : Bool → Option Instant → Prop} (hQ : ∀ next, Q owing next) :
    Dutiful Q firstProbe owing := by
  refine dutiful_await trivial fun self => ?_
  split
  · exact dutiful_bind.mpr (dutiful_nowPlus _ fun t => hQ _)
  · exact hQ _

theorem dutiful_childLifetime {Q : Bool → Duration → Prop} (hQ : ∀ d, Q owing d) :
    Dutiful Q childLifetime owing := by
  refine dutiful_await trivial fun self => ?_
  split
  · exact dutiful_await trivial fun now => hQ _
  · exact hQ _

/-- A failed probe owes a child. -/
theorem dutiful_probe (loop : ProbeLoop) (poll : Duration) :
    Dutiful (fun owing r => (∃ e, r = .error e) → owing = true) (loop.probe poll) owing := by
  refine dutiful_await trivial fun t => dutiful_await trivial fun _ =>
    dutiful_await trivial fun now => dutiful_await trivial fun os =>
    dutiful_await trivial fun r => ?_
  match r with
  | some (.ok _) =>
    rintro ⟨e, he⟩
    cases he
  | some (.error e) => exact fun _ => rfl
  | none => exact fun _ => rfl

theorem dutiful_probeBranch :
    Dutiful (fun owing o => o.1.replaces = true → owing = true) probeBranch owing := by
  refine dutiful_await trivial fun self => ?_
  split
  · intro h
    cases h
  · refine dutiful_bind.mpr (Prog.Obeys.mono (dutiful_probe _ _) fun owing r hr => ?_)
    cases r with
    | ok u =>
      refine dutiful_bind.mpr (dutiful_nowPlus _ fun t h => ?_)
      cases h
    | error e => exact dutiful_bind.mpr (dutiful_nowPlus _ fun t _ => hr ⟨e, rfl⟩)

/-- A tick that tells of a loss or of a renewing signal owes a child. -/
theorem dutiful_selectOneTick (next : Option Instant) :
    Dutiful (fun owing o => o.1.replaces = true → owing = true) (selectOneTick next) owing := by
  refine dutiful_await trivial fun self => dutiful_await trivial fun now => ?_
  split
  · rintro ⟨a, ha⟩
    cases ha
  · refine dutiful_await trivial fun os => dutiful_await trivial fun wakeup => ?_
    cases wakeup with
    | exited result =>
      cases result with
      | error e =>
        rintro ⟨a, ha⟩
        cases ha
      | ok status =>
        exact dutiful_bind.mpr (dutiful_liftIo fun status =>
          dutiful_bind.mpr (dutiful_childLifetime fun d _ => rfl))
    | timer => exact dutiful_probeBranch
    | received ev =>
      rcases ev with _ | ev
      · intro h
        cases h
      · cases ev with
        | signalReceived kind =>
          intro h
          have h : (!kind.stops) = true := h
          show (owing || !kind.stops) = true
          rw [h, Bool.or_true]
        | _ =>
          intro h
          cases h

theorem dutiful_respawnDecision {Q : Bool → RespawnDecision → Prop} (outcome : LoopOutcome)
    (status : ExitStatus) (lifetime : Duration) (hQ : ∀ decision, Q owing decision) :
    Dutiful Q (respawnDecision outcome status lifetime) owing :=
  dutiful_await trivial fun _ => dutiful_await trivial fun _ => dutiful_await trivial fun _ => hQ _

/-- The end of a run at its cap. -/
theorem dutiful_capped (attempts : UInt32) : Dutiful (fun _ _ => True)
    (do emit (.maxStartReached attempts); (.fail (.maxStartReached attempts) : Future Flow))
    true :=
  dutiful_bind.mpr (dutiful_emit _ fun _ => rfl)

theorem dutiful_onChildExited (status : ExitStatus) (lifetime : Duration) :
    Dutiful (fun _ _ => True) (onChildExited status lifetime) true := by
  refine dutiful_bind.mpr (dutiful_emit _ (dutiful_modifySelf (dutiful_bind.mpr ?_)))
  refine dutiful_respawnDecision _ _ _ fun decision => ?_
  split
  · exact dutiful_bind.mpr (dutiful_respawn
      (dutiful_bind.mpr (dutiful_firstProbe fun _ => trivial)))
  · trivial
  · trivial
  · exact dutiful_capped _
  · exact fun _ => rfl

theorem dutiful_onProbeTimeout (next : Option Instant) :
    Dutiful (fun _ _ => True) (onProbeTimeout next) true := by
  refine dutiful_bind.mpr (dutiful_emit _ (dutiful_bind.mpr
    (dutiful_terminateChild fun status => ?_)))
  split
  · trivial
  · refine dutiful_bind.mpr (dutiful_emit _ (dutiful_bind.mpr
      (dutiful_childLifetime fun lifetime => ?_)))
    refine dutiful_await trivial fun os => dutiful_bind.mpr
      (dutiful_respawnDecision _ _ _ fun decision => ?_)
    split
    · exact dutiful_bind.mpr (dutiful_respawn (dutiful_await trivial fun self =>
        dutiful_bind.mpr (dutiful_nowPlus _ fun _ => trivial)))
    · exact dutiful_capped _
    · trivial

theorem dutiful_onSignal (kind : SignalKind) (h : (!kind.stops) = true → owing = true) :
    Dutiful (fun _ _ => True) (onSignal kind) owing := by
  refine dutiful_bind.mpr (dutiful_emit _ ?_)
  have hprobe : Dutiful (fun _ _ => True)
      (do let next ← firstProbe; (pure (.looping next) : Future Flow)) false :=
    dutiful_bind.mpr (dutiful_firstProbe fun _ => trivial)
  cases kind with
  | userDefined1 =>
    obtain rfl := h rfl
    exact dutiful_bind.mpr (dutiful_bind.mpr
      (dutiful_attempt_terminateChild fun _ => dutiful_respawned hprobe))
  | hangup =>
    obtain rfl := h rfl
    exact dutiful_bind.mpr (dutiful_modifySelf (dutiful_bind.mpr
      (dutiful_attempt_terminateChild fun _ => dutiful_respawned hprobe)))
  | _ =>
    exact dutiful_bind.mpr (dutiful_bind.mpr (dutiful_attempt_terminateChild fun _ => trivial))

theorem dutiful_onOutcome (next : Option Instant) (outcome : LoopOutcome)
    (h : outcome.replaces = true → owing = true) :
    Dutiful (fun _ _ => True) (onOutcome next outcome) owing := by
  cases outcome with
  | probeOk => trivial
  | childExited status lifetime =>
    obtain rfl := h rfl
    exact dutiful_onChildExited status lifetime
  | probeTimeout =>
    obtain rfl := h rfl
    exact dutiful_onProbeTimeout next
  | signal kind => exact dutiful_onSignal kind h

theorem dutiful_turn (next : Option Instant) :
    Dutiful (fun _ _ => True) (turn next) owing := by
  refine dutiful_await trivial fun self => dutiful_await trivial fun now => ?_
  split
  · refine dutiful_await trivial fun _ => dutiful_bind.mpr (dutiful_emit _ ?_)
    exact dutiful_bind.mpr (dutiful_attempt_terminateChild fun _ => trivial)
  · refine dutiful_bind.mpr (Prog.Obeys.mono (dutiful_selectOneTick next) fun owing o ho => ?_)
    exact dutiful_await ho fun _ => dutiful_onOutcome _ _ ho

/-- A run owes its first child, and does what is due only while it owes one. -/
theorem dutiful_runFor (n : Nat) : Dutiful (fun _ _ => True) (runFor n) true := by
  induction n with
  | zero =>
    exact dutiful_bind.mpr (dutiful_spawnChild
      (dutiful_bind.mpr (dutiful_firstProbe fun _ => trivial)))
  | succ n ih =>
    refine dutiful_bind.mpr (Prog.Obeys.mono ih fun owing flow _ => ?_)
    cases flow with
    | looping next => exact dutiful_turn next
    | returned => trivial

end Loop

end RustyAutossh
