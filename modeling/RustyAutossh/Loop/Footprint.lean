import RustyAutossh.Loop.Code
import RustyAutossh.Host.Progress

/-!
# The operations of each function

What the operations of a function preserve holds wherever the function waits and
wherever it ends. The functions of the loop leave it to `select_one_tick` to await the
`select!` and to `turn` to log the outcome of a tick, and `terminate_child` waits for
nothing but its child.
-/

namespace RustyAutossh

open Async Runtime

/-- An operation that does not log the outcome of a tick. -/
def Op.Untold : Op → Prop
  | .trace (.ticked _) => False
  | _ => True

/-- An operation that neither awaits the `select!` nor logs the outcome of a tick. -/
def Op.Outside : Op → Prop
  | .select _ _ _ => False
  | .trace (.ticked _) => False
  | _ => True

/-- An operation that neither looks at the status of a child nor logs the outcome of a tick. -/
def Op.Gentle : Op → Prop
  | .wait _ | .waitTimeout _ _ | .select _ _ _ => False
  | .trace (.ticked _) => False
  | _ => True

/-- An operation that is neither part of a probe nor awaits the `select!` nor logs the outcome
of a tick. -/
def Op.Local : Op → Prop
  | .wallClock | .startProbe _ _ | .roundtrip _ _ _ | .select _ _ _ => False
  | .trace (.ticked _) => False
  | _ => True

/-- A local operation that neither signals a child nor looks at its status. -/
def Op.Calm : Op → Prop
  | .kill _ | .startKill _ | .wait _ | .waitTimeout _ _ => False
  | .wallClock | .startProbe _ _ | .roundtrip _ _ _ | .select _ _ _ => False
  | .trace (.ticked _) => False
  | _ => True

/-- The operations of a probe. -/
def Op.Probing : Op → Prop
  | .wallClock | .startProbe _ _ | .now | .target | .roundtrip _ _ _ => True
  | _ => False

/-- The operations of `terminate_child`. -/
def Op.Terminating : Op → Prop
  | .target | .now | .this | .put _ | .childId _ | .kill _ | .startKill _ | .wait _
  | .waitTimeout _ _ => True
  | _ => False

section Rules

variable {P : Op → Prop} {α : Type}

/-- An awaited operation and what follows its answer. -/
theorem only_await {op : Op} {f : op.Answer → Future α} (hop : P op)
    (hf : ∀ r, (f r).Only P) : (await op >>= f).Only P :=
  (Prog.only_perform.mpr hop).bind hf

theorem only_liftIo (r : Except IoError α) : (liftIo r).Only P := by
  cases r <;> trivial

theorem only_modifySelf {f : Supervisor → Supervisor} {k : Unit → Future α} (hthis : P .this)
    (hput : ∀ self, P (.put self)) (hk : (k ()).Only P) : (modifySelf f >>= k).Only P :=
  Prog.Only.bind (only_await hthis fun _ => Prog.only_perform.mpr (hput _)) fun _ => hk

end Rules

section Terminate

variable (c : Child)

private theorem kill_only : c.kill.Only Op.Terminating := by
  refine only_await trivial fun r => ?_
  cases r with
  | error e => trivial
  | ok u => exact only_await trivial fun r => by cases r <;> trivial

private theorem sigterm_only : c.sigterm.Only Op.Terminating := by
  refine only_await trivial fun pid => ?_
  cases pid with
  | none => trivial
  | some pid => exact Prog.only_perform.mpr trivial

private theorem collect_only : Prog.Only Op.Terminating
    (do let status ← liftIo (← await (.wait c)); pure (some status)) :=
  only_await trivial fun r => (only_liftIo r).bind fun _ => trivial

private theorem terminateWindows_only : (terminateWindows c).Only Op.Terminating :=
  (kill_only c).bind fun _ => collect_only c

private theorem terminateUnix_only : (terminateUnix c).Only Op.Terminating := by
  refine (sigterm_only c).bind fun _ => only_await trivial fun _ => only_await trivial fun _ =>
    only_await trivial fun r => ?_
  match r with
  | some (.ok status) => trivial
  | some (.error e) => trivial
  | none => exact (kill_only c).bind fun _ => collect_only c

/-- `terminate_child` issues no operation but its own. -/
theorem terminateChild_only : terminateChild.Only Op.Terminating := by
  refine only_await trivial fun self => ?_
  split
  · trivial
  · refine only_modifySelf trivial (fun _ => trivial) (only_await trivial fun os => ?_)
    split
    · exact terminateUnix_only _
    · exact terminateWindows_only _

/-- The handling of a request to stop. -/
theorem dismiss_only : Prog.Only Op.Terminating
    (do let _ ← terminateChild.attempt; (pure () : Future Unit)) :=
  terminateChild_only.attempt.bind fun _ => trivial

end Terminate

/-- A child is waited for while it is alive. -/
theorem stalls_wait {c : Child} {s t : Sys} (h : host.Stalls (.wait c) s t) :
    t.world.IsAlive c := by
  obtain ⟨u, -, hp⟩ := h
  have hw : u.world.wait c = (none, t.world) := by
    simp only [host, poll, Prod.mk.injEq] at hp
    exact Prod.ext hp.1 (by rw [← hp.2])
  obtain ⟨halive, heq⟩ := World.wait_none hw
  rw [heq]
  exact halive

theorem stalls_waitTimeout {c : Child} {deadline : Instant} {s t : Sys}
    (h : host.Stalls (.waitTimeout c deadline) s t) : t.world.IsAlive c := by
  obtain ⟨u, -, hp⟩ := h
  simp only [host, poll] at hp
  split at hp
  · simp at hp
  · rename_i w heq
    obtain ⟨halive, rfl⟩ := World.wait_none heq
    simp only [Prod.mk.injEq] at hp
    rw [← hp.2]
    exact halive

/-- Every operation of `terminate_child` but the wait for its child is ready, so a
child being terminated is alive as long as it is waited for. -/
theorem alive_of_stalls_terminating {op : Op} {s t : Sys} (hop : op.Terminating)
    (h : host.Stalls op s t) : 0 < t.world.alive := by
  cases op with
  | wait c => exact (stalls_wait h).alive_pos
  | waitTimeout c deadline => exact (stalls_waitTimeout h).alive_pos
  | send => exact hop.elim
  | select => exact hop.elim
  | sleepUntil => exact hop.elim
  | roundtrip => exact hop.elim
  | _ =>
    obtain ⟨u, -, hp⟩ := h
    simp [host, poll] at hp

/-- An event is waited with while its channel is open and full. -/
theorem stalls_send {tx : Sender} {ev : SupervisorEvent} {s t : Sys}
    (h : host.Stalls (.send tx ev) s t) :
    t.world.inboxOpen = true ∧ tx.capacity ≤ t.world.inbox.length := by
  obtain ⟨u, -, hp⟩ := h
  simp only [host, poll, World.send] at hp
  split at hp
  · simp at hp
  · rename_i hopen
    split at hp
    · simp at hp
    · rename_i hfull
      simp only [Prod.mk.injEq, true_and] at hp
      subst hp
      exact ⟨by simpa using hopen, Nat.le_of_not_lt hfull⟩

section Outside

open Op

theorem Op.Terminating.local {op : Op} (h : op.Terminating) : op.Local := by
  cases op with
  | target | now | this | put | childId | kill | startKill | wait | waitTimeout => trivial
  | _ => exact h.elim

theorem Op.Local.outside {op : Op} (h : op.Local) : op.Outside := by
  cases op with
  | trace m =>
    cases m with
    | ticked => exact h.elim
    | _ => trivial
  | select => exact h.elim
  | _ => trivial

theorem outside_of_local {α : Type} {p : Future α} (h : p.Only Local) : p.Only Outside :=
  h.mono fun _ => Op.Local.outside

theorem Op.Terminating.outside {op : Op} (h : op.Terminating) : op.Outside := h.local.outside

theorem Op.Outside.untold {op : Op} (h : op.Outside) : op.Untold := by
  cases op with
  | trace m =>
    cases m with
    | ticked => exact h.elim
    | _ => trivial
  | _ => trivial

theorem untold_of_outside {α : Type} {p : Future α} (h : p.Only Outside) : p.Only Untold :=
  h.mono fun _ => Op.Outside.untold

theorem Op.Gentle.outside {op : Op} (h : op.Gentle) : op.Outside := by
  cases op with
  | trace m =>
    cases m with
    | ticked => exact h.elim
    | _ => trivial
  | select => exact h.elim
  | _ => trivial

theorem outside_of_gentle {α : Type} {p : Future α} (h : p.Only Gentle) : p.Only Outside :=
  h.mono fun _ => Op.Gentle.outside

theorem Op.Calm.gentle {op : Op} (h : op.Calm) : op.Gentle := by
  cases op with
  | trace m =>
    cases m with
    | ticked => exact h.elim
    | _ => trivial
  | wait | waitTimeout | select => exact h.elim
  | _ => trivial

theorem Op.Probing.gentle {op : Op} (h : op.Probing) : op.Gentle := by
  cases op with
  | wallClock | startProbe | now | target | roundtrip => trivial
  | _ => exact h.elim

theorem gentle_of_calm {α : Type} {p : Future α} (h : p.Only Calm) : p.Only Gentle :=
  h.mono fun _ => Op.Calm.gentle

theorem Op.Calm.local {op : Op} (h : op.Calm) : op.Local := by
  cases op with
  | trace m =>
    cases m with
    | ticked => exact h.elim
    | _ => trivial
  | wallClock | startProbe | roundtrip | select => exact h.elim
  | _ => trivial

theorem local_of_calm {α : Type} {p : Future α} (h : p.Only Calm) : p.Only Local :=
  h.mono fun _ => Op.Calm.local

private theorem terminateChild_local : terminateChild.Only Local :=
  terminateChild_only.mono fun _ => Op.Terminating.local

theorem nowPlus_calm (d : Duration) : (nowPlus d).Only Calm := by
  refine only_await trivial fun now => only_await trivial fun os => ?_
  split <;> trivial

theorem nowPlus_gentle (d : Duration) : (nowPlus d).Only Gentle := gentle_of_calm (nowPlus_calm d)

theorem emit_calm (ev : SupervisorEvent) : (emit ev).Only Calm := by
  refine only_await trivial fun self => ?_
  split
  · exact Prog.only_perform.mpr trivial
  · trivial

theorem emit_gentle (ev : SupervisorEvent) : (emit ev).Only Gentle := gentle_of_calm (emit_calm ev)

theorem spawnChild_calm : spawnChild.Only Calm := by
  refine only_await trivial fun self => ?_
  refine Prog.Only.bind (only_await trivial fun r => only_liftIo r) fun c => ?_
  refine only_await trivial fun pid => only_modifySelf trivial (fun _ => trivial) ?_
  refine only_await trivial fun now => only_modifySelf trivial (fun _ => trivial) ?_
  exact emit_calm _

theorem childLifetime_calm : childLifetime.Only Calm := by
  refine only_await trivial fun self => ?_
  split
  · exact only_await trivial fun _ => trivial
  · trivial

theorem childLifetime_gentle : childLifetime.Only Gentle := gentle_of_calm childLifetime_calm

theorem probe_only (m : ProbeLoop) (d : Duration) : (m.probe d).Only Probing := by
  refine only_await trivial fun t => only_await trivial fun _ => only_await trivial fun now =>
    only_await trivial fun os => only_await trivial fun r => ?_
  match r with
  | some (.ok _) => trivial
  | some (.error e) => trivial
  | none => trivial

theorem probe_gentle (m : ProbeLoop) (d : Duration) : (m.probe d).Only Gentle :=
  (probe_only m d).mono fun _ => Op.Probing.gentle

/-- The branch of the timer probes, and does nothing else but calm operations. -/
theorem probeBranch_only {P : Op → Prop} (hprobing : ∀ op, Probing op → P op)
    (hcalm : ∀ op, Calm op → P op) : probeBranch.Only P := by
  refine only_await (hcalm _ trivial) fun self => ?_
  split
  · trivial
  · refine ((probe_only _ _).mono hprobing).bind fun r => ?_
    cases r <;> exact ((nowPlus_calm _).mono hcalm).bind fun _ => trivial

theorem probeBranch_gentle : probeBranch.Only Gentle :=
  probeBranch_only (fun _ => Op.Probing.gentle) fun _ => Op.Calm.gentle

theorem selectOneTick_untold (next : Option Instant) : (selectOneTick next).Only Untold := by
  refine only_await trivial fun self => only_await trivial fun now => ?_
  split
  · trivial
  · refine only_await trivial fun os => only_await trivial fun wakeup => ?_
    split
    · exact (only_liftIo _).bind fun _ =>
        (untold_of_outside (outside_of_gentle childLifetime_gentle)).bind fun _ => trivial
    · exact untold_of_outside (outside_of_gentle probeBranch_gentle)
    · trivial
    · trivial

theorem firstProbe_calm : firstProbe.Only Calm := by
  refine only_await trivial fun self => ?_
  split
  · exact (nowPlus_calm _).bind fun _ => trivial
  · trivial

theorem firstProbe_gentle : firstProbe.Only Gentle := gentle_of_calm firstProbe_calm

private theorem respawn_calm : respawn.Only Calm := by
  refine only_await trivial fun self => Prog.Only.bind ?_ fun _ =>
    spawnChild_calm.bind fun _ => emit_calm _
  exact only_await trivial fun now => only_await trivial fun os => Prog.only_perform.mpr trivial

private theorem respawnDecision_calm (outcome : LoopOutcome) (status : ExitStatus)
    (lifetime : Duration) : (respawnDecision outcome status lifetime).Only Calm :=
  only_await trivial fun _ => only_await trivial fun _ => only_await trivial fun _ => trivial

/-- The end of a run at its cap. -/
private theorem capped_calm (attempts : UInt32) : Prog.Only Calm
    (do emit (.maxStartReached attempts); (.fail (.maxStartReached attempts) : Future Flow)) :=
  (emit_calm _).bind fun _ => trivial

theorem onChildExited_calm (status : ExitStatus) (lifetime : Duration) :
    (onChildExited status lifetime).Only Calm := by
  refine (emit_calm _).bind fun _ => only_modifySelf trivial (fun _ => trivial) ?_
  refine (respawnDecision_calm _ _ _).bind fun decision => ?_
  split
  · exact respawn_calm.bind fun _ => firstProbe_calm.bind fun _ => trivial
  · trivial
  · trivial
  · exact capped_calm _
  · trivial

/-- A failed probe is reported and the child terminated; the rest is calm. -/
theorem onProbeTimeout_parts (next : Option Instant) : ∃ k : Option ExitStatus → Future Flow,
    onProbeTimeout next = (do emit .probeTimeout; let status ← terminateChild; k status) ∧
      ∀ status, (k status).Only Calm := by
  refine ⟨_, rfl, fun status => ?_⟩
  split
  · trivial
  · refine (emit_calm _).bind fun _ => childLifetime_calm.bind fun _ =>
      only_await trivial fun _ => (respawnDecision_calm _ _ _).bind fun decision => ?_
    split
    · exact respawn_calm.bind fun _ => only_await trivial fun _ =>
        (nowPlus_calm _).bind fun _ => trivial
    · exact capped_calm _
    · trivial

private theorem onProbeTimeout_local (next : Option Instant) :
    (onProbeTimeout next).Only Local := by
  obtain ⟨k, heq, hk⟩ := onProbeTimeout_parts next
  rw [heq]
  exact (local_of_calm (emit_calm _)).bind fun _ =>
    terminateChild_local.bind fun status => local_of_calm (hk status)

private theorem replace_local : Prog.Only Local
    (do let _ ← terminateChild.attempt; spawnChild; emit .childRespawned) :=
  terminateChild_local.attempt.bind fun _ =>
    local_of_calm (spawnChild_calm.bind fun _ => emit_calm _)

private theorem dismiss_local : Prog.Only Local
    (do let _ ← terminateChild.attempt; (pure () : Future Unit)) :=
  dismiss_only.mono fun _ => Op.Terminating.local

private theorem onSignal_local (kind : SignalKind) : (onSignal kind).Only Local := by
  refine (local_of_calm (emit_calm _)).bind fun _ => ?_
  have hprobe : ∀ next : Option Instant, (pure (.looping next) : Future Flow).Only Calm :=
    fun _ => trivial
  cases kind with
  | userDefined1 =>
    exact replace_local.bind fun _ => local_of_calm (firstProbe_calm.bind hprobe)
  | hangup =>
    exact (only_modifySelf trivial (fun _ => trivial) replace_local).bind fun _ =>
      local_of_calm (firstProbe_calm.bind hprobe)
  | _ => exact dismiss_local.bind fun _ => trivial

theorem onOutcome_local (next : Option Instant) (outcome : LoopOutcome) :
    (onOutcome next outcome).Only Local := by
  cases outcome with
  | probeOk => trivial
  | childExited status lifetime => exact local_of_calm (onChildExited_calm status lifetime)
  | probeTimeout => exact onProbeTimeout_local next
  | signal kind => exact onSignal_local kind

theorem onOutcome_outside (next : Option Instant) (outcome : LoopOutcome) :
    (onOutcome next outcome).Only Outside := outside_of_local (onOutcome_local next outcome)

theorem onExpired_local : onExpired.Only Local :=
  only_await trivial fun _ => (local_of_calm (emit_calm _)).bind fun _ =>
    terminateChild_local.attempt.bind fun _ => trivial

theorem onExpired_outside : onExpired.Only Outside := outside_of_local onExpired_local

theorem startUp_calm : startUp.Only Calm :=
  spawnChild_calm.bind fun _ => firstProbe_calm.bind fun _ => trivial

theorem startUp_gentle : startUp.Only Gentle := gentle_of_calm startUp_calm

end Outside

end RustyAutossh
