import RustyAutossh.Loop.Core
import RustyAutossh.Loop.Footprint

/-!
# Reaped children

A process is reaped when a wait for it succeeds. A wait that fails leaves it unreaped, so a
run that ends in a failed wait has not reaped its last child, and neither has one that is
at the top of its loop.
-/

namespace RustyAutossh

open Async Runtime

/-- The process has not been reaped. -/
def World.Unreaped (w : World) (c : Child) : Prop :=
  ∀ p, w.procs[c.index]? = some p → p.reaped = false

/-- The process spawned last has not been reaped. -/
def Sys.LastUnreaped (s : Sys) : Prop :=
  ∀ p, s.world.procs.getLast? = some p → p.reaped = false

/-- Only processes that have terminated have been reaped. -/
def Sys.Sane (s : Sys) : Prop := ∀ p ∈ s.world.procs, p.reaped = true → p.status ≠ none

theorem Sys.lastUnreaped_of_child {s : Sys} {c : Child} (hlast : c.index + 1 = s.world.procs.length)
    (h : s.world.Unreaped c) : s.LastUnreaped := by
  intro p hp
  refine h p ?_
  rw [List.getLast?_eq_getElem?, ← hlast, Nat.add_sub_cancel] at hp
  exact hp

/-- A living child has not been reaped. -/
theorem Sys.Sane.unreaped {s : Sys} (h : s.Sane) {c : Child} (hc : s.world.IsAlive c) :
    s.world.Unreaped c := by
  intro p hp
  obtain ⟨q, hq, hs⟩ := hc
  rw [hq, Option.some.injEq] at hp
  subst hp
  by_contra hreaped
  exact h q (List.mem_of_getElem? hq) (by simpa using hreaped) hs

/-- What a wait does to the processes: nothing, or it reaps one that has terminated. -/
private theorem World.procs_wait (w : World) (c : Child) :
    (w.wait c).2.procs = w.procs ∨ ∃ p, w.procs[c.index]? = some p ∧ p.status ≠ none ∧
      (w.wait c).2.procs = w.procs.set c.index { p with reaped := true } := by
  unfold World.wait
  split
  · exact .inl rfl
  · rename_i p hp
    split
    · exact .inl rfl
    · rename_i status hs
      split
      · exact .inl rfl
      · split
        · exact .inl rfl
        · exact .inr ⟨p, hp, by simp [hs], rfl⟩

/-- A wait that fails reaps nothing. -/
private theorem World.wait_error {w v : World} {c : Child} {e : IoError}
    (h : w.wait c = (some (.error e), v)) : v.Unreaped c := by
  unfold World.wait at h
  split at h
  · rename_i hnone
    simp only [Prod.mk.injEq] at h
    intro p hp
    rw [← h.2, hnone] at hp
    cases hp
  · rename_i p hp
    split at h
    · simp at h
    · split at h
      · simp at h
      · rename_i hreaped
        split at h
        · simp only [Prod.mk.injEq] at h
          obtain ⟨-, rfl⟩ := h
          intro q hq
          have hq : w.procs[c.index]? = some q := hq
          rw [hp, Option.some.injEq] at hq
          simpa [← hq] using hreaped
        · simp at h

/-- What polling an operation does to the processes: nothing, a spawn, or the reaping of one
that has terminated, which only the operations that wait for a child can do. -/
theorem procs_poll (op : Op) (s : Sys) :
    (poll op s).2.world.procs = s.world.procs ∨
      (∃ pid now, (poll op s).2.world.procs =
        s.world.procs ++ [{ pid := pid, spawnedAt := now }]) ∨
      ¬ op.Gentle ∧ ∃ i p, s.world.procs[i]? = some p ∧ p.status ≠ none ∧
        (poll op s).2.world.procs = s.world.procs.set i { p with reaped := true } := by
  have hwaited : ∀ {c : Child} {v : World}, v.procs = (s.world.wait c).2.procs →
      v.procs = s.world.procs ∨ ∃ i p, s.world.procs[i]? = some p ∧ p.status ≠ none ∧
        v.procs = s.world.procs.set i { p with reaped := true } := fun {c v} hv => by
    rcases s.world.procs_wait c with hsame | ⟨p, hp, hs, hset⟩
    · exact .inl (hv.trans hsame)
    · exact .inr ⟨c.index, p, hp, hs, hv.trans hset⟩
  cases op with
  | wait c => exact (hwaited rfl).imp_right fun h => .inr ⟨id, h⟩
  | waitTimeout c deadline =>
    refine (hwaited (c := c) ?_).imp_right fun h => .inr ⟨id, h⟩
    simp only [poll]
    split <;> rename_i heq <;> rw [heq]
  | select c timer signals =>
    simp only [poll, World.select]
    split
    · rename_i r w heq
      exact (hwaited (c := c) (by rw [heq])).imp_right fun h => .inr ⟨id, h⟩
    · refine .inl ?_
      split
      · rfl
      · split
        · split
          · rfl
          · split <;> rfl
        · rfl
  | spawn path args =>
    simp only [poll, World.spawn]
    split
    · exact .inr (.inl ⟨_, _, rfl⟩)
    · exact .inl rfl
  | startKill c =>
    simp only [poll, World.startKill]
    split <;> exact .inl rfl
  | send tx ev =>
    simp only [poll, World.send]
    split
    · exact .inl rfl
    · split <;> exact .inl rfl
  | roundtrip accepts len deadline =>
    simp only [poll, World.roundtrip]
    split
    · exact .inl rfl
    · split <;> exact .inl rfl
  | _ => exact .inl rfl

/-- The environment reaps nothing: it can only end a process. -/
private theorem World.procs_apply (w : World) (e : Event) :
    (w.apply e).procs = w.procs ∨
      ∃ i status, (w.apply e).procs = w.procs.modify i (·.exit status) := by
  cases e with
  | exit i status => exact .inr ⟨i, status, rfl⟩
  | signal ev =>
    refine .inl ?_
    simp only [World.apply]
    split <;> rfl
  | _ => exact .inl rfl

@[simp] theorem Proc.exit_reaped (p : Proc) (status : ExitStatus) :
    (p.exit status).reaped = p.reaped := by
  unfold Proc.exit
  split <;> rfl

theorem Proc.exit_status_ne_none (p : Proc) (status : ExitStatus) :
    (p.exit status).status ≠ none := by
  unfold Proc.exit
  split
  · simp
  · rename_i h
    simp [h]

private theorem World.sane_apply {w : World} (h : ∀ p ∈ w.procs, p.reaped = true → p.status ≠ none)
    (e : Event) : ∀ p ∈ (w.apply e).procs, p.reaped = true → p.status ≠ none := by
  rcases w.procs_apply e with hsame | ⟨i, status, hexit⟩
  · rwa [hsame]
  · rw [hexit]
    intro p hp hreaped
    obtain ⟨j, hj⟩ := List.mem_iff_getElem?.mp hp
    rw [List.getElem?_modify] at hj
    obtain ⟨q, hq, rfl⟩ := Option.map_eq_some_iff.mp hj
    by_cases hij : i = j
    · simp only [hij, if_true]
      exact Proc.exit_status_ne_none _ _
    · simp only [hij, if_false] at hreaped ⊢
      exact h q (List.mem_of_getElem? hq) hreaped

/-- Whatever happens, only processes that have terminated are reaped. -/
theorem keeps_sane : host.Keeps (fun _ => True) Sys.Sane where
  poll {op s} _ hs := by
    show ∀ p ∈ (poll op s).2.world.procs, p.reaped = true → p.status ≠ none
    rcases procs_poll op s with hsame | ⟨pid, now, hspawn⟩ | ⟨-, i, p, hp, hstatus, hset⟩
    · rw [hsame]
      exact hs
    · rw [hspawn]
      intro p hp hreaped
      rcases List.mem_append.mp hp with hp | hp
      · exact hs p hp hreaped
      · rw [List.mem_singleton.mp hp] at hreaped
        cases hreaped
    · rw [hset]
      intro q hq hreaped
      rcases List.mem_or_eq_of_mem_set hq with hq | rfl
      · exact hs q hq hreaped
      · exact hstatus
  act {s} events hs :=
    List.foldlRecOn (motive := fun w : World => ∀ p ∈ w.procs, p.reaped = true → p.status ≠ none)
      events World.apply hs fun w hw e _ => w.sane_apply hw e

/-- Operations that wait for no child leave the last one unreaped. -/
theorem keeps_lastUnreaped : host.Keeps Op.Gentle Sys.LastUnreaped where
  poll {op s} hop hs := by
    show ∀ p, (poll op s).2.world.procs.getLast? = some p → p.reaped = false
    rcases procs_poll op s with hsame | ⟨pid, now, hspawn⟩ | ⟨hne, -⟩
    · rw [hsame]
      exact hs
    · rw [hspawn]
      intro p hp
      rw [List.getLast?_concat, Option.some.injEq] at hp
      rw [← hp]
    · exact absurd hop hne
  act {s} events hs := by
    refine List.foldlRecOn (motive := fun w : World => ∀ p, w.procs.getLast? = some p →
      p.reaped = false) events World.apply hs fun w hw e _ => ?_
    rcases w.procs_apply e with hsame | ⟨i, status, hexit⟩
    · rwa [hsame]
    · intro p hp
      rw [hexit, List.getLast?_eq_getElem?, List.getElem?_modify, List.length_modify,
        ← List.getLast?_eq_getElem?] at hp
      obtain ⟨q, hq, rfl⟩ := Option.map_eq_some_iff.mp hp
      have hreaped := hw q hq
      split <;> simp [hreaped]

theorem answers_wait_error {c : Child} {s t : Sys} {e : IoError}
    (h : host.Answers (.wait c) s (.error e) t) : t.world.Unreaped c := by
  obtain ⟨u, -, hp⟩ := h
  simp only [host, poll, Prod.mk.injEq] at hp
  obtain ⟨hr, rfl⟩ := hp
  exact World.wait_error (Prod.ext hr rfl)

theorem answers_waitTimeout_error {c : Child} {deadline : Instant} {s t : Sys} {e : IoError}
    (h : host.Answers (.waitTimeout c deadline) s (some (.error e)) t) : t.world.Unreaped c := by
  obtain ⟨u, -, hp⟩ := h
  simp only [host, poll] at hp
  split at hp
  · rename_i r w heq
    simp only [Prod.mk.injEq, Option.some.injEq] at hp
    obtain ⟨rfl, rfl⟩ := hp
    exact World.wait_error heq
  · simp only [Prod.mk.injEq] at hp
    split at hp <;> simp at hp

theorem answers_select_error {c : Child} {timer : Option Instant} {signals : Bool} {s t : Sys}
    {e : IoError} (h : host.Answers (.select c timer signals) s (.exited (.error e)) t) :
    t.world.Unreaped c := by
  obtain ⟨u, -, hp⟩ := h
  simp only [host, poll, World.select] at hp
  split at hp
  · rename_i r w heq
    simp only [Prod.mk.injEq, Option.some.injEq, Wakeup.exited.injEq] at hp
    obtain ⟨rfl, rfl⟩ := hp
    exact World.wait_error heq
  · split at hp
    · simp at hp
    · split at hp
      · split at hp
        · simp at hp
        · split at hp <;> simp at hp
      · simp at hp

section Terminate

variable {c : Child} {s : Sys}

private theorem wp_collect_unreaped :
    host.wp ⟨fun _ _ => True, fun _ t => t.world.Unreaped c, fun _ => True⟩
      (do let status ← liftIo (← await (.wait c)); pure (some status)) s := by
  intro r t hans
  cases r with
  | error e => exact answers_wait_error hans
  | ok status => trivial

/-- Terminating a child fails only if the wait for it does, and then it is not reaped. -/
private theorem wp_terminateChild_unreaped (hc : s.sup.child = some c) :
    host.wp ⟨fun _ _ => True, fun _ t => t.world.Unreaped c, fun _ => True⟩ terminateChild s := by
  rw [terminateChild, wp_this, hc]
  dsimp only
  rw [wp_modifySelf, wp_target]
  split
  · rw [terminateUnix]
    refine wp_bind.mpr (wp_sigterm fun _ t _ => ?_)
    show host.wp _ _ t
    rw [wp_now, wp_target]
    intro r u hans
    cases r with
    | none =>
      show host.wp _ (c.kill >>= _) u
      exact wp_bind.mpr (wp_kill fun _ _ v _ => wp_collect_unreaped)
    | some r =>
      cases r with
      | ok status => trivial
      | error e => exact answers_waitTimeout_error hans
  · rw [terminateWindows]
    exact wp_bind.mpr (wp_kill fun _ _ t _ => wp_collect_unreaped)

end Terminate

/-- A point at which the loop counts its child as lost or takes a signal. -/
def Mark.isLoss : Mark → Bool
  | .decided _ _ _ _ => true
  | .ticked (.childExited _ _) => true
  | .ticked (.signal _) => true
  | _ => false

/-- How many such points have been passed. -/
def Sys.losses (s : Sys) : Nat := (marks s.world.history).countP Mark.isLoss

theorem Sys.LogGrows.losses {s t : Sys} (h : s.LogGrows t) : s.losses ≤ t.losses := by
  obtain ⟨es, hes⟩ := h
  rw [Sys.losses, Sys.losses, ← hes, marks_append, List.countP_append]
  exact Nat.le_add_right _ _

theorem Sys.losses_mark (s : Sys) (m : Mark) :
    (s.mark m).losses = s.losses + if m.isLoss then 1 else 0 := by
  have hhist : (s.mark m).world.history = s.world.history ++ [s.line (.passed m)] := rfl
  rw [Sys.losses, hhist, marks_append, List.countP_append]
  cases h : m.isLoss <;> simp [Sys.losses, h]

/-- A loss counted stays counted. -/
private theorem keeps_losses (k : Nat) : host.Keeps (fun _ => True) fun s => k < s.losses where
  poll {op s} _ hs := lt_of_lt_of_le hs (host_logGrows.poll op s).losses
  act {s} events hs := lt_of_lt_of_le hs (host_logGrows.act events s).losses

/-- An end of a turn that leaves the child of the loop unreaped, unless the loop knows that it
is lost: no matter what, if it goes on. -/
def Leaves (k : Nat) : End AutosshError Flow → Sys → Prop
  | .ret .returned, _ => True
  | .fail _, t => t.LastUnreaped ∨ k < t.losses
  | _, t => t.LastUnreaped

theorem Leaves.of_last {k : Nat} {out : End AutosshError Flow} {t : Sys} (h : t.LastUnreaped) :
    Leaves k out t := by
  cases out with
  | ret flow =>
    cases flow with
    | looping => exact h
    | returned => trivial
  | fail => exact .inl h
  | _ => exact h

/-- A turn that goes on leaves the child of the loop unreaped. -/
theorem Leaves.of_open {k : Nat} {out : End AutosshError Flow} {t : Sys} (h : Leaves k out t)
    (hopen : ¬ IsClosed out) : t.LastUnreaped := by
  cases out with
  | ret flow =>
    cases flow with
    | looping => exact h
    | returned => exact absurd trivial hopen
  | fail => exact absurd trivial hopen
  | _ => exact h

/-- So does one that does not return if it has counted no loss. -/
theorem Leaves.of_no_loss {k : Nat} {out : End AutosshError Flow} {t : Sys} (h : Leaves k out t)
    (hret : out ≠ .ret .returned) (hle : t.losses ≤ k) : t.LastUnreaped := by
  cases out with
  | ret flow =>
    cases flow with
    | looping => exact h
    | returned => exact absurd rfl hret
  | fail => exact h.resolve_right (Nat.not_lt.mpr hle)
  | _ => exact h

section Arms

variable {α β : Type} {s : Sys}

/-- What a spawn achieves and gentle steps keep. -/
private def fresh : Post AutosshError α Sys :=
  ⟨fun _ => Sys.LastUnreaped, fun _ _ => True, Sys.LastUnreaped⟩

private theorem wp_fresh_of_gentle {p : Future α} (hp : p.Only Op.Gentle) (hs : s.LastUnreaped) :
    host.wp fresh p s := by
  refine wp_mono ?_ ?_ ?_ (keeps_lastUnreaped.wp hp hs)
  · exact fun _ _ h => h
  · exact fun _ _ _ => trivial
  · exact fun _ h => h

/-- Gentle steps after a spawn leave the new child unreaped. -/
private theorem wp_fresh_bind {p : Future α} {f : α → Future β} (hp : host.wp fresh p s)
    (hf : ∀ a, (f a).Only Op.Gentle) : host.wp fresh (p >>= f) s := by
  refine wp_bind.mpr (wp_mono (fun a t ht => ?_) ?_ ?_ hp)
  · exact wp_fresh_of_gentle (hf a) ht
  · exact fun _ _ h => h
  · exact fun _ h => h

/-- A child that has just been spawned is not reaped. -/
private theorem wp_spawnChild_fresh : host.wp fresh spawnChild s := by
  rw [spawnChild, wp_this]
  refine wp_bind.mpr (wp_spawnSsh (fun pid _ => ?_) fun _ _ => trivial)
  have hlast : (s.spawnedState s.sup.argv pid).LastUnreaped := by
    intro p hp
    rw [Sys.spawnedState, List.getLast?_concat, Option.some.injEq] at hp
    rw [← hp]
  refine wp_fresh_of_gentle ?_ hlast
  refine only_await trivial fun pid => only_modifySelf trivial (fun _ => trivial) ?_
  refine only_await trivial fun now => only_modifySelf trivial (fun _ => trivial) ?_
  exact emit_gentle _

private theorem wp_respawn_fresh : host.wp fresh respawn s := by
  rw [respawn, wp_this]
  refine wp_bind.mpr (wp_sleep fun t _ _ => ?_)
  exact wp_fresh_bind wp_spawnChild_fresh fun _ => emit_gentle _

/-- What the arms of a turn leave: a fresh child, if they neither return nor fail. -/
private def relaunched : Post AutosshError Flow Sys :=
  ⟨fun flow t => flow = .returned ∨ t.LastUnreaped, fun _ _ => True, Sys.LastUnreaped⟩

private theorem wp_fresh_relaunched {p : Future Flow} (hp : host.wp fresh p s) :
    host.wp relaunched p s := by
  refine wp_mono ?_ ?_ ?_ hp
  · exact fun _ _ h => .inr h
  · exact fun _ _ _ => trivial
  · exact fun _ h => h

/-- A turn that has spawned a child arms the first probe, and goes on. -/
private theorem probed_gentle :
    (do let next ← firstProbe; pure (.looping next) : Future Flow).Only Op.Gentle :=
  firstProbe_gentle.bind fun _ => trivial

/-- The arm of a child exit spawns a child, or ends the run. -/
private theorem wp_onChildExited_relaunched {status : ExitStatus} {lifetime : Duration} :
    host.wp relaunched (onChildExited status lifetime) s := by
  rw [onChildExited]
  refine wp_bind.mpr (wp_emit fun es t _ => ?_)
  show host.wp relaunched _ t
  rw [wp_modifySelf]
  refine wp_bind.mpr (wp_respawnDecision fun decision sup _ => ?_)
  cases decision with
  | respawn =>
    exact wp_fresh_relaunched (wp_fresh_bind wp_respawn_fresh fun _ => probed_gentle)
  | exit reason =>
    cases reason with
    | maxStartReached attempts => exact wp_bind.mpr (wp_emit fun _ _ _ => trivial)
    | oneShotFailed => trivial
    | _ => exact .inl rfl

/-- A renewing signal spawns a child. -/
private theorem wp_renew_relaunched {c : Child} (hc : s.sup.child = some c) :
    host.wp relaunched (do
      (do let _ ← terminateChild.attempt; spawnChild; emit .childRespawned)
      let next ← firstProbe
      pure (.looping next)) s := by
  refine wp_bind.mpr (wp_bind.mpr (wp_terminateChild_attempt hc fun _ _ t _ => ?_))
  have hspawn : host.wp fresh (do spawnChild; emit .childRespawned) t :=
    wp_fresh_bind wp_spawnChild_fresh fun _ => emit_gentle _
  exact wp_bind.mp (wp_fresh_relaunched (wp_fresh_bind hspawn fun _ => probed_gentle))

/-- The arm of a signal spawns a child, or ends the run. -/
private theorem wp_onSignal_relaunched {kind : SignalKind} {c : Child}
    (hc : s.sup.child = some c) : host.wp relaunched (onSignal kind) s := by
  unfold onSignal
  refine wp_bind.mpr (wp_emit fun es t hem => ?_)
  have hct : t.sup.child = some c := by rw [hem.logs.sup, hc]
  cases kind with
  | userDefined1 => exact wp_renew_relaunched hct
  | hangup =>
    show host.wp relaunched (handleHupSignal >>= _) t
    rw [wp_bind, handleHupSignal, wp_modifySelf]
    exact wp_bind.mp (wp_renew_relaunched (c := c) hct)
  | _ =>
    refine wp_bind.mpr (wp_bind.mpr (wp_terminateChild_attempt hct fun _ _ u _ => ?_))
    exact .inl rfl

/-- What follows the respawn decision after a failed probe. -/
private theorem wp_settle_relaunched (decision : RespawnDecision) :
    host.wp relaunched (match decision with
      | .respawn => do
        respawn
        let next ← nowPlus (← await .this).clock.firstPoll
        pure (.looping (some next))
      | .exit (.maxStartReached attempts) => do
        emit (.maxStartReached attempts)
        .fail (.maxStartReached attempts)
      | .exit _ => pure .returned) s := by
  cases decision with
  | respawn =>
    exact wp_fresh_relaunched (wp_fresh_bind wp_respawn_fresh fun _ => only_await trivial fun _ =>
      (nowPlus_gentle _).bind fun _ => trivial)
  | exit reason =>
    cases reason with
    | maxStartReached attempts => exact wp_bind.mpr (wp_emit fun _ _ _ => trivial)
    | _ => exact .inl rfl

/-- Where a loss has been counted, it stays counted to the end of the turn. -/
private theorem wp_leaves {k : Nat} {p : Future Flow} (hk : k < s.losses)
    (hp : host.wp relaunched p s) : host.wp (endsIn (Leaves k)) p s := by
  have hkept := (keeps_losses k).wp (Prog.only_of_forall (fun _ => trivial) p) hk
  refine wp_mono (fun flow t ht => ?_) (fun e t ht => ?_) (fun t ht => ?_) (wp_and hkept hp)
  · rcases ht.2 with rfl | hlast
    · trivial
    · exact .of_last hlast
  · exact .inr ht.1
  · exact ht.2

private theorem wp_childLifetime {Q : Post AutosshError Duration Sys} (h : ∀ d, Q.ret d s) :
    host.wp Q childLifetime s := by
  rw [childLifetime, wp_this]
  split
  · rw [wp_now]
    exact h _
  · exact h _

/-- The arm of a failed probe: the child is not reaped if terminating it fails. -/
private theorem wp_onProbeTimeout_leaves {k : Nat} {next : Option Instant} {c : Child}
    (hc : s.sup.child = some c) (hlast : c.index + 1 = s.world.procs.length)
    (hk : k ≤ s.losses) : host.wp (endsIn (Leaves k)) (onProbeTimeout next) s := by
  rw [onProbeTimeout]
  refine wp_bind.mpr (wp_emit fun es t hem => ?_)
  have hct : t.sup.child = some c := by rw [hem.logs.sup, hc]
  have hends : host.wp ⟨fun r u => ∃ status es, r = some status ∧ Terminates t c es u,
      fun _ u => ∃ es, Terminates t c es u, fun _ => False⟩ terminateChild t :=
    wp_terminateChild hct (fun status es u hterm _ => ⟨status, es, rfl, hterm⟩)
      fun _ es u hterm => ⟨es, hterm⟩
  refine wp_bind.mpr (wp_mono (fun r u hr => ?_) (fun e u he => ?_) (fun u hu => ?_)
    (wp_and hends (wp_terminateChild_unreaped hct)))
  · obtain ⟨⟨status, fs, rfl, hterm⟩, -⟩ := hr
    refine wp_bind.mpr (wp_emit fun gs v hem' => ?_)
    have hgrows : s.LogGrows v :=
      ⟨_, ((hem.logs.world.trans hterm.world).trans hem'.logs.world).history.symm⟩
    refine wp_bind.mpr (wp_childLifetime fun lifetime => ?_)
    show host.wp (endsIn (Leaves k)) _ v
    rw [wp_target]
    refine wp_bind.mpr (wp_respawnDecision fun decision sup _ => ?_)
    refine wp_leaves ?_ (wp_settle_relaunched decision)
    rw [Sys.losses_mark]
    exact Nat.lt_succ_of_le (le_trans hk hgrows.losses)
  · obtain ⟨⟨fs, hterm⟩, hunreaped⟩ := he
    have hlen : u.world.procs.length = s.world.procs.length :=
      hterm.world.length.trans hem.logs.world.length
    exact .inl (Sys.lastUnreaped_of_child (hlast.trans hlen.symm) hunreaped)
  · exact hu.1.elim

end Arms

/-- A tick leaves its child unreaped unless it reports the exit of the child. -/
theorem wp_selectOneTick_unreaped {s : Sys} {next : Option Instant} {c : Child}
    (htop : LoopTop s next c) (hs : s.Sane) :
    host.wp ⟨fun r t => (∃ status lifetime, r.1 = .childExited status lifetime) ∨ t.LastUnreaped,
      fun _ => Sys.LastUnreaped, Sys.LastUnreaped⟩ (selectOneTick next) s := by
  rw [selectOneTick, wp_this, wp_now, htop.child]
  dsimp only
  rw [wp_target]
  intro wakeup t hans
  have hsane : t.Sane := keeps_sane.answers trivial hs hans
  have hlen : s.Passes t → c.index + 1 = t.world.procs.length := fun hpass =>
    htop.only.last.trans hpass.world.length.symm
  have halive : s.Passes t → t.world.IsAlive c → t.LastUnreaped := fun hpass h =>
    Sys.lastUnreaped_of_child (hlen hpass) (hsane.unreaped h)
  have hsel : Selects c (s.probeTimer next) s.sup.signalRx.isSome s wakeup t :=
    answers_select hans
  cases hsel with
  | @exited r _ hpass =>
    cases r with
    | error e => exact Sys.lastUnreaped_of_child (hlen hpass) (answers_select_error hans)
    | ok status =>
      show host.wp _ (childLifetime >>= _) t
      exact wp_bind.mpr (wp_childLifetime fun lifetime => .inl ⟨status, lifetime, rfl⟩)
  | timer hpass h =>
    refine wp_mono ?_ ?_ ?_ (keeps_lastUnreaped.wp probeBranch_gentle (halive hpass h))
    · exact fun _ _ h => .inr h
    · exact fun _ _ h => h
    · exact fun _ h => h
  | @received ev u _ hpass hpass' h =>
    have hlast := halive (hpass.passes hpass') h
    cases ev with
    | signalReceived kind => exact .inr hlast
    | _ => exact .inr hlast
  | closed hpass h => exact .inr (halive hpass h)

/-- A turn from the top of the loop leaves its child unreaped, unless it counts it as lost. -/
theorem wp_turn_leaves {s : Sys} {next : Option Instant} {c : Child} (htop : LoopTop s next c)
    (hs : s.Sane) : host.wp (endsIn (Leaves s.losses)) (turn next) s := by
  rw [turn, wp_this, wp_now]
  split
  · rw [onExpired, wp_trace]
    refine wp_bind.mpr (wp_emit fun es t hem => ?_)
    have hct : t.sup.child = some c := by rw [hem.logs.sup]; exact htop.child
    exact wp_bind.mpr (wp_terminateChild_attempt hct fun _ _ _ _ => trivial)
  · have hticks : host.wp ⟨fun r t => ∃ es, Ticks s next c es r.1 r.2 t, fun _ _ => True,
        fun _ => True⟩ (selectOneTick next) s :=
      wp_selectOneTick htop (fun es _ _ _ h => ⟨es, h⟩) (fun _ _ _ _ => trivial)
        fun _ _ _ => trivial
    refine wp_bind.mpr (wp_mono (fun r t ht => ?_) (fun e t ht => ?_) (fun t ht => ?_)
      (wp_and hticks (wp_selectOneTick_unreaped htop hs)))
    · obtain ⟨outcome, next'⟩ := r
      obtain ⟨⟨es, htick⟩, hlast⟩ := ht
      show host.wp (endsIn (Leaves s.losses)) _ t
      dsimp only
      rw [wp_trace]
      have hgrows : s.LogGrows t := ⟨es, htick.logs.world.history.symm⟩
      have hct : (t.mark (.ticked outcome)).sup.child = some c :=
        (congrArg (·.child) htick.logs.sup).trans htop.child
      have hlen : c.index + 1 = (t.mark (.ticked outcome)).world.procs.length :=
        htop.only.last.trans htick.logs.world.length.symm
      have hmark := t.losses_mark (.ticked outcome)
      cases outcome with
      | probeOk =>
        have hleft : t.LastUnreaped := hlast.resolve_left (by simp)
        exact hleft
      | childExited status lifetime =>
        refine wp_leaves ?_ wp_onChildExited_relaunched
        rw [hmark]
        exact Nat.lt_succ_of_le hgrows.losses
      | signal kind =>
        refine wp_leaves ?_ (wp_onSignal_relaunched hct)
        rw [hmark]
        exact Nat.lt_succ_of_le hgrows.losses
      | probeTimeout =>
        exact wp_onProbeTimeout_leaves hct hlen (le_trans hgrows.losses (by rw [hmark]; simp))
    · exact .inl ht.2
    · exact ht.2

/-- The last step of an execution that has come to its end, with what it leaves. -/
theorem execute_leaves {s₀ : Sys} (hs : s₀.Fresh) {n : Nat} {script : List (List Event)}
    (hend : (execute n script s₀).out ≠ .pending) :
    (∃ es, Launches s₀ [] es (execute n script s₀).out (execute n script s₀).state ∧
        (execute n script s₀).state.LastUnreaped) ∨
      ∃ m es top next c fs, Reaches s₀ m es top next c ∧
        Turn top next c fs (execute n script s₀).out (execute n script s₀).state ∧
        Leaves top.losses (execute n script s₀).out (execute n script s₀).state := by
  have hsane : s₀.Sane := by
    intro p hp
    simp [hs.procs] at hp
  rcases execute_cases n script s₀ with hstart | ⟨m, next, top, rest, -, htop, hturn⟩
  · rw [hstart] at hend ⊢
    have hlast : s₀.LastUnreaped := by
      intro p hp
      simp [hs.procs] at hp
    have hkept : host.wp (endsIn fun _ t => t.LastUnreaped) startUp s₀ :=
      keeps_lastUnreaped.wp startUp_gentle hlast
    obtain ⟨es, hl⟩ := launches_of_drive hend
    exact .inl ⟨es, hl, of_holds_endsIn (wp_sound hkept script) hend⟩
  · obtain ⟨es, c, hr⟩ := reaches_of_execute hs.still htop
    have htops : host.wp (endsIn fun _ t => t.Sane) (runFor m) s₀ :=
      keeps_sane.wp (Prog.only_of_forall (fun _ => trivial) _) hsane
    have hsane' : top.Sane := by
      have hsound := wp_sound htops script
      rw [show host.drive (runFor m) script s₀ = _ from htop] at hsound
      exact hsound
    rw [hturn] at hend ⊢
    obtain ⟨fs, hfs⟩ := hr.loopTop.turn_of_drive hend
    exact .inr ⟨m, es, top, next, c, fs, hr, hfs,
      of_holds_endsIn (wp_sound (wp_turn_leaves hr.loopTop hsane') rest) hend⟩

end RustyAutossh
