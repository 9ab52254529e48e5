import RustyAutossh.Async.Guard
import RustyAutossh.Loop.Reaping

/-!
# The supervisor signals its own child only

The id of a process belongs to it until it has been reaped; from then on the system may give
it to another. The loop signals a child that it has spawned and not reaped yet, and waits for
none that it has not spawned.
-/

namespace RustyAutossh

open Async Runtime

/-- The process has been spawned and not been reaped, so its id is its own. -/
def Sys.Owns (s : Sys) (c : Child) : Prop :=
  ∃ p, s.world.procs[c.index]? = some p ∧ p.reaped = false

/-- What an operation on a child asks of the state it is begun in. -/
def Op.OnOwnChild : Op → Sys → Prop
  | .kill c, s | .startKill c, s | .select c _ _, s => s.Owns c
  | .wait c, s | .waitTimeout c _, s => c.index < s.world.procs.length
  | _, _ => True

/-- An operation that neither signals a child nor waits for one. -/
def Op.HandsOff : Op → Prop
  | .kill _ | .startKill _ | .wait _ | .waitTimeout _ _ | .select _ _ _ => False
  | _ => True

/-- The record holds the child spawned last, which has not been reaped. -/
structure Sys.Minds (s : Sys) (c : Child) : Prop where
  child : s.sup.child = some c
  last : c.index + 1 = s.world.procs.length
  unreaped : s.LastUnreaped
  sane : s.Sane

theorem Sys.Owns.known {s : Sys} {c : Child} (h : s.Owns c) : c.index < s.world.procs.length := by
  obtain ⟨p, hp, -⟩ := h
  exact (List.getElem?_eq_some_iff.mp hp).1

theorem Sys.Minds.owns {s : Sys} {c : Child} (h : s.Minds c) : s.Owns c := by
  have hlt : c.index < s.world.procs.length := by
    have := h.last
    omega
  refine ⟨s.world.procs[c.index], List.getElem?_eq_getElem hlt, h.unreaped _ ?_⟩
  rw [List.getLast?_eq_getElem?, ← h.last, Nat.add_sub_cancel, List.getElem?_eq_getElem hlt]

/-- A living child is owned, where only processes that have terminated were reaped. -/
theorem Sys.Sane.owns {s : Sys} (h : s.Sane) {c : Child} (hc : s.world.IsAlive c) : s.Owns c := by
  obtain ⟨p, hp, -⟩ := id hc
  exact ⟨p, hp, h.unreaped hc p hp⟩

theorem guarded_of_handsOff {α : Type} {p : Future α} (hp : p.Only Op.HandsOff) (s : Sys) :
    host.guarded Op.OnOwnChild p s := by
  refine guarded_of_only (fun op s hop => ?_) hp s
  cases op with
  | kill | startKill | wait | waitTimeout | select => exact hop.elim
  | _ => trivial

theorem Op.Calm.handsOff {op : Op} (h : op.Calm) : op.HandsOff := by
  cases op with
  | kill | startKill | wait | waitTimeout | select => exact h.elim
  | _ => trivial

theorem Op.Probing.handsOff {op : Op} (h : op.Probing) : op.HandsOff := by
  cases op with
  | kill | startKill | wait | waitTimeout | select => exact h.elim
  | _ => trivial

theorem guarded_of_calm {α : Type} {p : Future α} (hp : p.Only Op.Calm) (s : Sys) :
    host.guarded Op.OnOwnChild p s :=
  guarded_of_handsOff (hp.mono fun _ => Op.Calm.handsOff) s

/-- An operation that is ready. -/
private theorem guarded_ready {α : Type} {op : Op} {k : op.Answer → Future α} {s t : Sys}
    {a : op.Answer} (h : poll op s = (some a, t)) (hop : op.OnOwnChild s)
    (hk : host.guarded Op.OnOwnChild (k a) t) :
    host.guarded Op.OnOwnChild (await op >>= k) s :=
  (guarded_call_of_ready h).mpr ⟨hop, hk⟩

section Terminate

variable {c : Child} {s : Sys}

private theorem guarded_collect (h : c.index < s.world.procs.length) :
    host.guarded Op.OnOwnChild
      (do let status ← liftIo (← await (.wait c)); pure (some status)) s :=
  ⟨h, fun r t _ => by cases r <;> trivial⟩

/-- The forced kill of a child that is owned, and the wait for it. -/
private theorem guarded_kill (h : s.Owns c) : host.guarded Op.OnOwnChild c.kill s := by
  have hknown : c.index < (s.world.startKill c).2.procs.length := by
    simp only [World.startKill]
    split <;> exact h.known
  rw [Child.kill]
  refine guarded_ready rfl h ?_
  cases (s.world.startKill c).1 with
  | error e => trivial
  | ok u => exact ⟨hknown, fun r t _ => by cases r <;> trivial⟩

private theorem guarded_kill_collect (h : s.Owns c) : host.guarded Op.OnOwnChild
    (do let _ ← c.kill; let status ← liftIo (← await (.wait c)); pure (some status)) s := by
  refine guarded_bind.mpr ⟨guarded_kill h, wp_kill fun _ es t hk => guarded_collect ?_⟩
  rw [hk.logs.world.length]
  exact h.known

/-- Between the look at the id and the SIGTERM the child is not waited for. -/
private theorem guarded_sigterm (h : s.Owns c) : host.guarded Op.OnOwnChild c.sigterm s := by
  refine guarded_ready rfl trivial ?_
  cases s.world.childId c with
  | none => trivial
  | some pid => exact ⟨h, fun _ _ _ => trivial⟩

/-- A child whose ten seconds have passed has still not been reaped. -/
private theorem guarded_terminateUnix (h : s.Owns c) (hs : s.Sane) :
    host.guarded Op.OnOwnChild (terminateUnix c) s := by
  have hsane := keeps_sane.wp (Prog.only_of_forall (fun _ => trivial) c.sigterm) hs
  have hkills : host.wp ⟨fun _ t => ∃ es, Kills s c es t, fun _ _ => True, fun _ => True⟩
      c.sigterm s := wp_sigterm fun es t hk => ⟨es, hk⟩
  refine guarded_bind.mpr ⟨guarded_sigterm h, wp_mono ?_ ?_ ?_ (wp_and hsane hkills)⟩
  · rintro _ t ⟨htsane, es, hk⟩
    have hknown : c.index < t.world.procs.length := by
      rw [hk.logs.world.length]
      exact h.known
    refine guarded_ready rfl trivial (guarded_ready rfl trivial ⟨hknown, fun r u hans => ?_⟩)
    have husane : u.Sane := keeps_sane.answers trivial htsane hans
    obtain ⟨-, halive, -⟩ := answers_waitTimeout hans
    rcases r with _ | ⟨e | status⟩
    · exact guarded_kill_collect (husane.owns (halive rfl).2)
    · trivial
    · trivial
  · exact fun _ _ _ => trivial
  · exact fun _ _ => trivial

/-- Terminating the child that is minded. -/
private theorem guarded_terminateChild (h : s.Minds c) :
    host.guarded Op.OnOwnChild terminateChild s := by
  rw [terminateChild]
  refine guarded_ready rfl trivial ?_
  rw [h.child]
  have howns : Sys.Owns { s with sup := { s.sup with child := none } } c := h.owns
  refine guarded_ready rfl trivial (guarded_ready rfl trivial (guarded_ready
    (a := s.world.target) rfl trivial ?_))
  cases s.world.target with
  | unix => exact guarded_terminateUnix howns h.sane
  | windows => exact guarded_kill_collect howns

end Terminate

section Loop

variable {s : Sys} {c : Child} {next : Option Instant}

/-- Emitting an event leaves the child minded. -/
private theorem wp_emit_minds {ev : SupervisorEvent} (h : s.Minds c) :
    host.wp ⟨fun _ t => t.Minds c, fun _ _ => True, fun _ => True⟩ (emit ev) s := by
  have hsane := keeps_sane.wp (Prog.only_of_forall (fun _ => trivial) (emit ev)) h.sane
  have hunreaped := keeps_lastUnreaped.wp (emit_gentle ev) h.unreaped
  have hemitted : host.wp ⟨fun _ t => ∃ es, Emitted s [ev] es t, fun _ _ => True,
      fun _ => True⟩ (emit ev) s := wp_emit fun es t hem => ⟨es, hem⟩
  refine wp_mono ?_ ?_ ?_ (wp_and (wp_and hsane hunreaped) hemitted)
  · rintro _ t ⟨⟨hsane, hunreaped⟩, es, hem⟩
    refine ⟨?_, h.last.trans hem.logs.world.length.symm, hunreaped, hsane⟩
    rw [hem.logs.sup]
    exact h.child
  · exact fun _ _ _ => trivial
  · exact fun _ _ => trivial

/-- What begins with an event about a child that is minded. -/
private theorem guarded_emit {α : Type} {ev : SupervisorEvent} {k : Unit → Future α}
    (h : s.Minds c) (hk : ∀ t : Sys, t.Minds c → host.guarded Op.OnOwnChild (k ()) t) :
    host.guarded Op.OnOwnChild (emit ev >>= k) s :=
  guarded_bind.mpr ⟨guarded_of_calm (emit_calm ev) s,
    wp_mono (fun _ t ht => hk t ht) (fun _ _ _ => trivial) (fun _ _ => trivial) (wp_emit_minds h)⟩

/-- What ends the child first and then keeps its hands off. -/
private theorem guarded_end {α β : Type} {p : Future α} {k : α → Future β}
    (hp : host.guarded Op.OnOwnChild p s) (hk : ∀ r, (k r).Only Op.Calm) :
    host.guarded Op.OnOwnChild (p >>= k) s :=
  guarded_bind.mpr ⟨hp, wp_of_forall (fun r t => guarded_of_calm (hk r) t)
    (fun _ _ => trivial) (fun _ => trivial) p s⟩

private theorem guarded_dismiss (h : s.Minds c) :
    host.guarded Op.OnOwnChild (do let _ ← terminateChild.attempt; (pure () : Future Unit)) s :=
  guarded_end (guarded_attempt.mpr (guarded_terminateChild h)) fun _ => trivial

private theorem guarded_replace (h : s.Minds c) : host.guarded Op.OnOwnChild
    (do let _ ← terminateChild.attempt; spawnChild; emit .childRespawned) s :=
  guarded_end (guarded_attempt.mpr (guarded_terminateChild h)) fun _ =>
    spawnChild_calm.bind fun _ => emit_calm _

private theorem guarded_onExpired (h : s.Minds c) : host.guarded Op.OnOwnChild onExpired s := by
  have hmarked : (s.mark .expired).Minds c := ⟨h.child, h.last, h.unreaped, h.sane⟩
  refine guarded_ready rfl trivial (guarded_emit hmarked fun t ht => ?_)
  exact guarded_end (guarded_attempt.mpr (guarded_terminateChild ht)) fun _ => trivial

private theorem guarded_onSignal (h : s.Minds c) (kind : SignalKind) :
    host.guarded Op.OnOwnChild (onSignal kind) s := by
  refine guarded_emit h fun t ht => ?_
  have hprobe : (do let next ← firstProbe; pure (.looping next) : Future Flow).Only Op.Calm :=
    firstProbe_calm.bind fun _ => trivial
  cases kind with
  | userDefined1 => exact guarded_end (guarded_replace ht) fun _ => hprobe
  | hangup =>
    have hreset : Sys.Minds { t with sup := { t.sup with retryCount := 0 } } c :=
      ⟨ht.child, ht.last, ht.unreaped, ht.sane⟩
    refine guarded_end ?_ fun _ => hprobe
    exact guarded_ready rfl trivial (guarded_ready rfl trivial (guarded_replace hreset))
  | _ => exact guarded_end (guarded_dismiss ht) fun _ => trivial

private theorem guarded_onProbeTimeout (h : s.Minds c) :
    host.guarded Op.OnOwnChild (onProbeTimeout next) s := by
  obtain ⟨k, heq, hk⟩ := onProbeTimeout_parts next
  rw [heq]
  exact guarded_emit h fun t ht => guarded_end (guarded_terminateChild ht) hk

private theorem guarded_selectOneTick (h : s.Minds c) :
    host.guarded Op.OnOwnChild (selectOneTick next) s := by
  rw [selectOneTick]
  refine guarded_ready rfl trivial (guarded_ready rfl trivial ?_)
  rw [h.child]
  refine guarded_ready rfl trivial ⟨h.owns, fun wakeup t _ => ?_⟩
  cases wakeup with
  | exited result =>
    refine guarded_of_calm ?_ t
    exact (only_liftIo result).bind fun _ => childLifetime_calm.bind fun _ => trivial
  | timer =>
    exact guarded_of_handsOff
      (probeBranch_only (fun _ => Op.Probing.handsOff) fun _ => Op.Calm.handsOff) t
  | received ev =>
    rcases ev with _ | ev
    · trivial
    · cases ev <;> trivial

/-- A turn signals and waits for the child of the loop top it starts from. -/
private theorem guarded_turn (htop : LoopTop s next c) (hunreaped : s.LastUnreaped)
    (hsane : s.Sane) : host.guarded Op.OnOwnChild (turn next) s := by
  have hminds : s.Minds c := ⟨htop.child, htop.only.last, hunreaped, hsane⟩
  rw [turn]
  refine guarded_ready rfl trivial (guarded_ready rfl trivial ?_)
  split
  · exact guarded_onExpired hminds
  · refine guarded_bind.mpr ⟨guarded_selectOneTick hminds, ?_⟩
    have hticks : host.wp ⟨fun r t => ∃ es, Ticks s next c es r.1 r.2 t, fun _ _ => True,
        fun _ => True⟩ (selectOneTick next) s :=
      wp_selectOneTick htop (fun es _ _ _ h => ⟨es, h⟩) (fun _ _ _ _ => trivial)
        fun _ _ _ => trivial
    have hkept := keeps_sane.wp (Prog.only_of_forall (fun _ => trivial) (selectOneTick next)) hsane
    refine wp_mono ?_ ?_ ?_ (wp_and (wp_and hticks hkept) (wp_selectOneTick_unreaped htop hsane))
    · rintro ⟨outcome, next'⟩ t ⟨⟨⟨es, htick⟩, htsane⟩, hleft⟩
      refine guarded_ready rfl trivial ?_
      have htminds : t.LastUnreaped → (t.mark (.ticked outcome)).Minds c := fun hlast =>
        ⟨(congrArg (·.child) htick.logs.sup).trans htop.child,
          htop.only.last.trans htick.logs.world.length.symm, hlast, htsane⟩
      cases outcome with
      | probeOk => trivial
      | childExited status lifetime => exact guarded_of_calm (onChildExited_calm status lifetime) _
      | probeTimeout => exact guarded_onProbeTimeout (htminds (hleft.resolve_left (by simp)))
      | signal kind => exact guarded_onSignal (htminds (hleft.resolve_left (by simp))) kind
    · exact fun _ _ _ => trivial
    · exact fun _ _ => trivial

end Loop

/-- Every signal goes to a process of the supervisor's own: in every execution, where SIGTERM
is sent or a forced kill asked for, the process has been spawned by this run and has not been
reaped, so that its id cannot have gone to another one; and the loop selects on such a process
only, and waits for none that it has not spawned. -/
theorem run_signals_own_child (s₀ : Sys) (hs : s₀.Fresh) (n : Nat) (script : List (List Event)) :
    host.Begins Op.OnOwnChild (runFor n) script s₀ := by
  have hsane : s₀.Sane := by simp [Sys.Sane, hs.procs]
  induction n with
  | zero => exact begins_of_guarded (guarded_of_calm startUp_calm s₀) script
  | succ n ih =>
    refine begins_bind.mpr ⟨ih, fun flow top rest htop => ?_⟩
    cases flow with
    | returned => trivial
    | looping next =>
      have htop : execute n script s₀ = ⟨.ret (.looping next), top, rest⟩ := htop
      obtain ⟨es, c, hr⟩ := reaches_of_execute hs.still htop
      have hkept := wp_sound (keeps_sane.wp (Prog.only_of_forall (fun _ => trivial) (runFor n))
        hsane) script
      rw [show host.drive (runFor n) script s₀ = _ from htop] at hkept
      have hend : (execute n script s₀).out ≠ .pending := by simp [htop]
      have hleft := execute_leaves hs hend
      rw [htop] at hleft
      have hunreaped : top.LastUnreaped := by
        rcases hleft with ⟨_, _, hlast⟩ | ⟨_, _, _, _, _, _, _, _, hleaves⟩
        · exact hlast
        · exact hleaves
      exact begins_of_guarded (guarded_turn hr.loopTop hunreaped hkept) rest

/-- A child that outlives the SIGTERM by ten seconds and is then killed. -/
theorem run_signals_own_child_stubborn :
    let script : List (List Event) :=
      [[.signal (.signalReceived .terminate)], [.elapse (Duration.fromSecs 10)]]
    host.Begins Op.OnOwnChild (runFor 1) script ⟨.initial, .initial .unix⟩ ∧
      ((execute 1 script ⟨.initial, .initial .unix⟩).state.world.history.map (·.act)).drop 2 =
        [.killed ⟨0⟩ false, .killed ⟨0⟩ true] :=
  ⟨run_signals_own_child _ (Sys.fresh_initial .initial .unix rfl) 1 _, rfl⟩

end RustyAutossh
