import RustyAutossh.Async.Watch
import RustyAutossh.Correctness.Timing
import RustyAutossh.Loop.Reaping
import RustyAutossh.Loop.Waiting

/-!
# What a waiting run waits for

Without an event receiver a suspended run is in one of five waits, each with a deadline
that its log determines and that lies ahead: for the tunnel until the next probe, for the
reply to a probe, for the child to obey SIGTERM, and for the backoff. Only the death of
a child that has been killed by force is waited for without a deadline.
-/

namespace RustyAutossh

open Async Runtime

/-- The clocks at the end of the log. -/
def Sys.clocks (s : Sys) : Clocks := ({} : Clocks).after s.world.history

/-- When the next probe is due: `poll` after the last one of the child, or `first_poll` after
its spawn. -/
def Clocks.nextProbe (k : Clocks) (clock : PollClock) : Option Instant :=
  match k.probed with
  | some t => some (t + clock.poll)
  | none => k.spawned.map (· + clock.firstPoll)

/-- What a run can be suspended in, with the deadlines its log gives. -/
inductive Sys.Expects (t : Sys) : Op → Prop
  | tunnel {c : Child} {timer : Option Instant} {signals : Bool} : t.sup.child = some c →
      t.world.IsAlive c → t.clocks.lost = none → timer.isSome = t.sup.monitor.isSome →
      (∀ d, timer = some d → t.clocks.nextProbe t.sup.clock = some d ∧ t.world.now < d) →
      Expects t (.select c timer signals)
  | reply {accepts : Bool} {len : Nat} {deadline : Instant} {e : Entry} :
      t.world.history.getLast? = some e → e.IsProbe →
      deadline = deadlineAfter t.world.target e.time t.sup.clock.poll → t.world.now < deadline →
      Expects t (.roundtrip accepts len deadline)
  | grace {c : Child} {deadline : Instant} {e : Entry} :
      t.world.history.getLast? = some e → e.act = .killed c false → t.world.IsAlive c →
      deadline = deadlineAfter t.world.target e.time (Duration.fromSecs 10) →
      t.world.now < deadline → Expects t (.waitTimeout c deadline)
  | death {c : Child} {e : Entry} : t.world.history.getLast? = some e → e.act = .killed c true →
      t.world.IsAlive c → Expects t (.wait c)
  | backoff {deadline since : Instant} : t.clocks.lost = some since →
      deadline = deadlineAfter t.world.target since t.sup.clock.gateTime →
      t.world.now < deadline → Expects t (.sleepUntil deadline)

/-- A program that is suspended only in such waits. -/
abbrev expecting {α : Type} (Q : Post AutosshError α Sys) (p : Future α) (s : Sys) : Prop :=
  host.watch (fun op t => t.Expects op) Q p s

section Ready

variable {α : Type} {s : Sys} {Q : Post AutosshError α Sys}

private theorem expecting_now {k : Op.now.Answer → Future α} :
    expecting Q (await .now >>= k) s ↔ expecting Q (k s.world.now) s :=
  watch_call_of_ready rfl

private theorem expecting_target {k : Op.target.Answer → Future α} :
    expecting Q (await .target >>= k) s ↔ expecting Q (k s.world.target) s :=
  watch_call_of_ready rfl

private theorem expecting_this {k : Op.this.Answer → Future α} :
    expecting Q (await .this >>= k) s ↔ expecting Q (k s.sup) s :=
  watch_call_of_ready rfl

private theorem expecting_put {self : Supervisor} {k : (Op.put self).Answer → Future α} :
    expecting Q (await (.put self) >>= k) s ↔ expecting Q (k ()) { s with sup := self } :=
  watch_call_of_ready rfl

private theorem expecting_trace {m : Mark} {k : (Op.trace m).Answer → Future α} :
    expecting Q (await (.trace m) >>= k) s ↔ expecting Q (k ()) (s.mark m) :=
  watch_call_of_ready rfl

private theorem expecting_modifySelf {f : Supervisor → Supervisor} {k : Unit → Future α} :
    expecting Q (modifySelf f >>= k) s ↔ expecting Q (k ()) { s with sup := f s.sup } := by
  rw [expecting, watch_bind, modifySelf]
  exact expecting_this.trans (watch_call_of_ready rfl)

/-- Without a receiver an event costs nothing. -/
private theorem expecting_emit {ev : SupervisorEvent} {k : Unit → Future α}
    (htx : s.sup.eventTx = none) : expecting Q (emit ev >>= k) s ↔ expecting Q (k ()) s := by
  rw [expecting, watch_bind, emit]
  refine expecting_this.trans ?_
  rw [htx]
  exact Iff.rfl

end Ready

/-- Nothing is asked of the end. -/
private def anyEnd {α : Type} : Post AutosshError α Sys :=
  ⟨fun _ _ => True, fun _ _ => True, fun _ => True⟩

/-- A timed wait is pending before its deadline only. -/
private theorem stalls_waitTimeout_before {c : Child} {deadline : Instant} {s t : Sys}
    (h : host.Stalls (.waitTimeout c deadline) s t) : t.world.now < deadline := by
  obtain ⟨u, -, hp⟩ := h
  simp only [host, poll] at hp
  split at hp
  · simp at hp
  · simp only [Prod.mk.injEq] at hp
    obtain ⟨hnone, rfl⟩ := hp
    by_contra hle
    rw [if_pos (Nat.le_of_not_lt hle)] at hnone
    cases hnone

/-- What passes leaves the last line of the log. -/
private theorem Sys.Passes.last {s t : Sys} (h : s.Passes t) :
    t.world.history.getLast? = s.world.history.getLast? := by
  rw [h.world.history, List.append_nil]

section Terminate

variable {c : Child} {s : Sys}

/-- The last line of the log is a forced kill of the child. -/
private def Sys.Forced (s : Sys) (c : Child) : Prop :=
  ∃ e, s.world.history.getLast? = some e ∧ e.act = .killed c true

private theorem expecting_wait {α : Type} {Q : Post AutosshError α Sys}
    {k : (Op.wait c).Answer → Future α} (hforced : s.Forced c)
    (hk : ∀ r t, t.Forced c → expecting Q (k r) t) :
    expecting Q (await (.wait c) >>= k) s := by
  obtain ⟨e, he, hact⟩ := hforced
  refine ⟨fun t ht => ?_, fun r t ha => ?_⟩
  · exact .death ((passes_of_stalls ht).last.trans he) hact (stalls_wait ht)
  · exact hk r t ⟨e, (answers_wait ha).1.last.trans he, hact⟩

/-- The wait for a killed child. -/
private theorem expecting_collect (hforced : s.Forced c) : expecting anyEnd
    (do let status ← liftIo (← await (.wait c)); pure (some status)) s :=
  expecting_wait hforced fun r _ _ => by cases r <;> trivial

/-- A forced kill and the wait after it. -/
private theorem expecting_kill {α : Type} {Q : Post AutosshError α Sys}
    {k : Except IoError Unit → Future α} (hk : ∀ r t, t.Forced c → expecting Q (k r) t) :
    expecting Q (c.kill >>= k) s := by
  rw [Child.kill, expecting, watch_bind]
  refine (watch_call_of_ready rfl).mpr ?_
  have hforced : Sys.Forced { s with world := (s.world.startKill c).2 } c := by
    refine ⟨s.line (.killed c true), ?_, rfl⟩
    simp only [World.startKill]
    split <;> exact List.getLast?_concat ..
  show host.watch _ _ _ { s with world := (s.world.startKill c).2 }
  dsimp only [Prog.bind]
  split
  · exact hk _ _ hforced
  · exact expecting_wait hforced fun r t ht => by cases r <;> exact hk _ t ht

/-- The Unix branch waits for a child that has been sent SIGTERM, and then for one that has
been killed. -/
private theorem expecting_terminateUnix (hsane : s.Sane) :
    expecting anyEnd (terminateUnix c) s := by
  have hforce : ∀ t : Sys, expecting anyEnd (do
      let _ ← c.kill
      let status ← liftIo (← await (.wait c))
      pure (some status)) t := fun t => expecting_kill fun _ _ => expecting_collect
  rw [terminateUnix, Child.sigterm, expecting, watch_bind]
  refine (watch_call_of_ready rfl).mpr ?_
  dsimp only [Prog.bind]
  cases hid : s.world.childId c with
  | none =>
    show expecting anyEnd _ s
    rw [expecting_now, expecting_target]
    refine ⟨fun t ht => ?_, fun r t _ => ?_⟩
    · -- a child without an id has been reaped, so the wait for it is over at once
      obtain ⟨q, hq, halive⟩ := stalls_waitTimeout ht
      have hlogs := (passes_of_stalls ht).world
      have hlt : c.index < s.world.procs.length :=
        hlogs.length ▸ (List.getElem?_eq_some_iff.mp hq).1
      have hreaped : s.world.procs[c.index].reaped = true := by
        simpa [World.childId, List.getElem?_eq_getElem hlt] using hid
      obtain ⟨status, hstatus⟩ :=
        Option.ne_none_iff_exists'.mp (hsane _ (List.getElem_mem hlt) hreaped)
      obtain ⟨q', hq', hage⟩ := hlogs.ages (List.getElem?_eq_getElem hlt)
      rw [hq, Option.some.injEq] at hq'
      subst hq'
      rw [hage.status hstatus] at halive
      cases halive
    · rcases r with _ | _ | _
      · exact hforce t
      · trivial
      · trivial
  | some pid =>
    refine (watch_call_of_ready rfl).mpr ?_
    show expecting anyEnd _ { s with world := s.world.log (.killed c false) }
    rw [expecting_now, expecting_target]
    refine ⟨fun t ht => ?_, fun r t _ => ?_⟩
    · have hpass := passes_of_stalls ht
      have hlast : t.world.history.getLast? = some (s.line (.killed c false)) :=
        hpass.last.trans (List.getLast?_concat ..)
      refine .grace hlast rfl (stalls_waitTimeout ht) ?_ (stalls_waitTimeout_before ht)
      rw [hpass.world.target]
      rfl
    · rcases r with _ | _ | _
      · exact hforce t
      · trivial
      · trivial

/-- Terminating the child waits for it alone. -/
private theorem expecting_terminateChild_anyEnd (hc : s.sup.child = some c) (hsane : s.Sane) :
    expecting anyEnd terminateChild s := by
  rw [terminateChild, expecting_this, hc]
  dsimp only
  rw [expecting_modifySelf, expecting_target]
  split
  · exact expecting_terminateUnix hsane
  · rw [terminateWindows]
    exact expecting_kill fun _ _ => expecting_collect

variable {α : Type} {Q : Post AutosshError α Sys}

private theorem expecting_terminateChild {k : Option ExitStatus → Future α}
    (hc : s.sup.child = some c) (hsane : s.Sane)
    (hret : ∀ status es t, Terminates s c es t → expecting Q (k (some status)) t)
    (hfail : ∀ e t, Q.fail e t) : expecting Q (terminateChild >>= k) s := by
  have hends : host.wp ⟨fun r t => ∃ status es, r = some status ∧ Terminates s c es t,
      fun _ _ => True, fun _ => False⟩ terminateChild s :=
    wp_terminateChild hc (fun status es _ hterm _ => ⟨status, es, rfl, hterm⟩)
      fun _ _ _ _ => trivial
  refine watch_bind.mpr ?_
  refine watch_and (expecting_terminateChild_anyEnd hc hsane) hends ?_ ?_ ?_
  · rintro r t - ⟨status, es, rfl, hterm⟩
    exact hret status es t hterm
  · exact fun e t _ _ => hfail e t
  · exact fun _ _ => False.elim

private theorem expecting_terminateChild_attempt
    {k : Except AutosshError (Option ExitStatus) → Future α} (hc : s.sup.child = some c)
    (hsane : s.Sane) (hret : ∀ r es t, Terminates s c es t → expecting Q (k r) t) :
    expecting Q (terminateChild.attempt >>= k) s := by
  have hends : host.wp ⟨fun _ t => ∃ es, Terminates s c es t,
      fun _ _ => False, fun _ => False⟩ terminateChild.attempt s :=
    wp_terminateChild_attempt hc fun _ es _ hterm => ⟨es, hterm⟩
  have hwatch : expecting anyEnd terminateChild.attempt s :=
    watch_attempt.mpr (expecting_terminateChild_anyEnd hc hsane)
  refine watch_bind.mpr ?_
  refine watch_and hwatch hends ?_ ?_ ?_
  · rintro r t - ⟨es, hterm⟩
    exact hret r es t hterm
  · exact fun _ _ _ => False.elim
  · exact fun _ _ => False.elim

end Terminate

/-- The clocks run for a child and give the time of the next probe. -/
private structure Sys.Timed (s : Sys) (next : Option Instant) : Prop where
  running : s.clocks.lost = none
  due : ∀ at_, next = some at_ → s.clocks.nextProbe s.sup.clock = some at_

/-- Where the loop goes on, its clocks are right. -/
private def timed : Post AutosshError Flow Sys :=
  ⟨fun flow t => ∀ next, flow = .looping next → t.Timed next, fun _ _ => True, fun _ => True⟩

@[simp] private theorem Sys.clocks_mark (s : Sys) (m : Mark) :
    (s.mark m).clocks = s.clocks.step (s.line (.passed m)) := by
  have hhist : (s.mark m).world.history = s.world.history ++ [s.line (.passed m)] := rfl
  rw [Sys.clocks, hhist, Clocks.after_append]
  rfl

private theorem Sys.Passes.clocks {s t : Sys} (h : s.Passes t) : t.clocks = s.clocks := by
  rw [Sys.clocks, h.world.history, List.append_nil]
  rfl

section Launch

variable {s : Sys}

private theorem Sys.clocks_afterSpawn (s : Sys) (args : List String) (pid : UInt32) :
    (s.afterSpawn args pid).clocks = { spawned := some s.world.now } := by
  have hhist : (s.afterSpawn args pid).world.history =
      s.world.history ++ [s.line (.spawned s.sup.sshPath args (.ok pid))] := rfl
  rw [Sys.clocks, hhist, Clocks.after_append]
  rfl

/-- `Instant::now() + d` waits for nothing. -/
private theorem expecting_nowPlus {α : Type} {Q : Post AutosshError α Sys} {d : Duration}
    {k : Instant → Future α} (hk : expecting Q (k (s.world.now + d)) s) (habort : Q.abort s) :
    expecting Q (nowPlus d >>= k) s := by
  rw [nowPlus, expecting, watch_bind]
  refine expecting_now.mpr (expecting_target.mpr ?_)
  split
  · rename_i t ht
    rw [Instant.checkedAdd_eq_some ht]
    exact hk
  · exact habort

/-- The first probe after a spawn is due `first_poll` later. -/
private theorem Sys.timed_first (hspawn : s.clocks = { spawned := some s.world.now }) :
    s.Timed (some (s.world.now + s.sup.clock.firstPoll)) := by
  refine ⟨by rw [hspawn], ?_⟩
  rintro at_ ⟨⟩
  rw [hspawn]
  rfl

private theorem expecting_firstProbe (hspawn : s.clocks = { spawned := some s.world.now }) :
    expecting timed (do let next ← firstProbe; pure (.looping next)) s := by
  rw [expecting, watch_bind, firstProbe]
  refine expecting_this.mpr ?_
  split
  · refine expecting_nowPlus ?_ trivial
    rintro next ⟨⟩
    exact Sys.timed_first hspawn
  · rintro next ⟨⟩
    exact ⟨by rw [hspawn], by simp⟩

/-- `spawn_child` without a receiver waits for nothing. -/
private theorem expecting_spawnChild {α : Type} {Q : Post AutosshError α Sys}
    {k : Unit → Future α} (htx : s.sup.eventTx = none)
    (hk : ∀ pid, expecting Q (k ()) (s.afterSpawn s.sup.argv pid)) (hfail : ∀ e t, Q.fail e t) :
    expecting Q (spawnChild >>= k) s := by
  rw [spawnChild, expecting, watch_bind]
  refine expecting_this.mpr (watch_bind.mpr ?_)
  rw [spawnSsh]
  refine (watch_call_of_ready rfl).mpr ?_
  cases hres : s.world.spawnResult s.world.spawns with
  | error e =>
    have hspawn : s.world.spawn s.sup.sshPath (injectMonitorForwards s.sup.monitorMode
        s.sup.sshArgs) = (.error e, (s.afterFailedSpawn s.sup.argv e).world) := by
      simp [World.spawn, hres, Sys.afterFailedSpawn, Supervisor.argv]
    rw [hspawn]
    exact hfail _ _
  | ok pid =>
    have hspawn : s.world.spawn s.sup.sshPath (injectMonitorForwards s.sup.monitorMode
        s.sup.sshArgs) = (.ok ⟨s.world.procs.length⟩, (s.spawnedState s.sup.argv pid).world) := by
      simp [World.spawn, hres, Sys.spawnedState, Supervisor.argv]
    rw [hspawn]
    show expecting _ (await (.childId ⟨s.world.procs.length⟩) >>= _) (s.spawnedState s.sup.argv pid)
    refine (watch_call_of_ready rfl).mpr ?_
    refine expecting_modifySelf.mpr (expecting_now.mpr (expecting_modifySelf.mpr ?_))
    have hquiet : (s.afterSpawn s.sup.argv pid).sup.eventTx = none := htx
    exact watch_bind.mp ((expecting_emit hquiet).mpr (hk pid))

/-- The backoff lasts `gate_time` from the loss, and ends in a spawn. -/
private theorem expecting_respawn {α : Type} {Q : Post AutosshError α Sys} {k : Unit → Future α}
    (htx : s.sup.eventTx = none) (hlost : s.clocks.lost = some s.world.now)
    (hk : ∀ t, t.sup.eventTx = none → t.clocks = { spawned := some t.world.now } →
      expecting Q (k ()) t) (hfail : ∀ e t, Q.fail e t) : expecting Q (respawn >>= k) s := by
  rw [respawn, expecting, watch_bind]
  refine expecting_this.mpr (watch_bind.mpr ?_)
  rw [sleep]
  refine expecting_now.mpr (expecting_target.mpr ⟨fun t ht => ?_, fun r t ha => ?_⟩)
  · have hpass := passes_of_stalls ht
    refine .backoff (hpass.clocks.symm ▸ hlost) ?_ (stalls_awaits ht)
    rw [hpass.world.target, hpass.sup]
  · have hpass := (answers_sleepUntil ha).1
    have htx' : t.sup.eventTx = none := by rw [hpass.sup, htx]
    show expecting _ (spawnChild >>= _) t
    refine expecting_spawnChild htx' (fun pid => ?_) hfail
    have hquiet : (t.afterSpawn t.sup.argv pid).sup.eventTx = none := htx'
    exact watch_bind.mp ((expecting_emit hquiet).mpr
      (hk _ hquiet (Sys.clocks_afterSpawn _ _ _)))

end Launch

section Tick

variable {s : Sys} {next : Option Instant} {c : Child}

/-- A probe waits for its reply for `poll` after its start. -/
private theorem expecting_probe {α : Type} {Q : Post AutosshError α Sys} {m : ProbeLoop}
    {k : Except ProbeError Unit → Future α}
    (hk : ∀ r t, t.sup = s.sup → t.clocks = { s.clocks with probed := some t.world.now } →
      expecting Q (k r) t) : expecting Q (m.probe s.sup.clock.poll >>= k) s := by
  rw [ProbeLoop.probe, expecting, watch_bind]
  refine (watch_call_of_ready rfl).mpr ((watch_call_of_ready rfl).mpr ?_)
  refine (watch_call_of_ready rfl).mpr ((watch_call_of_ready rfl).mpr ?_)
  refine ⟨fun t ht => ?_, fun r t ha => ?_⟩
  · have hpass := passes_of_stalls ht
    have hlast := hpass.last.trans (List.getLast?_concat ..)
    refine .reply hlast ⟨_, _, rfl⟩ ?_ (stalls_awaits ht)
    rw [hpass.world.target, hpass.sup]
    rfl
  · have hlogs := (answers_roundtrip ha).1
    have hclocks : t.clocks = { s.clocks with probed := some t.world.now } := by
      rw [Sys.clocks, hlogs.world.history, Clocks.after_append]
      simp only [World.startProbe, World.log, Clocks.after_append]
      rfl
    have hdone := fun r => hk r t hlogs.sup hclocks
    rcases r with _ | _ | _ <;> exact hdone _

private theorem Selects.passes {timer : Option Instant} {signals : Bool} {wakeup : Wakeup}
    {t : Sys} (h : Selects c timer signals s wakeup t) : s.Passes t := by
  cases h with
  | received hpass hpass' => exact hpass.passes hpass'
  | exited hpass => exact hpass
  | timer hpass => exact hpass
  | closed hpass => exact hpass

/-- The `select!` waits for the tunnel until the next probe. -/
private theorem Sys.Timed.expects (htimed : s.Timed next) (htop : LoopTop s next c)
    {signals : Bool} {t : Sys}
    (ht : host.Stalls (.select c (s.probeTimer next) signals) s t) :
    t.Expects (.select c (s.probeTimer next) signals) := by
  have hpass := passes_of_stalls ht
  obtain ⟨halive, hahead⟩ := stalls_select ht
  refine .tunnel (by rw [hpass.sup, htop.child]) halive (hpass.clocks ▸ htimed.running) ?_ ?_
  · rw [htop.probeTimer_eq, Option.isSome_map, hpass.sup, htop.armed]
  · intro d hd
    have hlt := hahead d hd
    rw [htop.probeTimer_eq] at hd
    obtain ⟨at_, hat, rfl⟩ := Option.map_eq_some_iff.mp hd
    have hlate : s.world.now ≤ at_ := by
      by_contra hgt
      rw [max_eq_left (Nat.le_of_lt (Nat.lt_of_not_le hgt))] at hlt
      exact absurd hpass.world.now (Nat.not_le.mpr hlt)
    rw [max_eq_right hlate] at hlt ⊢
    rw [hpass.clocks, hpass.sup]
    exact ⟨htimed.due at_ hat, hlt⟩

/-- A tick leaves the record as it was, and the clocks right after a successful probe. -/
private theorem expecting_selectOneTick (htop : LoopTop s next c) (htimed : s.Timed next) :
    expecting ⟨fun r t => t.sup = s.sup ∧ (r.1 = .probeOk → t.Timed r.2),
      fun _ _ => True, fun _ => True⟩ (selectOneTick next) s := by
  obtain ⟨p, -, hspawned⟩ := htop.spawned
  rw [selectOneTick, expecting_this, expecting_now, htop.child]
  dsimp only
  rw [expecting_target]
  refine ⟨fun t ht => htimed.expects htop ht, fun wakeup t ha => ?_⟩
  have hpass := (answers_select ha).passes
  have hsup := hpass.sup
  cases wakeup with
  | exited result =>
    cases result with
    | error e => trivial
    | ok status =>
      show expecting _ (childLifetime >>= _) t
      rw [childLifetime, expecting, watch_bind]
      refine expecting_this.mpr ?_
      rw [hsup, hspawned]
      exact expecting_now.mpr ⟨hsup, by simp⟩
  | timer =>
    show expecting _ probeBranch t
    rw [probeBranch, expecting_this]
    split
    · exact ⟨hsup, by simp⟩
    · refine expecting_probe fun r u hu hclocks => ?_
      have hnext : u.Timed (some (u.world.now + u.sup.clock.poll)) := by
        refine ⟨by rw [hclocks, hpass.clocks]; exact htimed.running, ?_⟩
        rintro at_ ⟨⟩
        rw [hclocks]
        rfl
      rw [hu] at hnext
      cases r with
      | ok _ => exact expecting_nowPlus ⟨hu.trans hsup, fun _ => hnext⟩ trivial
      | error _ => exact expecting_nowPlus ⟨hu.trans hsup, by simp⟩ trivial
  | received ev =>
    rcases ev with _ | ev
    · exact ⟨hsup, by simp⟩
    · cases ev <;> exact ⟨hsup, by simp⟩

end Tick

section Turn

variable {s : Sys} {next : Option Instant} {c : Child}

/-- A decision is logged at once, and starts the backoff if it is a respawn. -/
private theorem expecting_respawnDecision {α : Type} {Q : Post AutosshError α Sys}
    {outcome : LoopOutcome} {status : ExitStatus} {lifetime : Duration}
    {k : RespawnDecision → Future α} (htx : s.sup.eventTx = none)
    (hk : ∀ decision t, t.sup.eventTx = none → t.clocks.lost = some t.world.now →
      expecting Q (k decision) t) :
    expecting Q (respawnDecision outcome status lifetime >>= k) s := by
  rw [respawnDecision, expecting, watch_bind]
  refine expecting_this.mpr (expecting_put.mpr (expecting_trace.mpr ?_))
  refine hk _ _ ?_ (by rw [Sys.clocks_mark]; rfl)
  show (s.sup.handleChildExit status lifetime).2.eventTx = none
  have hdec := s.sup.handleChildExit_decides status lifetime
  generalize s.sup.handleChildExit status lifetime = r at hdec
  rw [(Supervisor.agrees_of_config hdec.config).eventTx, htx]

private theorem expecting_childLifetime {α : Type} {Q : Post AutosshError α Sys}
    {k : Duration → Future α} (hk : ∀ lifetime, expecting Q (k lifetime) s) :
    expecting Q (childLifetime >>= k) s := by
  rw [childLifetime, expecting, watch_bind]
  refine expecting_this.mpr ?_
  split
  · exact expecting_now.mpr (hk _)
  · exact hk _

private theorem expecting_onChildExited {status : ExitStatus} {lifetime : Duration}
    (htx : s.sup.eventTx = none) : expecting timed (onChildExited status lifetime) s := by
  rw [onChildExited, expecting_emit htx, expecting_modifySelf]
  refine expecting_respawnDecision (by exact htx) fun decision t ht hlost => ?_
  cases decision with
  | respawn =>
    refine expecting_respawn ht hlost (fun u _ hspawn => ?_) fun _ _ => trivial
    exact expecting_firstProbe hspawn
  | exit reason =>
    cases reason with
    | maxStartReached attempts => exact (expecting_emit ht).mpr trivial
    | oneShotFailed => trivial
    | _ => exact fun _ h => by cases h

private theorem expecting_onProbeTimeout (hc : s.sup.child = some c) (hsane : s.Sane)
    (htx : s.sup.eventTx = none) : expecting timed (onProbeTimeout next) s := by
  rw [onProbeTimeout, expecting_emit htx]
  refine expecting_terminateChild hc hsane (fun status es t hterm => ?_) fun _ _ => trivial
  have ht : t.sup.eventTx = none := by rw [hterm.sup]; exact htx
  show expecting _ (emit _ >>= _) t
  rw [expecting_emit ht]
  refine expecting_childLifetime fun lifetime => ?_
  rw [expecting_target]
  refine expecting_respawnDecision ht fun decision u hu hlost => ?_
  cases decision with
  | respawn =>
    refine expecting_respawn hu hlost (fun v _ hspawn => ?_) fun _ _ => trivial
    refine expecting_this.mpr (expecting_nowPlus ?_ trivial)
    rintro next ⟨⟩
    exact Sys.timed_first hspawn
  | exit reason =>
    cases reason with
    | maxStartReached attempts => exact (expecting_emit hu).mpr trivial
    | _ => exact fun _ h => by cases h

/-- The child is replaced without a backoff. -/
private theorem expecting_renew (hc : s.sup.child = some c) (hsane : s.Sane)
    (htx : s.sup.eventTx = none) : expecting timed (do
      (do let _ ← terminateChild.attempt; spawnChild; emit .childRespawned)
      let next ← firstProbe
      pure (.looping next)) s := by
  rw [expecting, watch_bind]
  refine expecting_terminateChild_attempt hc hsane fun _ es t hterm => ?_
  have ht : t.sup.eventTx = none := by rw [hterm.sup]; exact htx
  refine expecting_spawnChild ht (fun pid => ?_) fun _ _ => trivial
  have hquiet : (t.afterSpawn t.sup.argv pid).sup.eventTx = none := ht
  refine watch_bind.mp ((expecting_emit hquiet).mpr ?_)
  exact expecting_firstProbe (Sys.clocks_afterSpawn _ _ _)

private theorem expecting_dismiss {α : Type} {Q : Post AutosshError α Sys} {a : α}
    (hc : s.sup.child = some c) (hsane : s.Sane) (hret : ∀ t, Q.ret a t) :
    expecting Q (do (do let _ ← terminateChild.attempt; pure ()); pure a) s := by
  rw [expecting, watch_bind]
  exact expecting_terminateChild_attempt hc hsane fun _ _ t _ => hret t

private theorem expecting_onSignal {kind : SignalKind} (hc : s.sup.child = some c)
    (hsane : s.Sane) (htx : s.sup.eventTx = none) : expecting timed (onSignal kind) s := by
  unfold onSignal
  rw [expecting_emit htx]
  have hstop : expecting timed
      (do (do let _ ← terminateChild.attempt; pure ()); pure Flow.returned) s :=
    expecting_dismiss hc hsane fun _ _ h => by cases h
  cases kind with
  | userDefined1 => exact expecting_renew hc hsane htx
  | hangup =>
    show expecting timed (handleHupSignal >>= _) s
    rw [handleHupSignal, expecting, watch_bind]
    refine expecting_modifySelf.mpr (watch_bind.mp ?_)
    exact expecting_renew (by exact hc) hsane (by exact htx)
  | _ => exact hstop

private theorem expecting_turn (htop : LoopTop s next c) (htimed : s.Timed next)
    (hsane : s.Sane) (htx : s.sup.eventTx = none) : expecting timed (turn next) s := by
  rw [turn, expecting_this, expecting_now]
  split
  · rw [onExpired, expecting_trace]
    have hquiet : (s.mark .expired).sup.eventTx = none := htx
    rw [expecting_emit hquiet]
    exact expecting_terminateChild_attempt htop.child hsane fun _ _ _ _ _ h => by cases h
  · have htick := expecting_selectOneTick htop htimed
    have hkept := keeps_sane.wp (Prog.only_of_forall (fun _ => trivial) (selectOneTick next)) hsane
    refine watch_bind.mpr ?_
    refine watch_and htick hkept ?_ ?_ ?_
    · rintro ⟨outcome, next'⟩ t ⟨hsup, hok⟩ ht
      have hc : (t.mark (.ticked outcome)).sup.child = some c := by
        rw [Sys.mark_sup, hsup, htop.child]
      have hquiet : (t.mark (.ticked outcome)).sup.eventTx = none := by
        rw [Sys.mark_sup, hsup, htx]
      show expecting timed _ t
      dsimp only
      rw [expecting_trace]
      cases outcome with
      | probeOk =>
        rintro at_ ⟨⟩
        obtain ⟨hrunning, hdue⟩ := hok rfl
        exact ⟨by rw [Sys.clocks_mark]; exact hrunning, by rw [Sys.clocks_mark]; exact hdue⟩
      | childExited status lifetime => exact expecting_onChildExited hquiet
      | probeTimeout => exact expecting_onProbeTimeout hc ht hquiet
      | signal kind => exact expecting_onSignal hc ht hquiet
    · exact fun _ _ _ _ => trivial
    · exact fun _ _ _ => trivial

end Turn

/-- A run without a receiver is only ever suspended in one of these waits. -/
private theorem expecting_runFor {s₀ : Sys} (hs : s₀.Fresh) (htx : s₀.sup.eventTx = none)
    (n : Nat) : expecting timed (runFor n) s₀ := by
  induction n with
  | zero =>
    refine expecting_spawnChild htx (fun pid => ?_) fun _ _ => trivial
    exact expecting_firstProbe (Sys.clocks_afterSpawn _ _ _)
  | succ n ih =>
    have hsane : s₀.Sane := by simp [Sys.Sane, hs.procs]
    have hkept := wp_and (wp_runFor hs.still n)
      (keeps_sane.wp (Prog.only_of_forall (fun _ => trivial) (runFor n)) hsane)
    refine watch_bind.mpr ?_
    refine watch_and ih hkept ?_ ?_ ?_
    · rintro flow t htimed ⟨hrun, ht⟩
      cases flow with
      | returned => exact fun _ h => by cases h
      | looping next =>
        have hrun : RunEnd s₀ n (.ret (.looping next)) t := hrun
        obtain ⟨es, c, hr⟩ := hrun.reaches
        refine expecting_turn hr.loopTop (htimed next rfl) ht ?_
        rw [hr.runs.settings.eventTx, htx]
    · exact fun _ _ _ _ => trivial
    · exact fun _ _ _ => trivial

/-- A supervisor without an event receiver, as both dispatchers build it, never waits but for
the tunnel until the next probe is due, for the reply to a probe until `poll` after its start,
for its child until ten seconds after SIGTERM, for the backoff until `gate_time` after the
loss, and for a child that it has killed by force. Wherever an execution is suspended the
deadline lies ahead, and it is the one the log gives. -/
theorem run_waits_on_time (s₀ : Sys) (hs : s₀.Fresh) (htx : s₀.sup.eventTx = none) (n : Nat)
    (script : List (List Event)) (op : Op) (t : Sys)
    (hsusp : host.suspension (runFor n) script s₀ = some (op, t)) : t.Expects op :=
  watch_sound (R := fun op t => t.Expects op) (expecting_runFor hs htx n) hsusp

/-- The first probe, ten minutes after the spawn, is waited for ten minutes. -/
theorem run_waits_on_time_unanswered :
    ∃ accepts len deadline t, host.suspension (runFor 1) [[.elapse (Duration.fromSecs 600)]]
      ⟨.unanswered, .initial .unix⟩ = some (.roundtrip accepts len deadline, t) ∧
      t.Expects (.roundtrip accepts len deadline) :=
  ⟨_, _, _, _, rfl, run_waits_on_time _ (Sys.fresh_initial .unanswered .unix rfl) rfl 1
    [[.elapse (Duration.fromSecs 600)]] _ _ rfl⟩

end RustyAutossh
