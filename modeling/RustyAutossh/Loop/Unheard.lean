import RustyAutossh.Async.Hiding
import RustyAutossh.Loop.Code

/-!
# The loop without its event channel

Muting a system takes the event sender from the record, and the channel and the events
from the host. As long as no event has to wait for room, every function of the loop
executes on the muted system as it does on the full one.
-/

namespace RustyAutossh

open Async Runtime

/-- A line that logs an event sent to the consumer. -/
def Act.isEmitted : Act → Bool
  | .emitted _ => true
  | _ => false

/-- The lines of a log other than events. -/
def unheard (es : List Entry) : List Entry := es.filter fun e => !e.act.isEmitted

/-- The record without its event sender. -/
def Supervisor.mute (self : Supervisor) : Supervisor := { self with eventTx := none }

/-- The host without events, sent or queued. -/
def World.mute (w : World) : World := { w with inbox := [], history := unheard w.history }

/-- The system without its event channel. -/
def Sys.mute (s : Sys) : Sys := ⟨s.sup.mute, s.world.mute⟩

/-- An event is sent while the channel has room or nobody receives, so that it need not wait. -/
def Op.Prompt (op : Op) (s : Sys) : Prop :=
  match op with
  | .send tx _ => s.world.inboxOpen = false ∨ s.world.inbox.length < tx.capacity
  | _ => True

instance (op : Op) (s : Sys) : Decidable (op.Prompt s) :=
  match op with
  | .send tx _ =>
    inferInstanceAs (Decidable (s.world.inboxOpen = false ∨ s.world.inbox.length < tx.capacity))
  | .target | .now | .wallClock | .this | .put _ | .trace _ | .spawn _ _ | .childId _ | .kill _
  | .startKill _ | .wait _ | .waitTimeout _ _ | .sleepUntil _ | .select _ _ _ | .startProbe _ _
  | .roundtrip _ _ _ => .isTrue trivial

/-- An operation that touches neither the record nor the channel. -/
def Op.Blind : Op → Prop
  | .this | .put _ | .send _ _ => False
  | _ => True

section Host

variable (w : World)

theorem World.mute_log {act : Act} (h : act.isEmitted = false) :
    w.mute.log act = (w.log act).mute := by
  have hkept : unheard (w.history ++ [⟨w.now, w.alive, act⟩]) =
      unheard w.history ++ [⟨w.now, w.alive, act⟩] := by
    simp [unheard, h]
  simp only [World.log, World.mute, hkept]
  rfl

/-- The environment acts on a muted host as on the full one. -/
theorem World.mute_apply (e : Event) : w.mute.apply e = (w.apply e).mute := by
  cases e with
  | signal ev => cases hopen : w.signalsOpen <;> simp [World.apply, World.mute, hopen]
  | _ => rfl

theorem Sys.mute_apply (s : Sys) (events : List Event) :
    s.mute.apply events = (s.apply events).mute := by
  have hworld : events.foldl World.apply s.world.mute =
      (events.foldl World.apply s.world).mute := by
    induction events generalizing s with
    | nil => rfl
    | cons e events ih =>
      rw [List.foldl_cons, World.mute_apply]
      exact ih ⟨s.sup, s.world.apply e⟩
  simp only [Sys.apply, Sys.mute, hworld]

theorem World.mute_wait (c : Child) :
    w.mute.wait c = ((w.wait c).1, (w.wait c).2.mute) := by
  simp only [World.wait, World.mute]
  split
  · rfl
  · split
    · rfl
    · split
      · rfl
      · split <;> rfl

theorem World.mute_spawn (path : PathBuf) (args : List String) :
    w.mute.spawn path args = ((w.spawn path args).1, (w.spawn path args).2.mute) := by
  have hlog : w.mute.log (.spawned path args (w.mute.spawnResult w.mute.spawns)) =
      (w.log (.spawned path args (w.spawnResult w.spawns))).mute := w.mute_log rfl
  simp only [World.spawn, hlog]
  have hresult : w.mute.spawnResult w.mute.spawns = w.spawnResult w.spawns := rfl
  rw [hresult]
  cases w.spawnResult w.spawns <;> rfl

theorem World.mute_startKill (c : Child) :
    w.mute.startKill c = ((w.startKill c).1, (w.startKill c).2.mute) := by
  have hlog : w.mute.log (.killed c true) = (w.log (.killed c true)).mute := w.mute_log rfl
  simp only [World.startKill, hlog]
  have herror : w.mute.killError w.mute.kills = w.killError w.kills := rfl
  rw [herror]
  cases w.killError w.kills <;> rfl

theorem World.mute_select (c : Child) (timer : Option Instant) (signals : Bool) :
    w.mute.select c timer signals =
      ((w.select c timer signals).1, (w.select c timer signals).2.mute) := by
  simp only [World.select, w.mute_wait]
  rcases w.wait c with ⟨result | result, v⟩
  · dsimp only
    have hnow : w.mute.now = w.now := rfl
    have hsignals : w.mute.signals = w.signals := rfl
    have hopen : w.mute.signalsOpen = w.signalsOpen := rfl
    rw [hnow, hsignals, hopen]
    by_cases hdue : timer.any (· ≤ w.now) = true
    · rw [if_pos hdue, if_pos hdue]
    · rw [if_neg hdue, if_neg hdue]
      cases signals with
      | false => rfl
      | true =>
        cases w.signals with
        | nil => cases w.signalsOpen <;> rfl
        | cons ev rest => rfl
  · rfl

theorem World.mute_roundtrip (accepts : Bool) (len : Nat) (deadline : Instant) :
    w.mute.roundtrip accepts len deadline =
      ((w.roundtrip accepts len deadline).1, (w.roundtrip accepts len deadline).2.mute) := by
  have hnet : w.mute.net = w.net := rfl
  have hnow : w.mute.now = w.now := rfl
  simp only [World.roundtrip, hnet, hnow]
  rcases w.net.roundtrip accepts len with ⟨r | r, n⟩
  · dsimp only
    by_cases hdue : deadline ≤ w.now
    · rw [if_pos hdue, if_pos hdue, w.mute_log rfl]
      rfl
    · rw [if_neg hdue, if_neg hdue]
      rfl
  · dsimp only
    rw [w.mute_log rfl]
    rfl

theorem World.mute_startProbe (port : UInt16) (payload : List UInt8) :
    w.mute.startProbe port payload = (w.startProbe port payload).mute := by
  have hlog : w.mute.log (.probing port payload) = (w.log (.probing port payload)).mute :=
    w.mute_log rfl
  simp only [World.startProbe, hlog]
  rfl

end Host

/-- Such an operation is polled on the muted system as on the full one. -/
theorem Sys.mute_poll {op : Op} (hop : op.Blind) (s : Sys) :
    poll op s.mute = ((poll op s).1, (poll op s).2.mute) := by
  cases op with
  | this => exact hop.elim
  | put => exact hop.elim
  | send => exact hop.elim
  | trace m =>
    show (some (), Sys.mk s.sup.mute (s.world.mute.log (.passed m))) = _
    rw [s.world.mute_log rfl]
    rfl
  | kill c =>
    show (some (), Sys.mk s.sup.mute (s.world.mute.log (.killed c false))) = _
    rw [s.world.mute_log rfl]
    rfl
  | spawn path args =>
    show (some (s.world.mute.spawn path args).1,
      Sys.mk s.sup.mute (s.world.mute.spawn path args).2) = _
    rw [s.world.mute_spawn]
    rfl
  | startKill c =>
    show (some (s.world.mute.startKill c).1, Sys.mk s.sup.mute (s.world.mute.startKill c).2) = _
    rw [s.world.mute_startKill]
    rfl
  | startProbe port payload =>
    show (some (), Sys.mk s.sup.mute (s.world.mute.startProbe port payload)) = _
    rw [s.world.mute_startProbe]
    rfl
  | wait c =>
    show ((s.world.mute.wait c).1, Sys.mk s.sup.mute (s.world.mute.wait c).2) = _
    rw [s.world.mute_wait]
    rfl
  | waitTimeout c deadline =>
    have hwait : s.mute.world.wait c = ((s.world.wait c).1, (s.world.wait c).2.mute) :=
      s.world.mute_wait c
    simp only [poll, hwait]
    rcases s.world.wait c with ⟨r | r, w⟩
    · rfl
    · rfl
  | select c timer signals =>
    show ((s.world.mute.select c timer signals).1,
      Sys.mk s.sup.mute (s.world.mute.select c timer signals).2) = _
    rw [s.world.mute_select]
    rfl
  | roundtrip accepts len deadline =>
    show ((s.world.mute.roundtrip accepts len deadline).1,
      Sys.mk s.sup.mute (s.world.mute.roundtrip accepts len deadline).2) = _
    rw [s.world.mute_roundtrip]
    rfl
  | _ => rfl

section Rules

variable {α β : Type}

/-- The second program executes on the muted system as the first does on the full one, as
long as no event has to wait. -/
abbrev Mutes (p p' : Future α) : Prop := host.Hides Op.Prompt Sys.mute p p'

theorem Op.Blind.polls {op : Op} (hop : op.Blind) : Hides.Polls host Sys.mute op op id where
  poll s := (Sys.mute_poll hop s).trans (by rw [Option.map_id]; rfl)
  act events s := s.mute_apply events

private theorem polls_this : Hides.Polls host Sys.mute .this .this Supervisor.mute where
  poll _ := rfl
  act events s := s.mute_apply events

private theorem polls_put (self : Supervisor) :
    Hides.Polls host Sys.mute (.put self) (.put self.mute) id where
  poll _ := rfl
  act events s := s.mute_apply events

theorem mutes_await {op : Op} {k k' : op.Answer → Future α} (hop : op.Blind)
    (hk : ∀ r, Mutes (k r) (k' r)) : Mutes (await op >>= k) (await op >>= k') :=
  hides_call hop.polls hk

theorem mutes_perform {op : Op} (hop : op.Blind) : Mutes (await op) (await op) :=
  hides_call hop.polls fun r => hides_ret r

/-- Reading the record gives the muted one. -/
theorem mutes_this {k k' : Op.this.Answer → Future α}
    (hk : ∀ self : Supervisor, Mutes (k self) (k' self.mute)) :
    Mutes (await .this >>= k) (await .this >>= k') :=
  hides_call polls_this hk

/-- Writing the record writes the muted one. -/
theorem mutes_put (self : Supervisor) : Mutes (await (.put self)) (await (.put self.mute)) :=
  hides_call (polls_put self) fun u => hides_ret u

theorem mutes_liftIo (r : Except IoError α) : Mutes (liftIo r) (liftIo r) := by
  cases r with
  | error e => exact hides_fail _
  | ok a => exact hides_ret a

/-- An assignment to a field other than the sender. -/
theorem mutes_modifySelf {g : Supervisor → Supervisor}
    (hg : ∀ self : Supervisor, g self.mute = (g self).mute) :
    Mutes (modifySelf g) (modifySelf g) := by
  refine mutes_this fun self => ?_
  rw [hg]
  exact mutes_put (g self)

/-- On the muted system nothing is sent. -/
theorem mutes_emit (ev : SupervisorEvent) : Mutes (emit ev) (emit ev) := by
  refine mutes_this fun self => ?_
  show Mutes _ (pure ())
  split
  · refine hides_skip (fun s hprompt => ?_) fun u => hides_ret u
    rename_i tx _
    have hroom : s.world.inboxOpen = false ∨ s.world.inbox.length < tx.capacity := hprompt
    by_cases hopen : s.world.inboxOpen = true
    · have hlt := hroom.resolve_left (by simp [hopen])
      have hsend : s.world.send tx ev =
          (some (), { s.world.log (.emitted ev) with inbox := s.world.inbox ++ [ev] }) := by
        simp [World.send, hopen, hlt]
      have hmute : (s.world.send tx ev).2.mute = s.world.mute := by
        simp [hsend, World.mute, World.log, unheard, Act.isEmitted]
      refine ⟨(), ⟨s.sup, (s.world.send tx ev).2⟩, ?_, ?_⟩
      · show ((s.world.send tx ev).1, Sys.mk s.sup (s.world.send tx ev).2) = _
        rw [hsend]
      · simp only [Sys.mute, hmute]
    · exact ⟨(), s, by simp [host, poll, World.send, hopen], rfl⟩
  · exact hides_ret ()

end Rules

section Functions

private theorem mutes_nowPlus (d : Duration) : Mutes (nowPlus d) (nowPlus d) := by
  refine mutes_await trivial fun now => mutes_await trivial fun os => ?_
  split
  · exact hides_ret _
  · exact hides_abort

private theorem mutes_sleep (d : Duration) : Mutes (sleep d) (sleep d) :=
  mutes_await trivial fun _ => mutes_await trivial fun _ => mutes_perform trivial

private theorem mutes_spawnChild : Mutes spawnChild spawnChild := by
  refine mutes_this fun self => ?_
  refine Hides.bind (mutes_await trivial fun r => mutes_liftIo r) fun c => ?_
  refine mutes_await trivial fun pid => Hides.bind (mutes_modifySelf fun _ => rfl) fun _ => ?_
  refine mutes_await trivial fun now => Hides.bind (mutes_modifySelf fun _ => rfl) fun _ => ?_
  exact mutes_emit _

private theorem mutes_kill (c : Child) : Mutes c.kill c.kill := by
  refine mutes_await trivial fun r => ?_
  cases r with
  | error e => exact hides_ret _
  | ok u => exact mutes_await trivial fun r => by cases r <;> exact hides_ret _

private theorem mutes_sigterm (c : Child) : Mutes c.sigterm c.sigterm := by
  refine mutes_await trivial fun pid => ?_
  cases pid with
  | none => exact hides_ret _
  | some pid => exact mutes_perform trivial

private theorem mutes_collect (c : Child) : Mutes
    (do let status ← liftIo (← await (.wait c)); pure (some status))
    (do let status ← liftIo (← await (.wait c)); pure (some status)) :=
  mutes_await trivial fun r => (mutes_liftIo r).bind fun _ => hides_ret _

private theorem mutes_terminateUnix (c : Child) : Mutes (terminateUnix c) (terminateUnix c) := by
  refine (mutes_sigterm c).bind fun _ => mutes_await trivial fun _ => mutes_await trivial fun _ =>
    mutes_await trivial fun r => ?_
  match r with
  | some (.ok status) => exact hides_ret _
  | some (.error e) => exact hides_fail _
  | none => exact (mutes_kill c).bind fun _ => mutes_collect c

theorem mutes_terminateChild : Mutes terminateChild terminateChild := by
  refine mutes_this fun self => ?_
  have hchild : self.mute.child = self.child := rfl
  rw [hchild]
  split
  · exact hides_ret _
  · refine Hides.bind (mutes_modifySelf fun _ => rfl) fun _ => mutes_await trivial fun os => ?_
    split
    · exact mutes_terminateUnix _
    · exact (mutes_kill _).bind fun _ => mutes_collect _

private theorem mutes_dismiss : Mutes
    (do let _ ← terminateChild.attempt; (pure () : Future Unit))
    (do let _ ← terminateChild.attempt; (pure () : Future Unit)) :=
  mutes_terminateChild.attempt.bind fun _ => hides_ret _

private theorem mutes_probe (m : ProbeLoop) (d : Duration) : Mutes (m.probe d) (m.probe d) := by
  refine mutes_await trivial fun t => mutes_await trivial fun _ => mutes_await trivial fun now =>
    mutes_await trivial fun os => mutes_await trivial fun r => ?_
  match r with
  | some (.ok _) => exact hides_ret _
  | some (.error e) => exact hides_ret _
  | none => exact hides_ret _

private theorem mutes_childLifetime : Mutes childLifetime childLifetime := by
  refine mutes_this fun self => ?_
  have hspawned : self.mute.childSpawnInstant = self.childSpawnInstant := rfl
  rw [hspawned]
  split
  · exact mutes_await trivial fun _ => hides_ret _
  · exact hides_ret _

private theorem mutes_probeBranch : Mutes probeBranch probeBranch := by
  refine mutes_this fun self => ?_
  have hmonitor : self.mute.monitor = self.monitor := rfl
  have hclock : self.mute.clock = self.clock := rfl
  rw [hmonitor, hclock]
  split
  · exact hides_ret _
  · refine (mutes_probe _ _).bind fun r => ?_
    cases r <;> exact (mutes_nowPlus _).bind fun _ => hides_ret _

private theorem mutes_selectOneTick (next : Option Instant) :
    Mutes (selectOneTick next) (selectOneTick next) := by
  refine mutes_this fun self => mutes_await trivial fun now => ?_
  have hchild : self.mute.child = self.child := rfl
  have hsignals : self.mute.signalRx = self.signalRx := rfl
  rw [hchild, hsignals]
  split
  · exact hides_fail _
  · refine mutes_await trivial fun os => mutes_await trivial fun wakeup => ?_
    split
    · exact (mutes_liftIo _).bind fun _ => mutes_childLifetime.bind fun _ => hides_ret _
    · exact mutes_probeBranch
    · exact hides_ret _
    · exact hides_ret _

private theorem mutes_firstProbe : Mutes firstProbe firstProbe := by
  refine mutes_this fun self => ?_
  have hmonitor : self.mute.monitor = self.monitor := rfl
  have hclock : self.mute.clock = self.clock := rfl
  rw [hmonitor, hclock]
  split
  · exact (mutes_nowPlus _).bind fun _ => hides_ret _
  · exact hides_ret _

/-- A spawn and the announcement that it replaces an earlier child. -/
private theorem mutes_replace : Mutes (do spawnChild; emit .childRespawned)
    (do spawnChild; emit .childRespawned) :=
  mutes_spawnChild.bind fun _ => mutes_emit _

private theorem mutes_respawn : Mutes respawn respawn :=
  mutes_this fun _ => (mutes_sleep _).bind fun _ => mutes_replace

/-- The decision on a loss does not depend on the sender. -/
theorem Supervisor.mute_handleChildExit (self : Supervisor) (status : ExitStatus)
    (lifetime : Duration) : self.mute.handleChildExit status lifetime =
      ((self.handleChildExit status lifetime).1,
        (self.handleChildExit status lifetime).2.mute) := by
  have hone : self.mute.oneShot = self.oneShot := rfl
  have hmode : self.mute.monitorMode = self.monitorMode := rfl
  have hclock : self.mute.clock = self.clock := rfl
  have hretry : self.mute.retryCount = self.retryCount := rfl
  simp only [Supervisor.handleChildExit, hone, hmode, hclock, hretry]
  by_cases hfailed : (self.oneShot && !status.success) = true
  · rw [if_pos hfailed, if_pos hfailed]
  rw [if_neg hfailed, if_neg hfailed]
  by_cases hsuccess : status.success = true
  · rw [if_pos hsuccess, if_pos hsuccess]
    cases self.monitorMode <;> rfl
  rw [if_neg hsuccess, if_neg hsuccess]
  by_cases hlong : lifetime ≥ self.clock.gateTime
  · rw [if_pos hlong, if_pos hlong]
    rfl
  rw [if_neg hlong, if_neg hlong]
  cases self.clock.maxStart with
  | none => rfl
  | some cap =>
    by_cases hcap : saturatingAddU32 self.retryCount 1 ≥ cap
    · simp only [hcap, if_true]
      rfl
    · simp only [hcap, if_false]
      rfl

private theorem mutes_respawnDecision (outcome : LoopOutcome) (status : ExitStatus)
    (lifetime : Duration) : Mutes (respawnDecision outcome status lifetime)
      (respawnDecision outcome status lifetime) := by
  refine mutes_this fun self => ?_
  dsimp only
  rw [self.mute_handleChildExit status lifetime]
  exact (mutes_put _).bind fun _ => mutes_await trivial fun _ => hides_ret _

private theorem mutes_capped (attempts : UInt32) : Mutes
    (do emit (.maxStartReached attempts); (.fail (.maxStartReached attempts) : Future Flow))
    (do emit (.maxStartReached attempts); (.fail (.maxStartReached attempts) : Future Flow)) :=
  (mutes_emit _).bind fun _ => hides_fail _

private theorem mutes_onChildExited (status : ExitStatus) (lifetime : Duration) :
    Mutes (onChildExited status lifetime) (onChildExited status lifetime) := by
  refine (mutes_emit _).bind fun _ => Hides.bind (mutes_modifySelf fun _ => rfl) fun _ => ?_
  refine (mutes_respawnDecision _ _ _).bind fun decision => ?_
  split
  · exact mutes_respawn.bind fun _ => mutes_firstProbe.bind fun _ => hides_ret _
  · exact hides_ret _
  · exact hides_ret _
  · exact mutes_capped _
  · exact hides_fail _

private theorem mutes_onProbeTimeout (next : Option Instant) :
    Mutes (onProbeTimeout next) (onProbeTimeout next) := by
  refine (mutes_emit _).bind fun _ => mutes_terminateChild.bind fun status => ?_
  split
  · exact hides_ret _
  · refine (mutes_emit _).bind fun _ => mutes_childLifetime.bind fun _ =>
      mutes_await trivial fun _ => (mutes_respawnDecision _ _ _).bind fun decision => ?_
    split
    · exact mutes_respawn.bind fun _ => mutes_this fun _ =>
        (mutes_nowPlus _).bind fun _ => hides_ret _
    · exact mutes_capped _
    · exact hides_ret _

private theorem mutes_onSignal (kind : SignalKind) : Mutes (onSignal kind) (onSignal kind) := by
  have hrenew : Mutes (do let _ ← terminateChild.attempt; spawnChild; emit .childRespawned)
      (do let _ ← terminateChild.attempt; spawnChild; emit .childRespawned) :=
    mutes_terminateChild.attempt.bind fun _ => mutes_replace
  refine (mutes_emit _).bind fun _ => ?_
  cases kind with
  | userDefined1 => exact hrenew.bind fun _ => mutes_firstProbe.bind fun _ => hides_ret _
  | hangup =>
    exact Hides.bind (Hides.bind (mutes_modifySelf fun _ => rfl) fun _ => hrenew) fun _ =>
      mutes_firstProbe.bind fun _ => hides_ret _
  | _ => exact mutes_dismiss.bind fun _ => hides_ret _

private theorem mutes_onExpired : Mutes onExpired onExpired :=
  mutes_await trivial fun _ => (mutes_emit _).bind fun _ =>
    mutes_terminateChild.attempt.bind fun _ => hides_ret _

private theorem mutes_onOutcome (next : Option Instant) (outcome : LoopOutcome) :
    Mutes (onOutcome next outcome) (onOutcome next outcome) := by
  cases outcome with
  | probeOk => exact hides_ret _
  | childExited status lifetime => exact mutes_onChildExited status lifetime
  | probeTimeout => exact mutes_onProbeTimeout next
  | signal kind => exact mutes_onSignal kind

private theorem mutes_turn (next : Option Instant) : Mutes (turn next) (turn next) := by
  refine mutes_this fun self => mutes_await trivial fun now => ?_
  have hlifetime : self.mute.checkLifetime now = self.checkLifetime now := rfl
  rw [hlifetime]
  split
  · exact mutes_onExpired
  · exact (mutes_selectOneTick next).bind fun _ => mutes_await trivial fun _ =>
      mutes_onOutcome _ _

/-- The loop runs on the muted system as on the full one. -/
theorem mutes_runFor (n : Nat) : Mutes (runFor n) (runFor n) := by
  induction n with
  | zero => exact mutes_spawnChild.bind fun _ => mutes_firstProbe.bind fun _ => hides_ret _
  | succ n ih =>
    refine ih.bind fun flow => ?_
    split
    · exact mutes_turn _
    · exact hides_ret _

end Functions

end RustyAutossh
