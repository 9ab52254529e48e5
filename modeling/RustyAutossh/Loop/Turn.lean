import RustyAutossh.Loop.Tick

/-!
# One turn of the loop

`Turn` lists every way in which a turn begun at the top of the loop can end, with
the lines it logs in order. It is derived from the code once; what every turn
preserves is read off its cases.
-/

namespace RustyAutossh

open Async Runtime

/-- The lifetime check finds the deadline passed. -/
def Sys.Expired (s : Sys) : Prop :=
  s.sup.checkLifetime s.world.now = some (.exit .maxLifetimeReached)

instance (s : Sys) : Decidable s.Expired := inferInstanceAs (Decidable (_ = _))

/-- The signals that end the run. -/
def SignalKind.stops : SignalKind → Bool
  | .terminate | .interrupt | .ctrlBreak => true
  | .userDefined1 | .hangup => false

/-- What a renewing signal does to the record before the child is replaced. -/
def Supervisor.credit (self : Supervisor) : SignalKind → Supervisor
  | .hangup => { self with retryCount := 0 }
  | _ => self

/-- A spawn attempt, the events after it and the first probe. -/
inductive Launches (s : Sys) (announced : List SupervisorEvent) :
    List Entry → End AutosshError Flow → Sys → Prop
  | failed {e : IoError} : s.world.spawnResult s.world.spawns = .error e →
      Launches s announced [s.line (.spawned s.sup.sshPath s.sup.argv (.error e))]
        (.fail (.io e)) (s.afterFailedSpawn s.sup.argv e)
  | looping {pid : UInt32} {es : List Entry} {t : Sys} {next : Option Instant} :
      s.world.spawnResult s.world.spawns = .ok pid →
      Emitted (s.afterSpawn s.sup.argv pid) (.childSpawned pid :: announced) es t →
      t.firstProbe = some next →
      Launches s announced (s.line (.spawned s.sup.sshPath s.sup.argv (.ok pid)) :: es)
        (.ret (.looping next)) t
  | overflow {pid : UInt32} {es : List Entry} {t : Sys} :
      s.world.spawnResult s.world.spawns = .ok pid →
      Emitted (s.afterSpawn s.sup.argv pid) (.childSpawned pid :: announced) es t →
      t.firstProbe = none →
      Launches s announced (s.line (.spawned s.sup.sshPath s.sup.argv (.ok pid)) :: es) .abort t

/-- The loss of the child up to the respawn decision: its own exit, or a failed probe
after which it is terminated and counted as a failure. -/
inductive Lost (s : Sys) (next : Option Instant) (c : Child) :
    List Entry → LoopOutcome → ExitStatus → Duration → Sys → Prop
  | exited {a b : Sys} {status : ExitStatus} {lifetime : Duration} {es : List Entry} :
      Ticks s next c [] (.childExited status lifetime) next a →
      Emitted (a.mark (.ticked (.childExited status lifetime))) [.childExited status] es b →
      Lost s next c (a.line (.passed (.ticked (.childExited status lifetime))) :: es)
        (.childExited status lifetime) status lifetime
        { b with sup := { b.sup with child := none } }
  | timedOut {es fs gs hs : List Entry} {a b d t : Sys} {next' : Option Instant}
      {status : ExitStatus} {spawnedAt : Instant} :
      Ticks s next c es .probeTimeout next' a →
      Emitted (a.mark (.ticked .probeTimeout)) [.probeTimeout] fs b →
      Terminates b c gs d → d.world.ExitedWith c status →
      Emitted d [.childExited status] hs t → s.sup.childSpawnInstant = some spawnedAt →
      Lost s next c (es ++ a.line (.passed (.ticked .probeTimeout)) :: (fs ++ gs ++ hs))
        .probeTimeout (makeFailedStatus t.world.target) (t.world.now - spawnedAt) t

/-- What follows a respawn decision, for a child exit and for a probe timeout. -/
inductive Settles (s : Sys) (outcome : LoopOutcome) :
    RespawnDecision → List Entry → End AutosshError Flow → Sys → Prop
  | respawn {a t : Sys} {es : List Entry} {out : End AutosshError Flow} : s.Passes a →
      deadlineAfter s.world.target s.world.now s.sup.clock.gateTime ≤ a.world.now →
      Launches a [.childRespawned] es out t → Settles s outcome .respawn es out t
  | finished : Settles s outcome (.exit .ok) [] (.ret .returned) s
  | capped {attempts : UInt32} {es : List Entry} {t : Sys} :
      Emitted s [.maxStartReached attempts] es t →
      Settles s outcome (.exit (.maxStartReached attempts)) es
        (.fail (.maxStartReached attempts)) t
  | oneShotExit : outcome ≠ .probeTimeout →
      Settles s outcome (.exit .oneShotFailed) [] (.fail (.maxStartReached 1)) s
  -- the catch-all arm after a probe timeout turns the failure into a success
  | oneShotTimeout : outcome = .probeTimeout →
      Settles s outcome (.exit .oneShotFailed) [] (.ret .returned) s

/-- Every way in which a turn can end: its lines, its end and the state it leaves. -/
inductive Turn (s : Sys) (next : Option Instant) (c : Child) :
    List Entry → End AutosshError Flow → Sys → Prop
  | expired {es fs : List Entry} {b t : Sys} : s.Expired →
      Emitted (s.mark .expired) [.maxLifetimeReached] es b → Terminates b c fs t →
      Turn s next c (s.line (.passed .expired) :: (es ++ fs)) (.ret .returned) t
  | waitFailed {t : Sys} {e : IoError} : ¬ s.Expired → s.Passes t → t.world.Terminated c →
      Turn s next c [] (.fail (.io e)) t
  | probeOverflow {es : List Entry} {t : Sys} : ¬ s.Expired → TickFails s next c es .abort t →
      Turn s next c es .abort t
  | probeOk {es : List Entry} {next' : Option Instant} {t : Sys} : ¬ s.Expired →
      Ticks s next c es .probeOk next' t →
      Turn s next c (es ++ [t.line (.passed (.ticked .probeOk))]) (.ret (.looping next'))
        (t.mark (.ticked .probeOk))
  | terminateFailed {es fs gs : List Entry} {next' : Option Instant} {a b t : Sys}
      {e : IoError} : ¬ s.Expired → Ticks s next c es .probeTimeout next' a →
      Emitted (a.mark (.ticked .probeTimeout)) [.probeTimeout] fs b → Terminates b c gs t →
      Turn s next c (es ++ a.line (.passed (.ticked .probeTimeout)) :: (fs ++ gs))
        (.fail (.io e)) t
  | lost {es fs : List Entry} {outcome : LoopOutcome} {status : ExitStatus}
      {lifetime : Duration} {a t : Sys} {decision : RespawnDecision} {sup : Supervisor}
      {out : End AutosshError Flow} : ¬ s.Expired →
      Lost s next c es outcome status lifetime a → Decides a.sup status lifetime decision sup →
      Settles ({ a with sup := sup }.mark (.decided outcome status lifetime decision)) outcome
        decision fs out t →
      Turn s next c (es ++ a.line (.passed (.decided outcome status lifetime decision)) :: fs) out t
  | stopped {kind : SignalKind} {es fs : List Entry} {a b t : Sys} : ¬ s.Expired →
      Ticks s next c [] (.signal kind) next a → kind.stops = true →
      Emitted (a.mark (.ticked (.signal kind))) [.signalReceived kind] es b →
      Terminates b c fs t →
      Turn s next c (a.line (.passed (.ticked (.signal kind))) :: (es ++ fs)) (.ret .returned) t
  | renewed {kind : SignalKind} {es fs gs : List Entry} {a b d t : Sys}
      {out : End AutosshError Flow} : ¬ s.Expired →
      Ticks s next c [] (.signal kind) next a → kind.stops = false →
      Emitted (a.mark (.ticked (.signal kind))) [.signalReceived kind] es b →
      Terminates { b with sup := b.sup.credit kind } c fs d →
      Launches d [.childRespawned] gs out t →
      Turn s next c (a.line (.passed (.ticked (.signal kind))) :: (es ++ fs ++ gs)) out t

/-- A postcondition that only asks for one of the ends of a relation. -/
def endsIn {α : Type} (R : End AutosshError α → Sys → Prop) : Post AutosshError α Sys :=
  ⟨fun a t => R (.ret a) t, fun e t => R (.fail e) t, fun t => R .abort t⟩

/-- Such a postcondition, read at an end. -/
theorem of_holds_endsIn {α : Type} {R : End AutosshError α → Sys → Prop} {out : End AutosshError α}
    {t : Sys} (h : (endsIn R).holds out t) (hend : out ≠ .pending) : R out t := by
  cases out with
  | pending => exact absurd rfl hend
  | _ => exact h

/-- A spawn and the announcement that it replaces an earlier child. -/
private theorem wp_replace {s : Sys} {Q : Post AutosshError Unit Sys}
    (hret : ∀ pid es t, s.world.spawnResult s.world.spawns = .ok pid →
      Emitted (s.afterSpawn s.sup.argv pid) [.childSpawned pid, .childRespawned] es t → Q.ret () t)
    (hfail : ∀ e, s.world.spawnResult s.world.spawns = .error e →
      Q.fail (.io e) (s.afterFailedSpawn s.sup.argv e)) :
    host.wp Q (do spawnChild; emit .childRespawned) s :=
  wp_bind.mpr (wp_spawnChild
    (fun pid _ _ hres hem => wp_emit fun _ _ hem' => hret pid _ _ hres (hem.append hem')) hfail)

section Arms

variable {s : Sys} {R : End AutosshError Flow → Sys → Prop}

/-- The first probe after a spawn ends the launch. -/
private theorem wp_launched {announced : List SupervisorEvent} {pid : UInt32} {es : List Entry}
    {t : Sys} (h : ∀ fs out u, Launches s announced fs out u → R out u)
    (hres : s.world.spawnResult s.world.spawns = .ok pid)
    (hem : Emitted (s.afterSpawn s.sup.argv pid) (.childSpawned pid :: announced) es t) :
    host.wp (endsIn R) (do let next ← firstProbe; pure (.looping next)) t :=
  wp_bind.mpr (wp_firstProbe (fun _ hnext => h _ _ _ (.looping hres hem hnext))
    fun hnone => h _ _ _ (.overflow hres hem hnone))

/-- After a failed probe the launch re-arms the timer without asking for a monitor. -/
private theorem wp_relaunched {announced : List SupervisorEvent} {pid : UInt32} {es : List Entry}
    {t : Sys} (h : ∀ fs out u, Launches s announced fs out u → R out u)
    (hres : s.world.spawnResult s.world.spawns = .ok pid)
    (hem : Emitted (s.afterSpawn s.sup.argv pid) (.childSpawned pid :: announced) es t)
    (hmon : s.sup.monitor.isSome = true) :
    host.wp (endsIn R)
      (do let next ← nowPlus (← await .this).clock.firstPoll; pure (.looping (some next))) t := by
  have hmon' : t.sup.monitor.isSome = true := by rw [hem.logs.sup]; exact hmon
  rw [wp_this]
  refine wp_bind.mpr (wp_nowPlus (fun n hn => ?_) fun hn => ?_)
  · exact h _ _ _ (.looping hres hem (by simp [Sys.firstProbe, hmon', hn]))
  · exact h _ _ _ (.overflow hres hem (by simp [Sys.firstProbe, hmon', hn]))

/-- The start of the run is a launch. -/
theorem wp_startUp (h : ∀ es out t, Launches s [] es out t → R out t) :
    host.wp (endsIn R) startUp s :=
  wp_bind.mpr (wp_spawnChild (fun _ _ _ hres hem => wp_launched h hres hem)
    fun _ hres => h _ _ _ (.failed hres))

/-- A respawn decision is taken on the record and logged. -/
theorem wp_respawnDecision {outcome : LoopOutcome} {status : ExitStatus}
    {lifetime : Duration} {Q : Post AutosshError RespawnDecision Sys}
    (h : ∀ decision sup, Decides s.sup status lifetime decision sup →
      Q.ret decision ({ s with sup := sup }.mark (.decided outcome status lifetime decision))) :
    host.wp Q (respawnDecision outcome status lifetime) s := by
  rw [respawnDecision, wp_this]
  dsimp only
  rw [wp_put, wp_trace]
  exact h _ _ (s.sup.handleChildExit_decides status lifetime)

/-- The backoff and the spawn after it. -/
private theorem wp_respawn {Q : Post AutosshError Unit Sys}
    (hret : ∀ a pid es t, s.Passes a →
      deadlineAfter s.world.target s.world.now s.sup.clock.gateTime ≤ a.world.now →
      a.world.spawnResult a.world.spawns = .ok pid →
      Emitted (a.afterSpawn a.sup.argv pid) [.childSpawned pid, .childRespawned] es t → Q.ret () t)
    (hfail : ∀ a e, s.Passes a →
      deadlineAfter s.world.target s.world.now s.sup.clock.gateTime ≤ a.world.now →
      a.world.spawnResult a.world.spawns = .error e →
      Q.fail (.io e) (a.afterFailedSpawn a.sup.argv e)) : host.wp Q respawn s := by
  rw [respawn, wp_this]
  refine wp_bind.mpr (wp_sleep fun a hpass hdue => ?_)
  exact wp_replace (fun pid es t => hret a pid es t hpass hdue) fun e => hfail a e hpass hdue

/-- The cap reached: the event, then the error. -/
private theorem wp_capped {outcome : LoopOutcome} {attempts : UInt32}
    (h : ∀ es out t, Settles s outcome (.exit (.maxStartReached attempts)) es out t → R out t) :
    host.wp (endsIn R)
      (do emit (.maxStartReached attempts); Prog.fail (.maxStartReached attempts)) s :=
  wp_bind.mpr (wp_emit fun _ _ hem => h _ _ _ (.capped hem))

/-- The arm of a child exit: its loss, the decision and what follows. -/
private theorem wp_onChildExited {status : ExitStatus} {lifetime : Duration}
    (h : ∀ es b decision sup fs out t, Emitted s [.childExited status] es b →
      Decides { b.sup with child := none } status lifetime decision sup →
      Settles ({ b with sup := sup }.mark
        (.decided (.childExited status lifetime) status lifetime decision))
        (.childExited status lifetime) decision fs out t → R out t) :
    host.wp (endsIn R) (onChildExited status lifetime) s := by
  rw [onChildExited]
  refine wp_bind.mpr (wp_emit fun es b hem => ?_)
  show host.wp (endsIn R) _ b
  rw [wp_modifySelf]
  refine wp_bind.mpr (wp_respawnDecision fun decision sup hdec => ?_)
  have h' := fun fs out t hset => h es b decision sup fs out t hem hdec hset
  cases hdec with
  | oneShot => exact h' _ _ _ (.oneShotExit (by simp))
  | finished => exact h' _ _ _ .finished
  | capped => exact wp_capped h'
  | _ =>
    refine wp_bind.mpr (wp_respawn (fun a pid es t hpass hdue hres hem => ?_) ?_)
    · exact wp_launched (fun _ _ _ hl => h' _ _ _ (.respawn hpass hdue hl)) hres hem
    · exact fun a e hpass hdue hres => h' _ _ _ (.respawn hpass hdue (.failed hres))

/-- The arm of a failed probe: the child is terminated, counted as a failure, and its
loss is settled. -/
private theorem wp_onProbeTimeout {next : Option Instant} {c : Child} {spawnedAt : Instant}
    (hc : s.sup.child = some c) (hspawned : s.sup.childSpawnInstant = some spawnedAt)
    (hmon : s.sup.monitor.isSome = true)
    (hfail : ∀ fs b gs t e, Emitted s [.probeTimeout] fs b → Terminates b c gs t →
      R (.fail (.io e)) t)
    (h : ∀ fs b gs d hs u real decision sup es out t, Emitted s [.probeTimeout] fs b →
      Terminates b c gs d → d.world.ExitedWith c real → Emitted d [.childExited real] hs u →
      Decides u.sup (makeFailedStatus u.world.target) (u.world.now - spawnedAt) decision sup →
      Settles ({ u with sup := sup }.mark (.decided .probeTimeout
        (makeFailedStatus u.world.target) (u.world.now - spawnedAt) decision)) .probeTimeout
        decision es out t → R out t) :
    host.wp (endsIn R) (onProbeTimeout next) s := by
  rw [onProbeTimeout]
  refine wp_bind.mpr (wp_emit fun fs b hem => ?_)
  have hcb : b.sup.child = some c := by rw [hem.logs.sup, hc]
  refine wp_bind.mpr (wp_terminateChild hcb (fun real gs d hterm hreal => ?_)
    fun e gs t hterm => hfail fs b gs t e hem hterm)
  refine wp_bind.mpr (wp_emit fun hs u hem' => ?_)
  have hsup : u.sup = { s.sup with child := none } := by
    rw [hem'.logs.sup, hterm.sup, hem.logs.sup]
  show host.wp (endsIn R) (childLifetime >>= _) u
  rw [wp_bind, childLifetime, wp_this, hsup]
  dsimp only
  rw [hspawned]
  dsimp only
  rw [wp_now]
  show host.wp (endsIn R) _ u
  rw [wp_target]
  refine wp_bind.mpr (wp_respawnDecision fun decision sup hdec => ?_)
  have h' := fun es out t hset =>
    h fs b gs d hs u real decision sup es out t hem hterm hreal hem' hdec hset
  have hmon' : sup.monitor.isSome = true := by
    have : sup.monitor = u.sup.monitor := by cases hdec <;> rfl
    rw [this, hsup, hmon]
  cases hdec with
  | oneShot => exact h' _ _ _ (.oneShotTimeout rfl)
  | finished hsucc => simp at hsucc
  | cleanReset hsucc => simp at hsucc
  | capped => exact wp_capped h'
  | _ =>
    refine wp_bind.mpr (wp_respawn (fun a pid es t hpass hdue hres hem => ?_) ?_)
    · refine wp_relaunched (fun _ _ _ hl => h' _ _ _ (.respawn hpass hdue hl)) hres hem ?_
      rw [hpass.sup]
      exact hmon'
    · exact fun a e hpass hdue hres => h' _ _ _ (.respawn hpass hdue (.failed hres))

/-- A renewing signal: the child is replaced at once. -/
private theorem wp_renew {c : Child} {announce : Future Unit}
    (hc : s.sup.child = some c)
    (hann : announce = (do let _ ← terminateChild.attempt; spawnChild; emit .childRespawned))
    (h : ∀ fs d gs out t, Terminates s c fs d → Launches d [.childRespawned] gs out t → R out t) :
    host.wp (endsIn R)
      (do announce; let next ← firstProbe; pure (.looping next)) s := by
  subst hann
  refine wp_bind.mpr (wp_bind.mpr (wp_terminateChild_attempt hc fun _ fs d hterm => ?_))
  have h' := fun gs out t hl => h fs d gs out t hterm hl
  exact wp_replace (fun pid es t hres hem => wp_launched h' hres hem)
    fun e hres => h' _ _ _ (.failed hres)

/-- The arm of a signal. -/
private theorem wp_onSignal {kind : SignalKind} {c : Child} (hc : s.sup.child = some c)
    (hstop : ∀ es b fs t, kind.stops = true → Emitted s [.signalReceived kind] es b →
      Terminates b c fs t → R (.ret .returned) t)
    (hrenew : ∀ es b fs d gs out t, kind.stops = false → Emitted s [.signalReceived kind] es b →
      Terminates { b with sup := b.sup.credit kind } c fs d →
      Launches d [.childRespawned] gs out t → R out t) :
    host.wp (endsIn R) (onSignal kind) s := by
  unfold onSignal
  refine wp_bind.mpr (wp_emit fun es b hem => ?_)
  have hcb : b.sup.child = some c := by rw [hem.logs.sup, hc]
  cases kind with
  | userDefined1 =>
    exact wp_renew hcb rfl fun fs d gs out t => hrenew es b fs d gs out t rfl hem
  | hangup =>
    show host.wp (endsIn R) (handleHupSignal >>= _) b
    rw [wp_bind, handleHupSignal, wp_modifySelf]
    refine wp_bind.mp (wp_renew (c := c) hcb rfl fun fs d gs out t => ?_)
    exact hrenew es b fs d gs out t rfl hem
  | _ =>
    refine wp_bind.mpr (wp_bind.mpr (wp_terminateChild_attempt hcb fun _ fs t hterm => ?_))
    exact hstop es b fs t rfl hem hterm

/-- The return through the lifetime check. -/
private theorem wp_onExpired {c : Child} (hc : s.sup.child = some c)
    (h : ∀ es b fs t, Emitted (s.mark .expired) [.maxLifetimeReached] es b →
      Terminates b c fs t → R (.ret .returned) t) : host.wp (endsIn R) onExpired s := by
  rw [onExpired, wp_trace]
  refine wp_bind.mpr (wp_emit fun es b hem => ?_)
  have hcb : b.sup.child = some c := by rw [hem.logs.sup]; exact hc
  exact wp_bind.mpr (wp_terminateChild_attempt hcb fun _ fs t hterm => h es b fs t hem hterm)

end Arms

/-- A tick leaves the record as it found it. -/
theorem Ticks.logs {s t : Sys} {next next' : Option Instant} {c : Child} {es : List Entry}
    {outcome : LoopOutcome} (h : Ticks s next c es outcome next' t) : s.Logs es t := by
  cases h with
  | exited hpass => exact hpass
  | probed hpass _ _ _ hprobes => exact hpass.trans hprobes.logs
  | signal hpass hpass' => exact hpass.trans hpass'

/-- The arm of a tick's outcome, at the top of the loop. -/
private theorem wp_onOutcome {s a : Sys} {next next' : Option Instant} {c : Child}
    {es : List Entry} {outcome : LoopOutcome} (htop : LoopTop s next c) (hexp : ¬ s.Expired)
    (hticks : Ticks s next c es outcome next' a) {R : End AutosshError Flow → Sys → Prop}
    (h : ∀ es out t, Turn s next c es out t → R out t) :
    host.wp (endsIn R) (onOutcome next' outcome) (a.mark (.ticked outcome)) := by
  have hsup : (a.mark (.ticked outcome)).sup = s.sup := hticks.logs.sup
  have hc : (a.mark (.ticked outcome)).sup.child = some c := by rw [hsup, htop.child]
  cases outcome with
  | probeOk => exact h _ _ _ (.probeOk hexp hticks)
  | childExited status lifetime =>
    cases hticks with
    | exited hpass hex hspawned =>
      refine wp_onChildExited fun fs b decision sup gs out t hem hdec hset => ?_
      exact h _ _ _ (.lost hexp (.exited (.exited hpass hex hspawned) hem) hdec hset)
    | probed _ _ _ _ _ _ hout => split at hout <;> cases hout
  | probeTimeout =>
    obtain ⟨p, -, hspawned⟩ := htop.spawned
    have hmon : (a.mark (.ticked .probeTimeout)).sup.monitor.isSome = true := by
      rw [hsup]
      cases hticks with
      | probed _ _ _ hm => rw [hm]; rfl
    refine wp_onProbeTimeout hc (by rw [hsup, hspawned]) hmon ?_ ?_
    · exact fun fs b gs t e hem hterm => h _ _ _ (.terminateFailed hexp hticks hem hterm)
    · intro fs b gs d hs u real decision sup es' out t hem hterm hreal hem' hdec hset
      exact h _ _ _ (.lost hexp (.timedOut hticks hem hterm hreal hem' hspawned) hdec hset)
  | signal kind =>
    have hes : es = [] ∧ next' = next := by
      cases hticks with
      | signal => exact ⟨rfl, rfl⟩
      | probed _ _ _ _ _ _ hout => split at hout <;> cases hout
    obtain ⟨rfl, rfl⟩ := hes
    refine wp_onSignal hc ?_ ?_
    · exact fun fs b gs t hk hem hterm => h _ _ _ (.stopped hexp hticks hk hem hterm)
    · exact fun fs b gs d hs out t hk hem hterm hl =>
        h _ _ _ (.renewed hexp hticks hk hem hterm hl)

/-- A turn begun at the top of the loop ends in one of the ways listed. -/
theorem wp_turn {s : Sys} {next : Option Instant} {c : Child} (htop : LoopTop s next c)
    {R : End AutosshError Flow → Sys → Prop} (h : ∀ es out t, Turn s next c es out t → R out t) :
    host.wp (endsIn R) (turn next) s := by
  rw [turn, wp_this, wp_now]
  split
  · rename_i hexp
    exact wp_onExpired htop.child fun es b fs t hem hterm => h _ _ _ (.expired hexp hem hterm)
  · rename_i hexp
    have hexp : ¬ s.Expired := hexp
    refine wp_bind.mpr (wp_selectOneTick htop (fun es outcome next' t hticks => ?_) ?_ ?_)
    · show host.wp (endsIn R) _ t
      dsimp only
      rw [wp_trace]
      exact wp_onOutcome htop hexp hticks h
    · intro es e t hfails
      cases hfails with
      | wait hpass hterm => exact h _ _ _ (.waitFailed hexp hpass hterm)
    · exact fun es t hfails => h _ _ _ (.probeOverflow hexp hfails)

end RustyAutossh
