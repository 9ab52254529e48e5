import RustyAutossh.Host.Answers
import RustyAutossh.Loop.Code

/-!
# The functions of the loop, one specification each

Each function is described by the lines it logs and the state it leaves, over
every finished execution. A rule `wp_f` says that a postcondition holds of `f` if
it holds of every result so described; callers use the rule and never unfold `f`.
-/

namespace RustyAutossh

open Async Runtime

variable {α : Type} {s : Sys}

section Ready

variable {Q : Post AutosshError α Sys}

theorem wp_now {k : Op.now.Answer → Future α} :
    host.wp Q (await .now >>= k) s ↔ host.wp Q (k s.world.now) s :=
  wp_call_of_ready rfl

theorem wp_target {k : Op.target.Answer → Future α} :
    host.wp Q (await .target >>= k) s ↔ host.wp Q (k s.world.target) s :=
  wp_call_of_ready rfl

theorem wp_wallClock {k : Op.wallClock.Answer → Future α} :
    host.wp Q (await .wallClock >>= k) s ↔ host.wp Q (k s.world.wallClock) s :=
  wp_call_of_ready rfl

theorem wp_this {k : Op.this.Answer → Future α} :
    host.wp Q (await .this >>= k) s ↔ host.wp Q (k s.sup) s :=
  wp_call_of_ready rfl

theorem wp_put {self : Supervisor} {k : (Op.put self).Answer → Future α} :
    host.wp Q (await (.put self) >>= k) s ↔ host.wp Q (k ()) { s with sup := self } :=
  wp_call_of_ready rfl

theorem wp_childId {c : Child} {k : (Op.childId c).Answer → Future α} :
    host.wp Q (await (.childId c) >>= k) s ↔ host.wp Q (k (s.world.childId c)) s :=
  wp_call_of_ready rfl

theorem wp_modifySelf {f : Supervisor → Supervisor} {k : Unit → Future α} :
    host.wp Q (modifySelf f >>= k) s ↔ host.wp Q (k ()) { s with sup := f s.sup } := by
  rw [wp_bind, modifySelf, wp_this]
  exact wp_call_of_ready rfl

end Ready

/-- The state after a point of the loop has been logged. -/
def Sys.mark (s : Sys) (m : Mark) : Sys := { s with world := s.world.log (.passed m) }

/-- The line that logs a point of the loop. -/
def Sys.line (s : Sys) (act : Act) : Entry := ⟨s.world.now, s.world.alive, act⟩

@[simp] theorem Sys.mark_sup (m : Mark) : (s.mark m).sup = s.sup := rfl

@[simp] theorem Sys.line_act (act : Act) : (s.line act).act = act := rfl

@[simp] theorem Sys.line_time (act : Act) : (s.line act).time = s.world.now := rfl

theorem Sys.logs_mark (s : Sys) (m : Mark) : s.Logs [s.line (.passed m)] (s.mark m) :=
  ⟨s.world.logs_log _, rfl⟩

theorem wp_trace {m : Mark} {k : (Op.trace m).Answer → Future α} {Q : Post AutosshError α Sys} :
    host.wp Q (await (.trace m) >>= k) s ↔ host.wp Q (k ()) (s.mark m) :=
  wp_call_of_ready rfl

/-- A stretch that emits the given events in order, all of them while the receiver lives. -/
structure Emitted (s : Sys) (evs : List SupervisorEvent) (es : List Entry) (t : Sys) : Prop where
  logs : s.Logs es t
  acts : (es.map (·.act)).Sublist (evs.map .emitted)
  all : s.sup.eventTx ≠ none → t.world.inboxOpen = true → es.map (·.act) = evs.map .emitted

theorem Emitted.append {t u : Sys} {evs evs' : List SupervisorEvent} {es fs : List Entry}
    (h : Emitted s evs es t) (h' : Emitted t evs' fs u) :
    Emitted s (evs ++ evs') (es ++ fs) u where
  logs := h.logs.trans h'.logs
  acts := by
    rw [List.map_append, List.map_append]
    exact h.acts.append h'.acts
  all htx hopen := by
    rw [List.map_append, List.map_append, h.all htx (h'.logs.world.inboxOpen hopen),
      h'.all (h.logs.sup ▸ htx) hopen]

/-- `emit` logs its event, or nothing without a live receiver. -/
theorem wp_emit {ev : SupervisorEvent} {Q : Post AutosshError Unit Sys}
    (h : ∀ es t, Emitted s [ev] es t → Q.ret () t) : host.wp Q (emit ev) s := by
  rw [emit, wp_this]
  cases htx : s.sup.eventTx with
  | none => exact h [] s ⟨.refl s, by simp, fun hne => absurd htx hne⟩
  | some tx =>
    intro r t hans
    rcases answers_send hans with ⟨hpass, hclosed⟩ | ⟨e, hact, hlogs⟩
    · exact h [] t ⟨hpass, by simp, fun _ hopen => by simp [hclosed] at hopen⟩
    · exact h [e] t ⟨hlogs, by simp [hact], fun _ _ => by simp [hact]⟩

/-- `sleep` ends at or after its deadline. -/
theorem wp_sleep {d : Duration} {Q : Post AutosshError Unit Sys}
    (h : ∀ t, s.Passes t → deadlineAfter s.world.target s.world.now d ≤ t.world.now →
      Q.ret () t) : host.wp Q (sleep d) s := by
  rw [sleep, wp_now, wp_target]
  intro r t hans
  obtain ⟨hpass, hdue⟩ := answers_sleepUntil hans
  exact h t hpass hdue

/-- A sum with the current time, unless the platform cannot hold it. -/
theorem wp_nowPlus {d : Duration} {Q : Post AutosshError Instant Sys}
    (hret : ∀ t, Instant.checkedAdd s.world.target s.world.now d = some t → Q.ret t s)
    (habort : Instant.checkedAdd s.world.target s.world.now d = none → Q.abort s) :
    host.wp Q (nowPlus d) s := by
  rw [nowPlus, wp_now, wp_target]
  split
  · rename_i t ht
    exact hret t ht
  · rename_i hnone
    exact habort hnone

/-- The first probe after a spawn: `none` when its instant cannot be held. -/
def Sys.firstProbe (s : Sys) : Option (Option Instant) :=
  if s.sup.monitor.isSome then
    (Instant.checkedAdd s.world.target s.world.now s.sup.clock.firstPoll).map some
  else some none

theorem wp_firstProbe {Q : Post AutosshError (Option Instant) Sys}
    (hret : ∀ next, s.firstProbe = some next → Q.ret next s)
    (habort : s.firstProbe = none → Q.abort s) : host.wp Q firstProbe s := by
  rw [firstProbe, wp_this]
  split
  · rename_i hm
    refine wp_bind.mpr (wp_nowPlus (fun t ht => ?_) fun hnone => ?_)
    · exact hret (some t) (by simp [Sys.firstProbe, hm, ht])
    · exact habort (by simp [Sys.firstProbe, hm, hnone])
  · rename_i hm
    exact hret none (by simp [Sys.firstProbe, hm])

/-- The state after the given spawn has failed. -/
def Sys.afterFailedSpawn (s : Sys) (args : List String) (e : IoError) : Sys :=
  { s with world :=
      { s.world.log (.spawned s.sup.sshPath args (.error e)) with spawns := s.world.spawns + 1 } }

/-- The state right after the given spawn has succeeded. -/
def Sys.spawnedState (s : Sys) (args : List String) (pid : UInt32) : Sys :=
  { s with world :=
      { s.world.log (.spawned s.sup.sshPath args (.ok pid)) with
        spawns := s.world.spawns + 1
        procs := s.world.procs ++ [{ pid := pid, spawnedAt := s.world.now }] } }

/-- The state after the given spawn has succeeded and its child has been stored. -/
def Sys.afterSpawn (s : Sys) (args : List String) (pid : UInt32) : Sys :=
  { s.spawnedState args pid with sup := { s.sup with
      child := some ⟨s.world.procs.length⟩
      childSpawnInstant := some s.world.now } }

/-- The arguments `spawn_child` gives to ssh. -/
def Supervisor.argv (self : Supervisor) : List String :=
  injectMonitorForwards self.monitorMode self.sshArgs

/-- `spawn_ssh` is a system call whose error `?` passes on. -/
theorem wp_spawnSsh {args : List String} {Q : Post AutosshError Child Sys}
    (hret : ∀ pid, s.world.spawnResult s.world.spawns = .ok pid →
      Q.ret ⟨s.world.procs.length⟩ (s.spawnedState args pid))
    (hfail : ∀ e, s.world.spawnResult s.world.spawns = .error e →
      Q.fail (.io e) (s.afterFailedSpawn args e)) : host.wp Q (spawnSsh s.sup.sshPath args) s := by
  rw [spawnSsh]
  refine (wp_call_of_ready rfl).mpr ?_
  cases hres : s.world.spawnResult s.world.spawns with
  | error e =>
    have hs : s.world.spawn s.sup.sshPath args =
        (.error e, (s.afterFailedSpawn args e).world) := by
      simp [World.spawn, hres, Sys.afterFailedSpawn]
    rw [hs]
    exact hfail e hres
  | ok pid =>
    have hs : s.world.spawn s.sup.sshPath args =
        (.ok ⟨s.world.procs.length⟩, (s.spawnedState args pid).world) := by
      simp [World.spawn, hres, Sys.spawnedState]
    rw [hs]
    exact hret pid hres

/-- `spawn_child` stores the new child and announces it, or fails as the spawn did. -/
theorem wp_spawnChild {Q : Post AutosshError Unit Sys}
    (hret : ∀ pid es t, s.world.spawnResult s.world.spawns = .ok pid →
      Emitted (s.afterSpawn s.sup.argv pid) [.childSpawned pid] es t → Q.ret () t)
    (hfail : ∀ e, s.world.spawnResult s.world.spawns = .error e →
      Q.fail (.io e) (s.afterFailedSpawn s.sup.argv e)) : host.wp Q spawnChild s := by
  rw [spawnChild, wp_this]
  refine wp_bind.mpr (wp_spawnSsh (fun pid hres => ?_) hfail)
  have hid : (s.spawnedState s.sup.argv pid).world.childId ⟨s.world.procs.length⟩ = some pid := by
    simp [Sys.spawnedState, World.childId]
  show host.wp Q _ (s.spawnedState s.sup.argv pid)
  rw [wp_childId, hid, wp_modifySelf, wp_now, wp_modifySelf]
  exact wp_emit fun es t hem => hret pid es t hres hem

/-- A stretch that takes the child out of the record, signals it and sees it terminated. -/
structure Terminates (s : Sys) (c : Child) (es : List Entry) (t : Sys) : Prop where
  world : s.world.Logs es t.world
  sup : t.sup = { s.sup with child := none }
  kills : ∀ e ∈ es, ∃ forced, e.act = .killed c forced
  terminated : t.world.Terminated c

/-- A stretch that only signals a child. -/
structure Kills (s : Sys) (c : Child) (es : List Entry) (t : Sys) : Prop where
  logs : s.Logs es t
  kills : ∀ e ∈ es, ∃ forced, e.act = .killed c forced

private theorem Kills.append {c : Child} {t u : Sys} {es fs : List Entry} (h : Kills s c es t)
    (h' : Kills t c fs u) : Kills s c (es ++ fs) u where
  logs := h.logs.trans h'.logs
  kills e he := by
    rcases List.mem_append.mp he with he | he
    · exact h.kills e he
    · exact h'.kills e he

private theorem Kills.passes {c : Child} {t u : Sys} {es : List Entry} (h : Kills s c es t)
    (h' : t.Passes u) : Kills s c es u :=
  ⟨h.logs.passes h', h.kills⟩

/-- `wait` on a child answers once it has terminated. -/
private theorem wp_wait {c : Child} {Q : Post AutosshError (Except IoError ExitStatus) Sys}
    (h : ∀ r t, s.Passes t → t.world.Terminated c →
      (∀ status, r = .ok status → t.world.ExitedWith c status) → Q.ret r t) :
    host.wp Q (await (.wait c)) s := fun r t hans =>
  have ⟨hpass, hterm, hstatus⟩ := answers_wait hans
  h r t hpass hterm hstatus

/-- `Child::kill` signals the child and may wait for it. -/
theorem wp_kill {c : Child} {Q : Post AutosshError (Except IoError Unit) Sys}
    (h : ∀ r es t, Kills s c es t → Q.ret r t) : host.wp Q c.kill s := by
  rw [Child.kill]
  refine (wp_call_of_ready rfl).mpr ?_
  have hlogs : s.Logs [s.line (.killed c true)] { s with world := (s.world.startKill c).2 } := by
    refine ⟨?_, rfl⟩
    simp only [World.startKill]
    split <;> exact (s.world.logs_log _).trans (.same rfl rfl rfl rfl rfl rfl id)
  have hkills : Kills s c [s.line (.killed c true)]
      { s with world := (s.world.startKill c).2 } :=
    ⟨hlogs, fun e he => ⟨true, by rw [List.mem_singleton.mp he]; rfl⟩⟩
  cases (s.world.startKill c).1 with
  | error e => exact h _ _ _ hkills
  | ok u =>
    show host.wp Q (await (.wait c) >>= _) _
    refine wp_bind.mpr (wp_wait fun r t hpass _ _ => ?_)
    cases r with
    | error e => exact h _ _ _ (hkills.passes hpass)
    | ok status => exact h _ _ _ (hkills.passes hpass)

/-- The wait that ends both branches of `terminate_child`. -/
private theorem wp_collect {c : Child} {Q : Post AutosshError (Option ExitStatus) Sys}
    (hret : ∀ status t, s.Passes t → t.world.ExitedWith c status → Q.ret (some status) t)
    (hfail : ∀ e t, s.Passes t → t.world.Terminated c → Q.fail (.io e) t) :
    host.wp Q (do let status ← liftIo (← await (.wait c)); pure (some status)) s := by
  refine wp_bind.mpr (wp_wait fun r t hpass hterm hstatus => ?_)
  cases r with
  | error e => exact hfail e t hpass hterm
  | ok status => exact hret status t hpass (hstatus status rfl)

section Terminate

variable {c : Child} {Q : Post AutosshError (Option ExitStatus) Sys}

private theorem wp_terminateWindows
    (hret : ∀ status es t, Kills s c es t → t.world.ExitedWith c status → Q.ret (some status) t)
    (hfail : ∀ e es t, Kills s c es t → t.world.Terminated c → Q.fail (.io e) t) :
    host.wp Q (terminateWindows c) s := by
  rw [terminateWindows]
  refine wp_bind.mpr (wp_kill fun _ es t hk => ?_)
  exact wp_collect (fun status u hpass hex => hret status es u (hk.passes hpass) hex)
    fun e u hpass hterm => hfail e es u (hk.passes hpass) hterm

/-- SIGTERM to a child that has not been reaped is logged. -/
theorem wp_sigterm {Q : Post AutosshError Unit Sys}
    (h : ∀ es t, Kills s c es t → Q.ret () t) : host.wp Q c.sigterm s := by
  rw [Child.sigterm, wp_childId]
  split
  · have hlogs : s.Logs [s.line (.killed c false)]
        { s with world := s.world.log (.killed c false) } := ⟨s.world.logs_log _, rfl⟩
    intro r t hans
    obtain ⟨-, rfl⟩ := (answers_of_ready (by rfl)).mp hans
    exact h _ _ ⟨hlogs, fun e he => ⟨false, by rw [List.mem_singleton.mp he]; rfl⟩⟩
  · exact h [] s ⟨.refl s, by simp⟩

private theorem wp_terminateUnix
    (hret : ∀ status es t, Kills s c es t → t.world.ExitedWith c status → Q.ret (some status) t)
    (hfail : ∀ e es t, Kills s c es t → t.world.Terminated c → Q.fail (.io e) t) :
    host.wp Q (terminateUnix c) s := by
  rw [terminateUnix]
  refine wp_bind.mpr (wp_sigterm fun es t hk => ?_)
  show host.wp Q _ t
  rw [wp_now, wp_target]
  intro r u hans
  obtain ⟨hpass, -, hterm, hstatus⟩ := answers_waitTimeout hans
  have hk' := hk.passes hpass
  match r with
  | some (.ok status) => exact hret status es u hk' (hstatus status rfl)
  | some (.error e) => exact hfail e es u hk' (hterm (Option.some_ne_none _))
  | none =>
    show host.wp Q (c.kill >>= _) u
    refine wp_bind.mpr (wp_kill fun _ fs v hk'' => ?_)
    exact wp_collect
      (fun status w hp hex => hret status _ w ((hk'.append hk'').passes hp) hex)
      fun e w hp ht => hfail e _ w ((hk'.append hk'').passes hp) ht

/-- `terminate_child` on a live record ends with the child terminated, whether it
returns its status or fails to collect it. -/
theorem wp_terminateChild (hc : s.sup.child = some c)
    (hret : ∀ status es t, Terminates s c es t → t.world.ExitedWith c status →
      Q.ret (some status) t)
    (hfail : ∀ e es t, Terminates s c es t → Q.fail (.io e) t) :
    host.wp Q terminateChild s := by
  have hlift : ∀ {es t}, Kills { s with sup := { s.sup with child := none } } c es t →
      t.world.Terminated c → Terminates s c es t := fun hk hterm =>
    ⟨hk.logs.world, hk.logs.sup, hk.kills, hterm⟩
  rw [terminateChild, wp_this, hc]
  dsimp only
  rw [wp_modifySelf, wp_target]
  split
  · exact wp_terminateUnix
      (fun status es t hk hex => hret status es t (hlift hk hex.terminated) hex)
      fun e es t hk hterm => hfail e es t (hlift hk hterm)
  · exact wp_terminateWindows
      (fun status es t hk hex => hret status es t (hlift hk hex.terminated) hex)
      fun e es t hk hterm => hfail e es t (hlift hk hterm)

end Terminate

/-- `let _ = self.terminate_child().await` ends with the child terminated. -/
theorem wp_terminateChild_attempt {c : Child}
    {Q : Post AutosshError (Except AutosshError (Option ExitStatus)) Sys}
    (hc : s.sup.child = some c) (h : ∀ r es t, Terminates s c es t → Q.ret r t) :
    host.wp Q terminateChild.attempt s :=
  wp_attempt.mpr
    (wp_terminateChild hc (fun _ es t ht _ => h _ es t ht) fun _ es t ht => h _ es t ht)

end RustyAutossh
