import RustyAutossh.Loop.Growth

/-!
# The events of a turn

While somebody receives, the events a turn logs are a word of a small language, which the
points passed and the end of the turn determine.
-/

namespace RustyAutossh

open Async Runtime

/-- The event an action emits, if it emits one. -/
def Act.event : Act → Option SupervisorEvent
  | .emitted ev => some ev
  | _ => none

/-- The events emitted in a stretch. -/
def events (es : List Entry) : List SupervisorEvent := es.filterMap (·.act.event)

@[simp] theorem events_nil : events [] = [] := rfl

@[simp] theorem events_append (es fs : List Entry) :
    events (es ++ fs) = events es ++ events fs :=
  List.filterMap_append ..

@[simp] theorem events_passed_cons (s : Sys) (m : Mark) (es : List Entry) :
    events (s.line (.passed m) :: es) = events es := rfl

@[simp] theorem events_spawned_cons (s : Sys) (path : PathBuf) (args : List String)
    (result : Except IoError UInt32) (es : List Entry) :
    events (s.line (.spawned path args result) :: es) = events es := rfl

/-- A stretch that everything it emits is heard in emits all its events. -/
theorem Emitted.events_eq {s t : Sys} {evs : List SupervisorEvent} {es : List Entry}
    (h : Emitted s evs es t) (htx : s.sup.eventTx ≠ none) (hopen : t.world.inboxOpen = true) :
    events es = evs := by
  have hacts : events es = (es.map (·.act)).filterMap Act.event := by
    rw [List.filterMap_map]
    rfl
  rw [hacts, h.all htx hopen, List.filterMap_map]
  exact List.filterMap_some

@[simp] theorem Terminates.events_eq {s t : Sys} {c : Child} {es : List Entry}
    (h : Terminates s c es t) : events es = [] := by
  rw [events, List.filterMap_eq_nil_iff]
  intro e he
  obtain ⟨forced, hact⟩ := h.kills e he
  rw [hact]
  rfl

@[simp] theorem Ticks.events_eq {s t : Sys} {next next' : Option Instant} {c : Child}
    {es : List Entry} {outcome : LoopOutcome} (h : Ticks s next c es outcome next' t) :
    events es = [] := by
  cases h <;> rfl

/-- Whether an event announces a child. -/
def SupervisorEvent.isSpawned : SupervisorEvent → Bool
  | .childSpawned _ => true
  | _ => false

/-- The number of children announced. -/
def announced (evs : List SupervisorEvent) : Nat := evs.countP (·.isSpawned)

@[simp] theorem announced_append (evs evs' : List SupervisorEvent) :
    announced (evs ++ evs') = announced evs + announced evs' :=
  List.countP_append

/-- A stretch in which, while somebody receives, every child spawned is announced. -/
structure Sys.Heard (s : Sys) (es : List Entry) (t : Sys) : Prop where
  eventTx : t.sup.eventTx = s.sup.eventTx
  inboxOpen : t.world.inboxOpen = true → s.world.inboxOpen = true
  length : s.sup.eventTx ≠ none → t.world.inboxOpen = true →
    t.world.procs.length = s.world.procs.length + announced (events es)

theorem Sys.Heard.trans {s t u : Sys} {es fs : List Entry} (h : s.Heard es t)
    (h' : t.Heard fs u) : s.Heard (es ++ fs) u where
  eventTx := h'.eventTx.trans h.eventTx
  inboxOpen hopen := h.inboxOpen (h'.inboxOpen hopen)
  length htx hopen := by
    rw [h'.length (h.eventTx ▸ htx) hopen, h.length htx (h'.inboxOpen hopen), events_append,
      announced_append, Nat.add_assoc]

/-- A stretch that spawns nothing and announces nothing. -/
theorem World.Logs.heard {s t : Sys} {es : List Entry} (h : s.world.Logs es t.world)
    (htx : t.sup.eventTx = s.sup.eventTx) (hes : announced (events es) = 0) : s.Heard es t :=
  ⟨htx, h.inboxOpen, fun _ _ => by rw [h.length, hes, Nat.add_zero]⟩

theorem Sys.Passes.heard {s t : Sys} (h : s.Passes t) : s.Heard [] t :=
  h.world.heard (by rw [h.sup]) rfl

theorem Sys.heard_mark (s : Sys) (m : Mark) : s.Heard [s.line (.passed m)] (s.mark m) :=
  (s.logs_mark m).world.heard rfl rfl

theorem Emitted.heard {s t : Sys} {evs : List SupervisorEvent} {es : List Entry}
    (h : Emitted s evs es t) (hevs : announced evs = 0) : s.Heard es t where
  eventTx := by rw [h.logs.sup]
  inboxOpen := h.logs.world.inboxOpen
  length htx hopen := by rw [h.logs.world.length, h.events_eq htx hopen, hevs, Nat.add_zero]

theorem Terminates.heard {s t : Sys} {c : Child} {es : List Entry} (h : Terminates s c es t) :
    s.Heard es t :=
  h.world.heard (by rw [h.sup]) (by rw [h.events_eq]; rfl)

theorem Ticks.heard {s t : Sys} {next next' : Option Instant} {c : Child} {es : List Entry}
    {outcome : LoopOutcome} (h : Ticks s next c es outcome next' t) : s.Heard es t :=
  h.logs.world.heard (by rw [h.logs.sup]) (by rw [h.events_eq]; rfl)

/-- A spawn and its announcement. -/
private theorem Emitted.heard_spawn {s t : Sys} {pid : UInt32} {after : List SupervisorEvent}
    {es : List Entry}
    (h : Emitted (s.afterSpawn s.sup.argv pid) (.childSpawned pid :: after) es t)
    (hafter : announced after = 0) :
    s.Heard (s.line (.spawned s.sup.sshPath s.sup.argv (.ok pid)) :: es) t where
  eventTx := by rw [h.logs.sup]; rfl
  inboxOpen := h.logs.world.inboxOpen
  length htx hopen := by
    have hcount : announced (.childSpawned pid :: after) = announced after + 1 :=
      List.countP_cons_of_pos rfl
    rw [h.logs.world.length, events_spawned_cons, h.events_eq htx hopen, hcount, hafter]
    simp [Sys.afterSpawn, Sys.spawnedState]

theorem Launches.heard {s t : Sys} {after : List SupervisorEvent} {es : List Entry}
    {out : End AutosshError Flow} (h : Launches s after es out t) (hafter : announced after = 0) :
    s.Heard es t := by
  cases h with
  | failed => exact ⟨rfl, id, fun _ _ => rfl⟩
  | looping _ hem => exact hem.heard_spawn hafter
  | overflow _ hem => exact hem.heard_spawn hafter

theorem Lost.heard {s t : Sys} {next : Option Instant} {c : Child} {es : List Entry}
    {outcome : LoopOutcome} {status : ExitStatus} {lifetime : Duration}
    (h : Lost s next c es outcome status lifetime t) : s.Heard es t := by
  cases h with
  | exited hticks hem =>
    have hb := hticks.heard.trans ((Sys.heard_mark _ _).trans (hem.heard rfl))
    exact ⟨hb.eventTx, hb.inboxOpen, hb.length⟩
  | timedOut hticks hem hterm _ hem' =>
    exact hticks.heard.trans ((Sys.heard_mark _ _).trans
      (((hem.heard rfl).trans hterm.heard).trans (hem'.heard rfl)))

theorem Settles.heard {s t : Sys} {outcome : LoopOutcome} {decision : RespawnDecision}
    {es : List Entry} {out : End AutosshError Flow} (h : Settles s outcome decision es out t) :
    s.Heard es t := by
  cases h with
  | respawn hpass _ hl => exact hpass.heard.trans (hl.heard rfl)
  | capped hem => exact hem.heard rfl
  | _ => exact (World.Logs.refl s.world).heard rfl rfl

/-- A turn announces the children it spawns while somebody receives. -/
theorem Turn.heard {s t : Sys} {next : Option Instant} {c : Child} {es : List Entry}
    {out : End AutosshError Flow} (h : Turn s next c es out t) : s.Heard es t := by
  cases h with
  | expired _ hem hterm => exact (Sys.heard_mark _ _).trans ((hem.heard rfl).trans hterm.heard)
  | waitFailed _ hpass => exact hpass.heard
  | probeOverflow _ hfails =>
    cases hfails with
    | overflow hpass _ _ _ hprobes =>
      have hlogs := hpass.trans hprobes.logs
      exact hlogs.world.heard (by rw [hlogs.sup]) rfl
  | probeOk _ hticks => exact hticks.heard.trans (Sys.heard_mark _ _)
  | terminateFailed _ hticks hem hterm =>
    exact hticks.heard.trans ((Sys.heard_mark _ _).trans ((hem.heard rfl).trans hterm.heard))
  | @lost es fs outcome status lifetime a t decision sup out _ hlost hdec hset =>
    have hevents := (Supervisor.agrees_of_config hdec.config).eventTx
    have hmark : a.Heard [a.line (.passed (.decided outcome status lifetime decision))]
        ({ a with sup := sup }.mark (.decided outcome status lifetime decision)) :=
      (a.world.logs_log _).heard hevents rfl
    exact hlost.heard.trans (hmark.trans hset.heard)
  | stopped _ hticks _ hem hterm =>
    exact hticks.heard.trans ((Sys.heard_mark _ _).trans ((hem.heard rfl).trans hterm.heard))
  | @renewed kind es fs gs a b d t out _ hticks _ hem hterm hl =>
    have hcredit : b.Heard fs d :=
      ⟨hterm.heard.eventTx.trans (by cases kind <;> rfl), hterm.heard.inboxOpen,
        fun htx => hterm.heard.length (by cases kind <;> exact htx)⟩
    exact hticks.heard.trans ((Sys.heard_mark _ _).trans
      (((hem.heard rfl).trans hcredit).trans (hl.heard rfl)))

/-- The events of a launch: none if the spawn fails, else those announced. -/
inductive LaunchWord (announced : List SupervisorEvent) :
    End AutosshError Flow → List SupervisorEvent → Prop
  | failed {e : IoError} : LaunchWord announced (.fail (.io e)) []
  | spawned {pid : UInt32} {out : End AutosshError Flow} : ¬ IsClosed out →
      LaunchWord announced out (.childSpawned pid :: announced)

/-- The events after a respawn decision. -/
inductive SettleWord (oneShot : Bool) : End AutosshError Flow → List SupervisorEvent → Prop
  | launched {out : End AutosshError Flow} {word : List SupervisorEvent} :
      LaunchWord [.childRespawned] out word → SettleWord oneShot out word
  | finished : SettleWord oneShot (.ret .returned) []
  | capped {attempts : UInt32} : oneShot = false →
      SettleWord oneShot (.fail (.maxStartReached attempts)) [.maxStartReached attempts]
  | oneShot : oneShot = true → SettleWord oneShot (.fail (.maxStartReached 1)) []

/-- The events of a turn, beside the points it has passed; `exited` says which status the
child of the turn has exited with. -/
inductive TurnWord (oneShot : Bool) (exited : ExitStatus → Prop) :
    List Mark → End AutosshError Flow → List SupervisorEvent → Prop
  | expired : TurnWord oneShot exited [.expired] (.ret .returned) [.maxLifetimeReached]
  | waitFailed {e : IoError} : TurnWord oneShot exited [] (.fail (.io e)) []
  | probeOverflow : TurnWord oneShot exited [] .abort []
  | probeOk {next : Option Instant} :
      TurnWord oneShot exited [.ticked .probeOk] (.ret (.looping next)) []
  | terminateFailed {e : IoError} :
      TurnWord oneShot exited [.ticked .probeTimeout] (.fail (.io e)) [.probeTimeout]
  | exited {status status' : ExitStatus} {lifetime lifetime' : Duration}
      {decision : RespawnDecision} {out : End AutosshError Flow} {word : List SupervisorEvent} :
      exited status → SettleWord oneShot out word →
      TurnWord oneShot exited [.ticked (.childExited status lifetime),
        .decided (.childExited status lifetime) status' lifetime' decision] out
        (.childExited status :: word)
  | timedOut {status status' : ExitStatus} {lifetime : Duration} {decision : RespawnDecision}
      {out : End AutosshError Flow} {word : List SupervisorEvent} :
      exited status → SettleWord oneShot out word →
      TurnWord oneShot exited [.ticked .probeTimeout,
        .decided .probeTimeout status' lifetime decision] out
        (.probeTimeout :: .childExited status :: word)
  | stopped {kind : SignalKind} :
      TurnWord oneShot exited [.ticked (.signal kind)] (.ret .returned) [.signalReceived kind]
  | renewed {kind : SignalKind} {out : End AutosshError Flow} {word : List SupervisorEvent} :
      LaunchWord [.childRespawned] out word →
      TurnWord oneShot exited [.ticked (.signal kind)] out (.signalReceived kind :: word)

theorem Launches.word {s t : Sys} {announced : List SupervisorEvent} {es : List Entry}
    {out : End AutosshError Flow} (h : Launches s announced es out t)
    (htx : s.sup.eventTx ≠ none) (hopen : t.world.inboxOpen = true) :
    LaunchWord announced out (events es) := by
  cases h with
  | failed => exact .failed
  | looping _ hem =>
    rw [events_spawned_cons, hem.events_eq htx hopen]
    exact .spawned id
  | overflow _ hem =>
    rw [events_spawned_cons, hem.events_eq htx hopen]
    exact .spawned id

theorem Settles.word {s t : Sys} {outcome : LoopOutcome} {decision : RespawnDecision}
    {es : List Entry} {out : End AutosshError Flow} (h : Settles s outcome decision es out t)
    {self sup : Supervisor} {status : ExitStatus} {lifetime : Duration}
    (hdec : Decides self status lifetime decision sup) (htx : s.sup.eventTx ≠ none)
    (hopen : t.world.inboxOpen = true) : SettleWord self.oneShot out (events es) := by
  cases h with
  | respawn hpass _ hl =>
    rw [← hpass.sup] at htx
    exact .launched (hl.word htx hopen)
  | finished => exact .finished
  | capped hem =>
    rw [hem.events_eq htx hopen]
    cases hdec with
    | capped _ hone => exact .capped hone
  | oneShotExit =>
    cases hdec with
    | oneShot hone => exact .oneShot hone
  | oneShotTimeout => exact .finished

/-- The events of a loss: the exit of the child, after the timeout if a probe failed. -/
theorem Lost.word {s t : Sys} {next : Option Instant} {c : Child} {es : List Entry}
    {outcome : LoopOutcome} {status : ExitStatus} {lifetime : Duration}
    (h : Lost s next c es outcome status lifetime t) (htx : s.sup.eventTx ≠ none)
    (hopen : t.world.inboxOpen = true) :
    (∃ status lifetime, outcome = .childExited status lifetime ∧ t.world.ExitedWith c status ∧
        events es = [.childExited status]) ∨
      ∃ status, outcome = .probeTimeout ∧ t.world.ExitedWith c status ∧
        events es = [.probeTimeout, .childExited status] := by
  cases h with
  | @exited a b status lifetime es hticks hem =>
    have hsup : (a.mark (.ticked (.childExited status lifetime))).sup = s.sup := hticks.logs.sup
    rw [← hsup] at htx
    refine .inl ⟨status, lifetime, rfl, ?_, hem.events_eq htx hopen⟩
    cases hticks with
    | exited _ hex => exact hem.grew.exitedWith hex
  | @timedOut es fs gs hs a b d t next' status spawnedAt hticks hem hterm hex hem' =>
    have hd : d.world.inboxOpen = true := hem'.logs.world.inboxOpen hopen
    have hsup : (a.mark (.ticked .probeTimeout)).sup = s.sup := hticks.logs.sup
    rw [← hsup] at htx
    have htxd : d.sup.eventTx ≠ none := by
      rw [hterm.sup, hem.logs.sup]
      exact htx
    refine .inr ⟨status, rfl, hem'.grew.exitedWith hex, ?_⟩
    rw [events_append, events_passed_cons, events_append, events_append, hticks.events_eq,
      hterm.events_eq, hem.events_eq htx (hterm.world.inboxOpen hd), hem'.events_eq htxd hopen]
    rfl

/-- The points passed by a turn that winds a child down. -/
private theorem marks_winding {s t u v : Sys} {m : Mark} {c : Child} {evs : List SupervisorEvent}
    {es fs : List Entry} (hem : Emitted (s.mark m) evs es t) (hterm : Terminates u c fs v) :
    marks (s.line (.passed m) :: (es ++ fs)) = [m] := by
  rw [marks_passed_cons, marks_append, hem.marks_eq, hterm.marks_eq, List.append_nil]

/-- While somebody receives, the events of a turn are a word of the language. -/
theorem Turn.word {s t : Sys} {next : Option Instant} {c : Child} {es : List Entry}
    {out : End AutosshError Flow} (h : Turn s next c es out t) (htx : s.sup.eventTx ≠ none)
    (hopen : t.world.inboxOpen = true) :
    TurnWord s.sup.oneShot (t.world.ExitedWith c) (marks es) out (events es) := by
  cases h with
  | @expired es fs b t _ hem hterm =>
    have hes := hem.events_eq (s := s.mark .expired) htx (hterm.world.inboxOpen hopen)
    rw [marks_winding hem hterm, events_passed_cons, events_append, hes, hterm.events_eq]
    exact .expired
  | waitFailed => exact .waitFailed
  | probeOverflow _ hfails =>
    cases hfails with
    | overflow => exact .probeOverflow
  | probeOk _ hticks =>
    rw [events_append, hticks.events_eq, marks_append, hticks.marks_eq]
    exact .probeOk
  | @terminateFailed es fs gs next' a b t e _ hticks hem hterm =>
    have hsup : (a.mark (.ticked .probeTimeout)).sup = s.sup := hticks.logs.sup
    rw [← hsup] at htx
    rw [marks_append, marks_winding hem hterm, events_append, hticks.events_eq,
      events_passed_cons, events_append, hem.events_eq htx (hterm.world.inboxOpen hopen),
      hterm.events_eq, hticks.marks_eq]
    exact .terminateFailed
  | @lost es fs outcome status lifetime a t decision sup out _ hlost hdec hset =>
    have hsup : sup.config = s.sup.config := hdec.config.trans hlost.runs.config
    have hone := hlost.runs.settings.oneShot
    have hevents := hlost.runs.settings.eventTx
    have hevents' := (Supervisor.agrees_of_config hsup).eventTx
    have hopena : a.world.inboxOpen = true := hset.heard.inboxOpen hopen
    have hset' := hset.word hdec (hevents' ▸ htx) hopen
    rw [hone] at hset'
    rw [marks_append, hlost.marks_eq, marks_passed_cons, hset.marks_eq, events_append,
      events_passed_cons]
    have hage : ∀ {status}, a.world.ExitedWith c status → t.world.ExitedWith c status :=
      fun hex => hset.grew.exitedWith hex
    rcases hlost.word htx hopena with ⟨status, lifetime, rfl, hex, hes⟩ | ⟨status, rfl, hex, hes⟩
    · rw [hes]
      exact .exited (hage hex) hset'
    · rw [hes]
      exact .timedOut (hage hex) hset'
  | @stopped kind es fs a b t _ hticks _ hem hterm =>
    have hsup : (a.mark (.ticked (.signal kind))).sup = s.sup := hticks.logs.sup
    rw [← hsup] at htx
    rw [marks_winding hem hterm, events_passed_cons, events_append,
      hem.events_eq htx (hterm.world.inboxOpen hopen), hterm.events_eq]
    exact .stopped
  | @renewed kind es fs gs a b d t out _ hticks _ hem hterm hl =>
    have hsup : (a.mark (.ticked (.signal kind))).sup = s.sup := hticks.logs.sup
    rw [← hsup] at htx
    have hd : d.world.inboxOpen = true := (hl.heard rfl).inboxOpen hopen
    have hevents := (hem.logs.runs.trans hterm.runs_credit).settings.eventTx
    have hl' := hl.word (hevents ▸ htx) hopen
    rw [← List.cons_append, marks_append, marks_winding hem hterm, hl.marks_eq,
      events_append, events_passed_cons, events_append,
      hem.events_eq htx (hterm.world.inboxOpen hd), hterm.events_eq]
    exact .renewed hl'

end RustyAutossh
