import RustyAutossh.Async.Refine
import RustyAutossh.Host.Progress
import RustyAutossh.Source.Signals

/-!
# The supervisor with its signal source

The tasks of the signal source run beside the loop, in any order. The signals that the
loop's host delivers into an unbounded queue are here the sends of the tasks into their
bounded channel, and its end is that of the last task. A station carries the history of
its source, and seen without the tasks it is the host of the loop.
-/

namespace RustyAutossh

open Async Runtime

/-- The supervisor with its host, and the tasks of its signal source with their history. -/
structure Station where
  sys : Sys
  source : SignalSource
  trace : List SignalAction
  queue_eq : source.queue = sys.world.signals
  signalsOpen_eq : sys.world.signalsOpen = source.running
  isOpen : source.isOpen = true
  after : SignalSource.After sys.world.target trace source

/-- An action of the environment that is no signal's, or a step of the signal source. The
receiver is the supervisor's, so only its own awaits take from the channel. -/
inductive Happening where
  | outside (e : Event) (h : ∀ ev, e ≠ .signal ev) (h' : e ≠ .closeSignals)
  | source (a : SignalAction) (h : a.byReceiver = false)

/-- Only the `select!` takes signals, and no operation closes their channel. -/
theorem signals_poll (op : Op) (s : Sys) :
    (poll op s).2.world.signals <:+ s.world.signals ∧
      (poll op s).2.world.signalsOpen = s.world.signalsOpen ∧
      (poll op s).2.world.target = s.world.target ∧
      ((∀ c timer signals, op ≠ .select c timer signals) →
        (poll op s).2.world.signals = s.world.signals) := by
  have hwait : ∀ c, (s.world.wait c).2.signals = s.world.signals ∧
      (s.world.wait c).2.signalsOpen = s.world.signalsOpen ∧
      (s.world.wait c).2.target = s.world.target := by
    intro c
    unfold World.wait
    repeat' split
    all_goals exact ⟨rfl, rfl, rfl⟩
  have hsame : ∀ w : World, w.signals = s.world.signals ∧ w.signalsOpen = s.world.signalsOpen ∧
      w.target = s.world.target → w.signals <:+ s.world.signals ∧
      w.signalsOpen = s.world.signalsOpen ∧ w.target = s.world.target ∧
      ((∀ c timer signals, op ≠ .select c timer signals) → w.signals = s.world.signals) :=
    fun w h => ⟨h.1 ▸ List.suffix_refl _, h.2.1, h.2.2, fun _ => h.1⟩
  cases op with
  | spawn path args =>
    simp only [poll, World.spawn]
    split <;> exact hsame _ ⟨rfl, rfl, rfl⟩
  | startKill c =>
    simp only [poll, World.startKill]
    split <;> exact hsame _ ⟨rfl, rfl, rfl⟩
  | wait c => exact hsame _ (hwait c)
  | waitTimeout c deadline =>
    have hw := hwait c
    simp only [poll]
    split <;>
    · rename_i heq
      rw [heq] at hw
      exact hsame _ hw
  | send tx ev =>
    simp only [poll, World.send]
    repeat' split
    all_goals exact hsame _ ⟨rfl, rfl, rfl⟩
  | roundtrip accepts len deadline =>
    simp only [poll, World.roundtrip]
    repeat' split
    all_goals exact hsame _ ⟨rfl, rfl, rfl⟩
  | select c timer signals =>
    have hw := hwait c
    simp only [poll, World.select]
    split
    · rename_i heq
      rw [heq] at hw
      exact hsame _ hw
    · split
      · exact hsame _ ⟨rfl, rfl, rfl⟩
      · split
        · split
          · rename_i heq
            refine ⟨heq ▸ List.suffix_cons _ _, rfl, rfl, fun hop => absurd rfl (hop _ _ _)⟩
          · split <;> exact hsame _ ⟨rfl, rfl, rfl⟩
        · exact hsame _ ⟨rfl, rfl, rfl⟩
  | _ => exact hsame _ ⟨rfl, rfl, rfl⟩

/-- The signals that are gone after a poll. -/
def Station.received (s : Station) (t : Sys) : List SupervisorEvent :=
  s.source.queue.take (s.source.queue.length - t.world.signals.length)

theorem Station.queue_eq_received (s : Station) {t : Sys}
    (h : t.world.signals <:+ s.sys.world.signals) :
    s.source.queue = s.received t ++ t.world.signals := by
  obtain ⟨ms, hms⟩ := h
  unfold Station.received
  rw [s.queue_eq, ← hms, List.length_append, Nat.add_sub_cancel_right, List.take_left]

/-- Poll an operation of the supervisor. -/
def Station.poll (op : Op) (s : Station) : Option op.Answer × Station :=
  ((RustyAutossh.poll op s.sys).1, {
    sys := (RustyAutossh.poll op s.sys).2
    source := { s.source with queue := (RustyAutossh.poll op s.sys).2.world.signals }
    trace := s.trace ++ (s.received (RustyAutossh.poll op s.sys).2).map .take
    queue_eq := rfl
    signalsOpen_eq := (signals_poll op s.sys).2.1.trans s.signalsOpen_eq
    isOpen := s.isOpen
    after := by
      obtain ⟨hsuffix, -, htarget, -⟩ := signals_poll op s.sys
      unfold SignalSource.After
      rw [htarget, Relay.run_append, s.after, Option.bind_some]
      exact Relay.run_takes s.isOpen (s.queue_eq_received hsuffix) })

/-- The world in which the signal source has taken a step. -/
def World.follow (w : World) (source : SignalSource) : World :=
  { w with signals := source.queue, signalsOpen := source.running }

/-- The effect of one happening. -/
def Station.apply (s : Station) : Happening → Station
  | .outside e h h' => {
      s with
      sys := { s.sys with world := s.sys.world.apply e }
      queue_eq := by
        cases e with
        | signal ev => exact absurd rfl (h ev)
        | _ => exact s.queue_eq
      signalsOpen_eq := by
        cases e with
        | closeSignals => exact absurd rfl h'
        | signal ev => exact absurd rfl (h ev)
        | _ => exact s.signalsOpen_eq
      after := by
        rw [show (s.sys.world.apply e).target = s.sys.world.target from
          (s.sys.world.logs_apply e).target]
        exact s.after }
  | .source a h =>
    match hstep : s.source.step a with
    | none => s
    | some source => {
        sys := { s.sys with world := s.sys.world.follow source }
        source := source
        trace := s.trace ++ [a]
        queue_eq := rfl
        signalsOpen_eq := rfl
        isOpen := by
          cases Relay.steps_of_step hstep with
          | dropped => cases h
          | _ => exact s.isOpen
        after := s.after.snoc hstep }

/-- A step that leaves the channel as it is shows in the world only when the last task ends. -/
private theorem World.exists_events_quiet {w : World} {source source' : SignalSource}
    {a : SignalAction} (hq : source.queue = w.signals) (hopen : w.signalsOpen = source.running)
    (hstep : source.step a = some source') (hq' : source'.queue = source.queue) :
    ∃ events : List Event, events.foldl World.apply w = w.follow source' := by
  by_cases hrun : source'.running = w.signalsOpen
  · refine ⟨[], ?_⟩
    rw [World.follow, hrun, hq', hq]
    rfl
  · have hended : source'.running = false := by
      by_contra hrunning
      have hrunning : source'.running = true := by simpa using hrunning
      exact hrun (hrunning.trans
        ((hopen.trans (SignalSource.running_of_step hstep hrunning)).symm))
    refine ⟨[.closeSignals], ?_⟩
    rw [World.follow, hended, hq', hq]
    rfl

/-- A step of the signal source is an action of the environment of the loop, or none. -/
private theorem World.exists_events {w : World} {source source' : SignalSource}
    {a : SignalAction} (hq : source.queue = w.signals) (hopen : w.signalsOpen = source.running)
    (hreceiver : a.byReceiver = false) (hstep : source.step a = some source') :
    ∃ events : List Event, events.foldl World.apply w = w.follow source' := by
  cases Relay.steps_of_step hstep with
  | @pushed kind hkind =>
    -- a task that sends has not ended, before or after
    have hrunning : source.running = true :=
      decide_eq_true ⟨kind, by rw [hkind]; exact Relay.Phase.noConfusion⟩
    have hrunning' : SignalSource.running { source.move kind .listening with
        queue := source.queue ++ [.signalReceived kind] } = true := by
      refine decide_eq_true ⟨kind, ?_⟩
      show (source.move kind .listening).phase kind ≠ .done
      rw [Relay.State.move_phase, if_pos rfl]
      exact Relay.Phase.noConfusion
    rw [hrunning] at hopen
    refine ⟨[.signal (.signalReceived kind)], ?_⟩
    rw [World.follow, hrunning', ← hopen, hq]
    exact if_pos hopen
  | taken => cases hreceiver
  | dropped => cases hreceiver
  | _ => exact World.exists_events_quiet hq hopen hstep rfl

/-- What happens to a station happens to the host of its loop. -/
private theorem Station.exists_events (s : Station) (x : Happening) :
    ∃ events, s.sys.apply events = (s.apply x).sys := by
  cases x with
  | outside e h h' => exact ⟨[e], rfl⟩
  | source a h =>
    dsimp only [Station.apply]
    split
    · exact ⟨[], rfl⟩
    · rename_i source hstep
      obtain ⟨events, hevents⟩ := World.exists_events s.queue_eq s.signalsOpen_eq h hstep
      exact ⟨events, congrArg (Sys.mk s.sys.sup) hevents⟩

/-- The supervisor's host with the tasks of the signal source. -/
def station : Runtime Op Op.Answer Station (List Happening) where
  poll := Station.poll
  act happenings s := happenings.foldl Station.apply s

/-- Without the tasks a station is the host of the loop. -/
theorem station_refines : station.Refines host Station.sys where
  poll _ _ := rfl
  act happenings s := by
    induction happenings generalizing s with
    | nil => exact ⟨[], rfl⟩
    | cons x happenings ih =>
      obtain ⟨first, hfirst⟩ := s.exists_events x
      obtain ⟨rest, hrest⟩ := ih (s.apply x)
      refine ⟨first ++ rest, ?_⟩
      show s.sys.apply (first ++ rest) = _
      rw [Sys.apply, List.foldl_append]
      rw [← hfirst] at hrest
      exact hrest

/-- A station before its run: the tasks have been spawned, and nothing has been sent. -/
def Station.start (s : Sys) (hq : s.world.signals = []) (hopen : s.world.signalsOpen = true) :
    Station where
  sys := s
  source := spawnSignalSource s.world.target
  trace := []
  queue_eq := hq.symm
  signalsOpen_eq := hopen.trans (spawnSignalSource_running _).symm
  isOpen := rfl
  after := rfl

section Source

variable (s : Station)

/-- The channel never holds more than sixteen signals. -/
theorem Station.queue_length_le : s.sys.world.signals.length ≤ signalChannelCapacity :=
  s.queue_eq ▸ Relay.queue_length_le s.after (Nat.zero_le _)

/-- The signals taken and those waiting are those sent, in their order. -/
theorem Station.sent_eq : (Relay.pushed s.trace).map SupervisorEvent.signalReceived =
    Relay.taken s.trace ++ s.sys.world.signals := by
  have hfifo := Relay.queue_fifo s.after
  rw [s.queue_eq] at hfifo
  exact hfifo

/-- A task sends a signal no more often than the signal was raised. -/
theorem Station.count_sent_le (kind : SignalKind) :
    (Relay.pushed s.trace).count kind + s.source.inFlight kind ≤
      (Relay.raised s.trace).count kind := by
  have hle := Relay.count_pushed_le s.after kind
  have hnone : (spawnSignalSource s.sys.world.target).inFlight kind = 0 := by
    unfold Relay.State.inFlight spawnSignalSource
    dsimp only
    split <;> rfl
  omega

theorem Station.heard : s.source.Heard :=
  Relay.heard_run s.after (spawnSignalSource_heard _)

end Source

end RustyAutossh
