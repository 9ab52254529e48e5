import RustyAutossh.Relay
import RustyAutossh.Source.Supervisor

/-!
# The signal source

`spawn_signal_source` makes a bounded channel and spawns a task for each signal of the
platform. A task registers a listener, and then for each notification it receives sends
`SignalReceived` into the channel; it ends when the registration fails, when the stream
of its listener ends or when the receiver is gone. Its awaits are the phases of a relay.
A signal that arrives before its listener is registered is left to the operating system.
-/

namespace RustyAutossh

instance : Fintype SignalKind where
  elems := {.terminate, .interrupt, .userDefined1, .hangup, .ctrlBreak}
  complete kind := by cases kind <;> decide

/-- `SIGNAL_CHANNEL_CAPACITY`. -/
def signalChannelCapacity : Nat := 16

/-- The signals for which `install_listeners` spawns a task, with the kind each is sent as. -/
def installListeners : Target → List SignalKind
  | .unix => [.terminate, .interrupt, .userDefined1, .hangup]
  | .windows => [.interrupt, .ctrlBreak]

/-- The tasks of the signals and their channel. -/
abbrev SignalSource := Relay.State SignalKind SupervisorEvent

/-- One step of a task, a signal or the supervisor. -/
abbrev SignalAction := Relay.Action SignalKind SupervisorEvent

/-- `spawn_signal_source`: every task is about to register its listener. -/
def spawnSignalSource (os : Target) : SignalSource where
  phase kind := if kind ∈ installListeners os then .starting else .done
  pending _ := false
  queue := []
  isOpen := true

/-- One action of the signal source. -/
def SignalSource.step (source : SignalSource) (a : SignalAction) : Option SignalSource :=
  Relay.step signalChannelCapacity .signalReceived source a

/-- A history of the signal source, from when it was spawned. -/
def SignalSource.After (os : Target) (trace : List SignalAction) (source : SignalSource) : Prop :=
  Relay.run signalChannelCapacity .signalReceived (spawnSignalSource os) trace = some source

/-- Some task holds a sender of the channel. -/
def SignalSource.running (source : SignalSource) : Bool :=
  decide (∃ kind, source.phase kind ≠ .done)

theorem spawnSignalSource_running (os : Target) : (spawnSignalSource os).running = true := by
  cases os <;> rfl

/-- No listener is registered before its task has run. -/
theorem spawnSignalSource_heard (os : Target) : (spawnSignalSource os).Heard := by
  intro _ kind hpending
  cases hpending

section History

variable {os : Target} {trace : List SignalAction} {source : SignalSource}

theorem SignalSource.After.snoc {a : SignalAction} {source' : SignalSource}
    (h : SignalSource.After os trace source) (ha : source.step a = some source') :
    SignalSource.After os (trace ++ [a]) source' := by
  unfold SignalSource.After
  rw [Relay.run_append, h, Option.bind_some, Relay.run_singleton]
  exact ha

/-- A task that has ended sends nothing more. -/
theorem SignalSource.running_of_step {a : SignalAction} {source' : SignalSource}
    (ha : source.step a = some source') (h : source'.running = true) : source.running = true := by
  simp only [SignalSource.running, decide_eq_true_eq] at h ⊢
  obtain ⟨kind, hkind⟩ := h
  exact ⟨kind, fun hdone => hkind ((Relay.steps_of_step ha).keeps_done hdone)⟩

end History

end RustyAutossh
