import RustyAutossh.Loop.Runs
import RustyAutossh.Loop.Unheard

/-!
# Observing a run

Sending an event waits for room in the channel, so a consumer that falls behind stops the
supervisor. As long as every event finds room, or nobody receives any more, the run is the
one without a sender.
-/

namespace RustyAutossh

open Async Runtime

/-- If no event of an execution has to wait, the execution ends as it does without a sender,
and leaves the same record, processes and log but for the events. -/
theorem run_unchanged_by_prompt_events (s₀ : Sys) (n : Nat) (script : List (List Event))
    (hprompt : host.Begins Op.Prompt (runFor n) script s₀) :
    let heard := execute n script s₀
    let silent := execute n script s₀.mute
    silent.out = heard.out ∧ silent.state = heard.state.mute ∧ silent.rest = heard.rest := by
  intro heard silent
  have hsame : silent = heard.map Sys.mute := (mutes_runFor n).drive script s₀ hprompt
  rw [hsame]
  exact ⟨rfl, rfl, rfl⟩

/-- A supervisor with a channel of the given capacity. -/
def Supervisor.heardWithin (capacity : Nat) (pos : 0 < capacity) : Supervisor :=
  { Supervisor.initial with eventTx := some ⟨capacity, pos⟩ }

/-- A crash, the backoff after it and a request to stop. -/
def crashThenStop : List (List Event) :=
  [[.exit 0 ⟨256⟩], [.elapse (Duration.fromSecs 30)], [.signal (.signalReceived .terminate)],
    [.exit 1 ⟨15⟩]]

/-- Five events fit a channel of five, whether or not anybody receives them. -/
theorem run_unchanged_by_prompt_events_five :
    (execute 2 crashThenStop
      (Sys.mute ⟨.heardWithin 5 (by decide), .initial .unix⟩)).out = .ret .returned :=
  (run_unchanged_by_prompt_events ⟨.heardWithin 5 (by decide), .initial .unix⟩ 2 crashThenStop
    (by decide +kernel)).1.trans (by decide +kernel)

/-- A channel of one whose consumer does not drain it stops the supervisor at the crash: it
neither respawns nor counts the crash nor takes the request to stop. -/
theorem run_stopped_by_full_channel :
    let heard := execute 2 crashThenStop ⟨.heardWithin 1 (by decide), .initial .unix⟩
    let silent := execute 2 crashThenStop (Sys.mute ⟨.heardWithin 1 (by decide), .initial .unix⟩)
    heard.out = .pending ∧ silent.out = .ret .returned ∧
      heard.state.world.inboxOpen = true ∧
      heard.state.world.procs.length = 1 ∧ silent.state.world.procs.length = 2 ∧
      heard.state.sup.retryCount = 0 ∧ silent.state.sup.retryCount = 1 ∧
      heard.state.world.signals = [.signalReceived .terminate] := by
  decide +kernel

end RustyAutossh
