import RustyAutossh.Async.Watch
import RustyAutossh.Host.Station
import RustyAutossh.Loop.Core
import RustyAutossh.Loop.Footprint

/-!
# Signals from end to end

A signal goes from its listener's flag through the task and the bounded channel to the
`select!` of the loop. Over every interleaving the loop acts on the signals sent in their
order, each once, and on nothing else, but for the request to stop that it makes up when
every task has ended; and a signal that a listener has heard is acted on in the end.
-/

namespace RustyAutossh

open Async Runtime

/-- The signal that the loop acts on at a point. -/
def Mark.obeyed : Mark → Option SignalKind
  | .ticked (.signal kind) => some kind
  | _ => none

/-- The signals that the loop has acted on, in order. -/
def Sys.acted (s : Sys) : List SignalKind := (marks s.world.history).filterMap Mark.obeyed

theorem Sys.acted_mark (s : Sys) (m : Mark) : (s.mark m).acted = s.acted ++ m.obeyed.toList := by
  have hmarks : marks (s.mark m).world.history = marks s.world.history ++ [m] := by
    rw [(s.logs_mark m).world.history, marks_append, marks_passed_cons, marks_nil]
  rw [Sys.acted, hmarks, List.filterMap_append]
  cases h : m.obeyed <;> simp [Sys.acted, h]

/-- An operation that logs no outcome acts on no signal. -/
private theorem acted_poll {op : Op} (hop : op.Untold) (s : Sys) :
    (poll op s).2.acted = s.acted := by
  obtain ⟨es, hes, hwrites⟩ := writes_poll op s
  have hnone : (marks es).filterMap Mark.obeyed = [] := by
    rw [List.filterMap_eq_nil_iff]
    intro m hm
    obtain ⟨e, he, hmark⟩ := List.mem_filterMap.mp hm
    have hact : e.act = .passed m := by
      cases hact : e.act <;> simp_all [Act.mark]
    obtain rfl := (hwrites e he).2 m hact
    cases m with
    | ticked => exact hop.elim
    | _ => rfl
  rw [Sys.acted, hes, marks_append, List.filterMap_append, hnone, List.append_nil, Sys.acted]

section Steps

variable (s : Station)

/-- What the station has taken from the channel after a poll. -/
private theorem Station.taken_poll (op : Op) : Relay.taken (s.poll op).2.trace =
    Relay.taken s.trace ++ s.received (RustyAutossh.poll op s.sys).2 := by
  show Relay.taken (s.trace ++ (s.received _).map .take) = _
  rw [Relay.taken_append, Relay.taken_takes]

/-- Where the queue stays as it is nothing is received. -/
private theorem Station.received_eq_nil {t : Sys} (h : t.world.signals = s.sys.world.signals) :
    s.received t = [] := by
  rw [Station.received, s.queue_eq, h, Nat.sub_self, List.take_zero]

/-- A station later on: nothing has been taken or acted on, and tasks that had ended still have. -/
structure Station.Follows (s t : Station) : Prop where
  acted : t.sys.acted = s.sys.acted
  taken : Relay.taken t.trace = Relay.taken s.trace
  ended : s.source.running = false → t.source.running = false

theorem Station.Follows.refl : s.Follows s := ⟨rfl, rfl, id⟩

variable {s} in
theorem Station.Follows.trans {t u : Station} (h : s.Follows t) (h' : t.Follows u) :
    s.Follows u :=
  ⟨h'.acted.trans h.acted, h'.taken.trans h.taken, h'.ended ∘ h.ended⟩

/-- A poll that leaves the queue as it is, by an operation that logs no outcome. -/
private theorem Station.follows_poll {op : Op} (hop : op.Untold)
    (h : (RustyAutossh.poll op s.sys).2.world.signals = s.sys.world.signals) :
    s.Follows (s.poll op).2 where
  acted := acted_poll hop s.sys
  taken := by rw [s.taken_poll, s.received_eq_nil h, List.append_nil]
  ended := id

/-- The environment takes nothing from the channel, and logs nothing. -/
private theorem Station.follows_apply (x : Happening) : s.Follows (s.apply x) := by
  cases x with
  | outside e h h' =>
    refine ⟨?_, rfl, id⟩
    have hhist : (s.sys.world.apply e).history = s.sys.world.history := by
      have := (s.sys.world.logs_apply e).history
      rwa [List.append_nil] at this
    exact congrArg (fun es => (marks es).filterMap Mark.obeyed) hhist
  | source a h =>
    dsimp only [Station.apply]
    split
    · exact .refl s
    · rename_i source hstep
      refine ⟨rfl, ?_, fun hended => ?_⟩
      · have hnone : Relay.taken [a] = [] := by
          cases a with
          | take m => cases h
          | _ => rfl
        show Relay.taken (s.trace ++ [a]) = _
        rw [Relay.taken_append, hnone, List.append_nil]
      · by_contra hrunning
        have hrunning : SignalSource.running source = true := by simpa using hrunning
        rw [SignalSource.running_of_step hstep hrunning] at hended
        cases hended

private theorem Station.follows_act (happenings : List Happening) :
    s.Follows (station.act happenings s) := by
  induction happenings generalizing s with
  | nil => exact .refl s
  | cons x happenings ih => exact (s.follows_apply x).trans (ih (s.apply x))

/-- What lasts as long as nothing is taken or acted on is kept by every other operation. -/
private theorem station_keeps {I : Station → Prop} (hI : ∀ {s t}, s.Follows t → I s → I t) :
    station.Keeps Op.Outside I where
  poll {op s} hop hs := by
    refine hI (s.follows_poll hop.untold ?_) hs
    refine (signals_poll op s.sys).2.2.2 fun c timer signals heq => ?_
    rw [heq] at hop
    exact hop
  act {s} happenings hs := hI (s.follows_act happenings) hs

/-- The signals acted on are those taken from the channel. -/
def Station.Settled (s : Station) : Prop :=
  s.sys.acted.map SupervisorEvent.signalReceived = Relay.taken s.trace

/-- The signals acted on are those taken, and a request to stop once every task has ended. -/
def Station.Closing (s : Station) : Prop :=
  s.source.running = false ∧ ∃ as, s.sys.acted = as ++ [.terminate] ∧
    as.map SupervisorEvent.signalReceived = Relay.taken s.trace

variable {s}

private theorem Station.Follows.settled {t : Station} (h : s.Follows t) (hs : s.Settled) :
    t.Settled := by
  rw [Station.Settled, h.acted, h.taken]
  exact hs

private theorem Station.Follows.closing {t : Station} (h : s.Follows t) (hs : s.Closing) :
    t.Closing := by
  obtain ⟨hended, as, hacted, htaken⟩ := hs
  exact ⟨h.ended hended, as, h.acted.trans hacted, htaken.trans h.taken.symm⟩

private theorem keeps_settled : station.Keeps Op.Outside Station.Settled :=
  station_keeps Station.Follows.settled

private theorem keeps_closing : station.Keeps Op.Outside Station.Closing :=
  station_keeps Station.Follows.closing

end Steps

/-- An operation that changes nothing but to answer. -/
private theorem station_poll_of_ready {op : Op} {s : Station} {a : op.Answer}
    (h : poll op s.sys = (some a, s.sys)) : station.poll op s = (some a, s) := by
  have hreceived : s.received s.sys = [] := s.received_eq_nil rfl
  show s.poll op = _
  obtain ⟨sys, source, trace, hq, hopen, hrecv, hafter⟩ := s
  simp only [Station.poll, h, hreceived, List.map_nil, List.append_nil, ← hq]

/-- A station polls as the host of its loop does. -/
private theorem station_poll_sys {op : Op} {s t : Station} {r : Option op.Answer}
    (h : station.poll op s = (r, t)) : poll op s.sys = (r, t.sys) := by
  have hpoll := station_refines.poll op s
  rw [h] at hpoll
  exact hpoll

/-- What a poll of the `select!` takes from the channel: the signal it answers, if any. -/
private theorem signals_of_select {c : Child} {timer : Option Instant} {signals : Bool}
    {s t : Sys} {r : Option Wakeup} (h : poll (.select c timer signals) s = (r, t)) :
    (∃ ev, r = some (.received (some ev)) ∧ s.world.signals = ev :: t.world.signals) ∨
      t.world.signals = s.world.signals ∧
        ∀ ev, r = some (.received ev) → ev = none ∧ s.world.signalsOpen = false := by
  have hwait : (s.world.wait c).2.signals = s.world.signals := by
    unfold World.wait
    repeat' split
    all_goals rfl
  simp only [poll, World.select] at h
  split at h
  · rename_i heq
    rw [heq] at hwait
    cases h
    exact .inr ⟨hwait, by rintro ev ⟨⟩⟩
  · split at h
    · cases h
      exact .inr ⟨rfl, by rintro ev ⟨⟩⟩
    · split at h
      · split at h
        · rename_i ev rest hq
          cases h
          exact .inl ⟨ev, rfl, hq⟩
        · split at h
          · cases h
            exact .inr ⟨rfl, by rintro ev ⟨⟩⟩
          · rename_i hclosed
            cases h
            exact .inr ⟨rfl, by rintro ev ⟨⟩; exact ⟨rfl, by simpa using hclosed⟩⟩
      · cases h
        exact .inr ⟨rfl, by rintro ev ⟨⟩⟩

section Select

variable {c : Child} {timer : Option Instant} {signals : Bool} {s t : Station}

/-- A poll of the `select!` that answers no signal takes nothing. -/
private theorem Station.follows_select {r : Option Wakeup}
    (hr : ∀ ev, r ≠ some (.received (some ev)))
    (h : station.poll (.select c timer signals) s = (r, t)) : s.Follows t := by
  have hq : t.sys.world.signals = s.sys.world.signals := by
    rcases signals_of_select (station_poll_sys h) with ⟨ev, hev, -⟩ | ⟨hq, -⟩
    · exact absurd hev (hr ev)
    · exact hq
  have hpoll := @Station.follows_poll s (.select c timer signals) trivial
    (by rw [station_poll_sys h]; exact hq)
  rwa [show (s.poll (.select c timer signals)).2 = t from congrArg Prod.snd h] at hpoll

/-- While the `select!` is pending nothing is taken. -/
private theorem follows_of_waits (h : station.Waits (.select c timer signals) s t) :
    s.Follows t := by
  induction h with
  | here => exact .refl _
  | @wake s t happenings hnone _ ih =>
    have hstill : s.Follows (station.poll (.select c timer signals) s).2 :=
      Station.follows_select (r := none) (by simp) (Prod.ext hnone rfl)
    exact (hstill.trans (Station.follows_act _ happenings)).trans ih

private theorem follows_of_stalls (h : station.Stalls (.select c timer signals) s t) :
    s.Follows t := by
  obtain ⟨u, hw, hp⟩ := h
  exact (follows_of_waits hw).trans (Station.follows_select (by simp) hp)

/-- What a message taken from the channel says. -/
private theorem Station.exists_kind {ev : SupervisorEvent} (h : ev ∈ Relay.taken s.trace) :
    ∃ kind, ev = .signalReceived kind := by
  have hmem : ev ∈ (Relay.pushed s.trace).map SupervisorEvent.signalReceived := by
    rw [s.sent_eq]
    exact List.mem_append_left _ h
  obtain ⟨kind, -, rfl⟩ := List.mem_map.mp hmem
  exact ⟨kind, rfl⟩

/-- The answers of the `select!`, with what has been taken from the channel by then. -/
private inductive Station.Hears (s : Station) (timer : Option Instant) :
    Wakeup → Station → Prop
  | exited {t : Station} {r : Except IoError ExitStatus} : s.Follows t →
      Hears s timer (.exited r) t
  | timer {t : Station} : s.Follows t → s.sys.Passes t.sys → timer.isSome = true →
      Hears s timer .timer t
  | signal {t : Station} {kind : SignalKind} : t.sys.acted = s.sys.acted →
      Relay.taken t.trace = Relay.taken s.trace ++ [.signalReceived kind] →
      Hears s timer (.received (some (.signalReceived kind))) t
  | closed {t : Station} : s.Follows t → t.source.running = false →
      Hears s timer (.received none) t

private theorem hears_of_answers {w : Wakeup}
    (h : station.Answers (.select c timer signals) s w t) : s.Hears timer w t := by
  have hsel := answers_select (station_refines.answers h)
  obtain ⟨u, hw, hp⟩ := h
  have hfollows := follows_of_waits hw
  have hquiet : (∀ ev, w ≠ .received (some ev)) → s.Follows t := fun hne =>
    hfollows.trans (Station.follows_select (fun ev heq => hne ev (Option.some.inj heq)) hp)
  cases w with
  | exited r => exact .exited (hquiet (by simp))
  | timer =>
    cases hsel with
    | timer hpass _ htimer => exact .timer (hquiet (by simp)) hpass (by rw [htimer]; rfl)
  | received ev =>
    cases ev with
    | none =>
      have hended : u.sys.world.signalsOpen = false := by
        rcases signals_of_select (station_poll_sys hp) with ⟨ev, hev, -⟩ | ⟨-, hclosed⟩
        · cases hev
        · exact (hclosed none rfl).2
      have hlast : t.sys.world.signalsOpen = u.sys.world.signalsOpen := by
        have hsame := (signals_poll (.select c timer signals) u.sys).2.1
        rwa [station_poll_sys hp] at hsame
      exact .closed (hquiet (by simp)) (t.signalsOpen_eq.symm.trans (hlast.trans hended))
    | some ev =>
      have hq : u.sys.world.signals = ev :: t.sys.world.signals := by
        rcases signals_of_select (station_poll_sys hp) with ⟨ev', hev, hq⟩ | ⟨-, hclosed⟩
        · cases hev
          exact hq
        · cases (hclosed (some ev) rfl).1
      have hu : (u.poll (.select c timer signals)).2 = t := congrArg Prod.snd hp
      have htaken : Relay.taken t.trace = Relay.taken u.trace ++ [ev] := by
        have := u.taken_poll (.select c timer signals)
        rw [hu, station_poll_sys hp, Station.received, u.queue_eq, hq] at this
        simpa using this
      have hacted : t.sys.acted = u.sys.acted := by
        have := @acted_poll (.select c timer signals) trivial u.sys
        rwa [station_poll_sys hp] at this
      have hmem : ev ∈ Relay.taken t.trace := by simp [htaken]
      obtain ⟨kind, rfl⟩ := Station.exists_kind hmem
      exact .signal (hacted.trans hfollows.acted) (htaken.trans (by rw [hfollows.taken]))

end Select

/-- Wherever the run is suspended the signals acted on are accounted for. -/
def Station.Accounted (s : Station) : Prop := s.Settled ∨ s.Closing

/-- A tick has taken the signal it answers with, or makes one up after the last task. -/
private def Station.Owes (s : Station) (outcome : LoopOutcome) : Prop :=
  (s.sys.acted ++ (Mark.ticked outcome).obeyed.toList).map SupervisorEvent.signalReceived =
      Relay.taken s.trace ∨
    outcome = .signal .terminate ∧ s.source.running = false ∧ s.Settled

private theorem Station.Settled.owes {s : Station} (hs : s.Settled) {outcome : LoopOutcome}
    (h : (Mark.ticked outcome).obeyed = none) : s.Owes outcome := by
  refine .inl ?_
  rw [h, Option.toList_none, List.append_nil]
  exact hs

/-- What is accounted for at the end of a function of the loop, and where it is suspended. -/
private abbrev accounting {α : Type} (ret : α → Station → Prop) (p : Future α) (s : Station) :
    Prop :=
  station.watch (fun _ t => t.Accounted) ⟨ret, fun _ t => t.Accounted, fun t => t.Accounted⟩ p s

section Loop

variable {α : Type} {s : Station} {ret : α → Station → Prop}

private theorem accounting_now {k : Op.now.Answer → Future α} :
    accounting ret (await .now >>= k) s ↔ accounting ret (k s.sys.world.now) s :=
  watch_call_of_ready (station_poll_of_ready rfl)

private theorem accounting_target {k : Op.target.Answer → Future α} :
    accounting ret (await .target >>= k) s ↔ accounting ret (k s.sys.world.target) s :=
  watch_call_of_ready (station_poll_of_ready rfl)

private theorem accounting_this {k : Op.this.Answer → Future α} :
    accounting ret (await .this >>= k) s ↔ accounting ret (k s.sys.sup) s :=
  watch_call_of_ready (station_poll_of_ready rfl)

/-- A function that neither takes nor logs signals keeps them settled. -/
private theorem accounting_outside {p : Future α} (hp : p.Only Op.Outside) (hs : s.Settled)
    (hret : ∀ a t, t.Settled → ret a t) : accounting ret p s :=
  keeps_settled.watch (Q := ⟨ret, fun _ t => t.Accounted, fun t => t.Accounted⟩) hret
    (fun _ _ => .inl) (fun _ => .inl) (fun _ _ => .inl) hp hs

private theorem accounting_closing {p : Future α} (hp : p.Only Op.Outside) (hs : s.Closing)
    (hret : ∀ a t, t.Closing → ret a t) : accounting ret p s :=
  keeps_closing.watch (Q := ⟨ret, fun _ t => t.Accounted, fun t => t.Accounted⟩) hret
    (fun _ _ => .inr) (fun _ => .inr) (fun _ _ => .inr) hp hs

/-- The heartbeat takes no signal. -/
private theorem accounting_probeBranch (hs : s.Settled) (hmon : s.sys.sup.monitor.isSome = true) :
    accounting (fun q t => t.Owes q.1) probeBranch s := by
  obtain ⟨m, hm⟩ := Option.isSome_iff_exists.mp hmon
  rw [probeBranch, accounting_this, hm]
  refine watch_bind.mpr (accounting_outside (outside_of_gentle (probe_gentle m _)) hs ?_)
  intro r t ht
  cases r with
  | ok _ =>
    refine watch_bind.mpr (accounting_outside (outside_of_gentle (nowPlus_gentle _)) ht ?_)
    exact fun _ _ hu => hu.owes rfl
  | error _ =>
    refine watch_bind.mpr (accounting_outside (outside_of_gentle (nowPlus_gentle _)) ht ?_)
    exact fun _ _ hu => hu.owes rfl

/-- A tick whose timer is armed only for a monitor. -/
private theorem accounting_selectOneTick {next : Option Instant} (hs : s.Settled)
    (harmed : next.isSome = s.sys.sup.monitor.isSome) :
    accounting (fun q t => t.Owes q.1) (selectOneTick next) s := by
  rw [selectOneTick, accounting_this, accounting_now]
  split
  · exact .inl hs
  · rw [accounting_target]
    refine ⟨fun t ht => .inl ((follows_of_stalls ht).settled hs), fun w t ha => ?_⟩
    cases hears_of_answers ha with
    | @exited _ r hfollows =>
      cases r with
      | error e => exact .inl (hfollows.settled hs)
      | ok status =>
        show accounting _ (childLifetime >>= _) t
        refine watch_bind.mpr (accounting_outside (outside_of_gentle childLifetime_gentle)
          (hfollows.settled hs) ?_)
        exact fun _ _ hu => hu.owes rfl
    | timer hfollows hpass htimer =>
      refine accounting_probeBranch (hfollows.settled hs) ?_
      rw [hpass.sup, ← harmed]
      by_contra hnone
      rw [if_neg hnone] at htimer
      cases htimer
    | @signal _ kind hacted htaken =>
      refine .inl ?_
      show (t.sys.acted ++ [kind]).map _ = _
      rw [hacted, htaken, List.map_append, hs]
      rfl
    | closed hfollows hended => exact .inr ⟨rfl, hended, hfollows.settled hs⟩

/-- Logging the outcome of a tick accounts for the signal it took. -/
private theorem Station.Owes.logged {outcome : LoopOutcome} (h : s.Owes outcome) :
    (s.poll (.trace (.ticked outcome))).2.Settled ∨
      outcome = .signal .terminate ∧ (s.poll (.trace (.ticked outcome))).2.Closing := by
  have htrace : Relay.taken (s.poll (.trace (.ticked outcome))).2.trace = Relay.taken s.trace := by
    rw [s.taken_poll]
    exact (congrArg _ (s.received_eq_nil rfl)).trans (List.append_nil _)
  have hacted : (s.poll (.trace (.ticked outcome))).2.sys.acted =
      s.sys.acted ++ (Mark.ticked outcome).obeyed.toList :=
    s.sys.acted_mark (.ticked outcome)
  rcases h with hsent | ⟨rfl, hended, hsettled⟩
  · refine .inl ?_
    rw [Station.Settled, hacted, htrace]
    exact hsent
  · exact .inr ⟨rfl, hended, s.sys.acted, hacted, hsettled.trans htrace.symm⟩

/-- What a turn leaves: everything is accounted for, and settled if the loop goes on. -/
private def Station.Turned (flow : Flow) (t : Station) : Prop :=
  t.Accounted ∧ ∀ next, flow = .looping next → t.Settled

/-- After a made-up request to stop the run is over. -/
private theorem accounting_stop (hs : s.Closing) :
    accounting Station.Turned (onSignal .terminate) s := by
  unfold onSignal
  refine watch_bind.mpr (accounting_closing (outside_of_gentle (emit_gentle _)) hs ?_)
  intro _ t ht
  refine watch_bind.mpr (accounting_closing (dismiss_only.mono fun _ => Op.Terminating.outside)
    ht ?_)
  exact fun _ _ hu => ⟨.inr hu, fun _ h => by cases h⟩

/-- A turn accounts for every signal it takes. -/
private theorem accounting_turn {next : Option Instant} (hs : s.Settled)
    (harmed : next.isSome = s.sys.sup.monitor.isSome) :
    accounting Station.Turned (turn next) s := by
  rw [turn, accounting_this, accounting_now]
  split
  · exact accounting_outside onExpired_outside hs fun _ t ht => ⟨.inl ht, fun _ _ => ht⟩
  · refine watch_bind.mpr (watch_mono (accounting_selectOneTick hs harmed) ?_
      (fun _ _ h => h) fun _ h => h)
    rintro ⟨outcome, next'⟩ t howes
    have hready : station.poll (.trace (.ticked outcome)) t =
        (some (), (t.poll (.trace (.ticked outcome))).2) := rfl
    show accounting Station.Turned (await (.trace (.ticked outcome)) >>= _) t
    refine (watch_call_of_ready hready).mpr ?_
    rcases howes.logged with hsettled | ⟨rfl, hclosing⟩
    · exact accounting_outside (onOutcome_outside next' outcome) hsettled
        fun _ u hu => ⟨.inl hu, fun _ _ => hu⟩
    · exact accounting_stop hclosing

end Loop

/-- A run accounts for every signal it takes. -/
private theorem accounting_runFor {s : Station} (hs : s.Settled) (hstill : s.sys.world.Still)
    (n : Nat) : accounting Station.Turned (runFor n) s := by
  induction n with
  | zero =>
    exact accounting_outside (outside_of_gentle startUp_gentle) hs
      fun _ t ht => ⟨.inl ht, fun _ _ => ht⟩
  | succ n ih =>
    refine watch_bind.mpr (watch_and ih (station_refines.wp (wp_runFor hstill n)) ?_
      (fun _ _ h _ => h) fun _ h _ => h)
    rintro flow t ⟨haccounted, hsettled⟩ hrun
    cases flow with
    | returned => exact ⟨haccounted, fun _ h => by cases h⟩
    | looping next =>
      have hrun : RunEnd s.sys n (.ret (.looping next)) t.sys := hrun
      obtain ⟨es, c, hr⟩ := hrun.reaches
      exact accounting_turn (hsettled next rfl) hr.loopTop.armed

/-- Before its run a supervisor has acted on nothing and its tasks have sent nothing. -/
private theorem Station.start_settled {s₀ : Sys} (hs : s₀.Fresh) (hq : s₀.world.signals = [])
    (hopen : s₀.world.signalsOpen = true) : (Station.start s₀ hq hopen).Settled := by
  show s₀.acted.map _ = []
  rw [Sys.acted, hs.history]
  rfl

/-- Every execution with the tasks accounts for the signals, finished or suspended. -/
private theorem accounted_of_drive {s₀ : Sys} (hs : s₀.Fresh) (hq : s₀.world.signals = [])
    (hopen : s₀.world.signalsOpen = true) (n : Nat) (script : List (List Happening)) :
    (station.drive (runFor n) script (.start s₀ hq hopen)).state.Accounted := by
  have hwatch := accounting_runFor (Station.start_settled hs hq hopen) hs.still n
  by_cases hpending : (station.drive (runFor n) script (.start s₀ hq hopen)).out = .pending
  · obtain ⟨op, hsusp, -⟩ := suspension_of_pending hpending
    exact watch_sound (R := fun _ t => t.Accounted) hwatch hsusp
  · have hend := wp_sound (wp_of_watch hwatch) script
    revert hend hpending
    cases (station.drive (runFor n) script (.start s₀ hq hopen)).out with
    | ret flow => exact fun _ hend => hend.1
    | pending => exact fun h => absurd rfl h
    | _ => exact fun _ hend => hend

/-- What the loop has acted on: the signals taken, and the request to stop that it makes up
when every task has ended. -/
private theorem Station.Accounted.split {s : Station} (h : s.Accounted) :
    ∃ obeyed closing, s.sys.acted = obeyed ++ closing ∧
      (closing = [] ∨ closing = [.terminate] ∧ s.source.running = false) ∧
      obeyed.map SupervisorEvent.signalReceived = Relay.taken s.trace := by
  rcases h with hsettled | ⟨hended, as, hacted, htaken⟩
  · exact ⟨s.sys.acted, [], (List.append_nil _).symm, .inl rfl, hsettled⟩
  · exact ⟨as, [.terminate], hacted, .inr ⟨rfl, hended⟩, htaken⟩

/-- With the tasks of its signal source beside it the loop runs as it does on a host that
delivers signals into an unbounded queue: every execution, over every interleaving of the
tasks with the environment, is one of the loop alone over a script as long, with the same
end, the same log and the same wait. -/
theorem run_beside_signal_source (s : Station) (n : Nat) (script : List (List Happening)) :
    ∃ told : List (List Event), told.length = script.length ∧
      (station.drive (runFor n) script s).Shows Station.sys (execute n told s.sys) ∧
      host.suspension (runFor n) told s.sys =
        (station.suspension (runFor n) script s).map fun q => (q.1, q.2.sys) :=
  station_refines.exists_script (runFor n) script s

/-- Over every interleaving of the tasks, the signals and the loop, the signals acted on are
those sent, in their order and each once, but for those still in the channel, of which there
are never more than sixteen. No signal is sent more often than it was raised, counting what
is on its way; and the loop makes up a request to stop only once every task has ended. -/
theorem run_signals_in_order (s₀ : Sys) (hs : s₀.Fresh) (hq : s₀.world.signals = [])
    (hopen : s₀.world.signalsOpen = true) (n : Nat) (script : List (List Happening))
    (t : Station) (ht : (station.drive (runFor n) script (.start s₀ hq hopen)).state = t) :
    ∃ obeyed closing : List SignalKind, t.sys.acted = obeyed ++ closing ∧
      (closing = [] ∨ closing = [.terminate] ∧ t.source.running = false) ∧
      (Relay.pushed t.trace).map SupervisorEvent.signalReceived =
        obeyed.map SupervisorEvent.signalReceived ++ t.sys.world.signals ∧
      t.sys.world.signals.length ≤ signalChannelCapacity ∧
      ∀ kind, (Relay.pushed t.trace).count kind + t.source.inFlight kind ≤
        (Relay.raised t.trace).count kind := by
  obtain ⟨obeyed, closing, hacted, hclosing, htaken⟩ :=
    (ht ▸ accounted_of_drive hs hq hopen n script : t.Accounted).split
  refine ⟨obeyed, closing, hacted, hclosing, ?_, t.queue_length_le, t.count_sent_le⟩
  rw [htaken]
  exact t.sent_eq

/-- A pending `select!` that listens for signals has found none. -/
private theorem signals_eq_nil_of_stalls {c : Child} {timer : Option Instant} {s t : Station}
    (h : station.Stalls (.select c timer true) s t) : t.sys.world.signals = [] := by
  obtain ⟨u, -, hp⟩ := h
  have hpoll := station_poll_sys hp
  simp only [poll, World.select, if_true] at hpoll
  split at hpoll
  · cases hpoll
  · split at hpoll
    · cases hpoll
    · split at hpoll
      · cases hpoll
      · rename_i hq
        split at hpoll
        · have heq : u.sys = t.sys := (Prod.ext_iff.mp hpoll).2
          rw [← heq]
          exact hq
        · cases hpoll

/-- No signal is lost. Wherever the run waits in its `select!` and no task can take a step,
each signal raised while its listener was registered has been acted on since. -/
theorem run_obeys_signals (s₀ : Sys) (hs : s₀.Fresh) (hq : s₀.world.signals = [])
    (hopen : s₀.world.signalsOpen = true) (n : Nat) (script : List (List Happening))
    (c : Child) (timer : Option Instant) (t : Station)
    (hsusp : station.suspension (runFor n) script (.start s₀ hq hopen) =
      some (.select c timer true, t))
    (hidle : t.source.Idle signalChannelCapacity .signalReceived)
    (before after : List SignalAction) (kind : SignalKind)
    (htrace : t.trace = before ++ .raise kind :: after) (source : SignalSource)
    (hsource : SignalSource.After t.sys.world.target before source)
    (hheard : source.Hears kind) : kind ∈ t.sys.acted.drop (Relay.taken before).length := by
  obtain ⟨u, hstalls⟩ := stalls_of_suspension hsusp
  have hempty : t.source.queue = [] := by rw [t.queue_eq, signals_eq_nil_of_stalls hstalls]
  have hrun : Relay.run signalChannelCapacity .signalReceived source (.raise kind :: after) =
      some t.source := by
    have hafter := t.after
    unfold SignalSource.After at hafter hsource
    rwa [htrace, Relay.run_append, hsource, Option.bind_some] at hafter
  have hsettled := hidle.settled t.heard t.isOpen (by rw [hempty]; decide) kind
  have htaken : SupervisorEvent.signalReceived kind ∈ Relay.taken after := by
    rcases Relay.owed_of_raise hrun hheard t.isOpen with (hp | hp | hp) | hmem
    · rw [hsettled.1] at hp
      cases hp
    · rcases hsettled.2 with hphase | hphase <;> rw [hphase] at hp <;> cases hp
    · rw [hempty] at hp
      cases hp
    · exact hmem
  have haccounted : t.Accounted := by
    have := accounted_of_drive hs hq hopen n script
    rwa [drive_of_suspension hsusp] at this
  obtain ⟨obeyed, closing, hacted, -, hobeyed⟩ := haccounted.split
  have hdrop : (obeyed.drop (Relay.taken before).length).map SupervisorEvent.signalReceived =
      Relay.taken after := by
    rw [List.map_drop, hobeyed, htrace, Relay.taken_append, List.drop_left]
    rfl
  rw [← hdrop] at htaken
  obtain ⟨kind', hkind, heq⟩ := List.mem_map.mp htaken
  cases heq
  rw [hacted, List.drop_append]
  exact List.mem_append_left _ hkind

/-- A step that a task takes by itself. -/
def Happening.ByTask (x : Happening) : Prop := ∃ a h, x = .source a h ∧ a.byTask = true

/-- What a happening of a task does to the source: a step of the task, if it can take one. -/
private theorem Station.apply_source (s : Station) (a : SignalAction) (h : a.byReceiver = false) :
    (s.apply (.source a h)).source = (s.source.step a).getD s.source := by
  dsimp only [Station.apply]
  split <;> rename_i hstep <;> exact (congrArg (Option.getD · s.source) hstep).symm

/-- The steps of the tasks pay nothing of what is owed. -/
private theorem owed_of_byTask {s : Station} {kind : SignalKind} {happenings : List Happening}
    (htask : ∀ x ∈ happenings, x.ByTask) (hs : s.source.Owed .signalReceived kind) :
    (station.act happenings s).source.Owed .signalReceived kind := by
  induction happenings generalizing s with
  | nil => exact hs
  | cons x happenings ih =>
    refine ih (s := s.apply x) (fun y hy => htask y (List.mem_cons_of_mem _ hy)) ?_
    obtain ⟨a, h, rfl, ha⟩ := htask x List.mem_cons_self
    have hopen := (s.apply (.source a h)).isOpen
    rw [s.apply_source a h] at hopen ⊢
    cases hstep : s.source.step a with
    | none => exact hs
    | some source =>
      rw [hstep] at hopen
      exact (Relay.steps_of_step hstep).owed_of_byTask hs hopen ha

/-- The tasks come to rest after finitely many steps. -/
private theorem exists_idle (s : Station) : ∃ happenings : List Happening,
    (∀ x ∈ happenings, x.ByTask) ∧ happenings.length ≤ s.source.work ∧
      (station.act happenings s).source.Idle signalChannelCapacity .signalReceived := by
  induction hn : s.source.work using Nat.strongRecOn generalizing s with
  | ind n ih =>
    by_cases hidle : s.source.Idle signalChannelCapacity .signalReceived
    · exact ⟨[], by simp, Nat.zero_le _, hidle⟩
    · obtain ⟨a, ha, source, hstep⟩ : ∃ a, a.byTask = true ∧ ∃ source : SignalSource,
          s.source.step a = some source := by
        by_contra hnone
        refine hidle fun a ha => Option.eq_none_iff_forall_ne_some.mpr fun source hstep => ?_
        exact hnone ⟨a, ha, source, hstep⟩
      have hreceiver := Relay.Action.not_byReceiver ha
      have hless := (Relay.steps_of_step hstep).work_le
      rw [Relay.raised_eq_nil_of_byTask ha] at hless
      have hsource : (s.apply (.source a hreceiver)).source = source := by
        rw [s.apply_source, hstep, Option.getD_some]
      obtain ⟨happenings, htask, hlen, hrest⟩ := ih source.work
        (by simp only [List.length_nil] at hless; omega) _ (congrArg Relay.State.work hsource)
      refine ⟨.source a hreceiver :: happenings, fun x hx => ?_, ?_, hrest⟩
      · rcases List.mem_cons.mp hx with rfl | hx
        · exact ⟨a, hreceiver, rfl, ha⟩
        · exact htask x hx
      · simp only [List.length_cons, List.length_nil] at hless ⊢
        omega

/-- A channel that holds a signal answers the `select!`. -/
private theorem station_select_isSome {c : Child} {timer : Option Instant} {s : Station}
    (h : s.sys.world.signals ≠ []) :
    (station.poll (.select c timer true) s).1.isSome = true := by
  cases hpoll : station.poll (.select c timer true) s with
  | mk r t =>
    cases r with
    | some w => rfl
    | none =>
      have hnone := signals_eq_nil_of_stalls ⟨s, .here s, hpoll⟩
      have hq : t.sys.world.signals = s.sys.world.signals := by
        rcases signals_of_select (station_poll_sys hpoll) with ⟨ev, hev, -⟩ | ⟨hq, -⟩
        · cases hev
        · exact hq
      exact absurd (hq ▸ hnone) h

/-- A signal that a listener has heard wakes the loop. However its tasks are scheduled, once
none of them can take a step by itself the `select!` is answered; and they come to that
after finitely many steps, no more than there is work for. -/
theorem select_wakes_on_signal (s : Station) (kind : SignalKind)
    (howed : s.source.Owed .signalReceived kind) (c : Child) (timer : Option Instant) :
    (∀ happenings : List Happening, (∀ x ∈ happenings, x.ByTask) →
      (station.act happenings s).source.Idle signalChannelCapacity .signalReceived →
      (station.poll (.select c timer true) (station.act happenings s)).1.isSome = true) ∧
    ∃ happenings : List Happening, (∀ x ∈ happenings, x.ByTask) ∧
      happenings.length ≤ s.source.work ∧
      (station.act happenings s).source.Idle signalChannelCapacity .signalReceived := by
  refine ⟨fun happenings htask hidle => station_select_isSome fun hempty => ?_, exists_idle s⟩
  have hq : (station.act happenings s).source.queue = [] := by
    rw [(station.act happenings s).queue_eq, hempty]
  obtain ⟨hpending, hphase⟩ := hidle.settled (station.act happenings s).heard
    (station.act happenings s).isOpen (by rw [hq]; decide) kind
  rcases owed_of_byTask htask howed with hp | hp | hp
  · rw [hpending] at hp
    cases hp
  · rcases hphase with hphase | hphase <;> rw [hphase] at hp <;> cases hp
  · rw [hq] at hp
    cases hp

/-- The four tasks register their listeners, and a hangup is raised twice before its task
looks: it is sent once. -/
def hangupTwice : List Happening :=
  [.source (.install .terminate true) rfl, .source (.install .interrupt true) rfl,
    .source (.install .userDefined1 true) rfl, .source (.install .hangup true) rfl,
    .source (.raise .hangup) rfl, .source (.raise .hangup) rfl,
    .source (.receive .hangup) rfl, .source (.push .hangup) rfl]

/-- The child exits once it is terminated for the hangup. -/
def hangupScript : List (List Happening) :=
  [hangupTwice, [.outside (.exit 0 ⟨15⟩) (fun _ h => by cases h) (fun h => by cases h)]]

theorem run_signals_in_order_hangup :
    ∃ obeyed closing : List SignalKind,
      (station.drive (runFor 2) hangupScript
        (.start ⟨.initial, .initial .unix⟩ rfl rfl)).state.sys.acted = obeyed ++ closing ∧
      obeyed ++ closing = [.hangup] := by
  obtain ⟨obeyed, closing, hacted, -⟩ := run_signals_in_order _
    (Sys.fresh_initial .initial .unix rfl) rfl rfl 2 hangupScript _ rfl
  exact ⟨obeyed, closing, hacted, hacted ▸ by decide +kernel⟩

/-- After the hangup has been raised and before its task has looked. -/
theorem select_wakes_on_signal_hangup :
    ∃ happenings : List Happening, (∀ x ∈ happenings, x.ByTask) ∧
      happenings.length ≤ 16 ∧
      (station.act happenings (station.act (hangupTwice.take 6)
        (.start ⟨.initial, .initial .unix⟩ rfl rfl))).source.Idle
          signalChannelCapacity .signalReceived :=
  (select_wakes_on_signal (station.act (hangupTwice.take 6)
    (.start ⟨.initial, .initial .unix⟩ rfl rfl)) .hangup (.inl rfl) ⟨0⟩ none).2.imp
      fun _ h => ⟨h.1, le_trans h.2.1 (by decide +kernel), h.2.2⟩

theorem run_obeys_signals_hangup :
    SignalKind.hangup ∈ (station.drive (runFor 2) hangupScript
      (.start ⟨.initial, .initial .unix⟩ rfl rfl)).state.sys.acted.drop 0 := by
  refine run_obeys_signals _ (Sys.fresh_initial .initial .unix rfl) rfl rfl 2 hangupScript ⟨1⟩ none
    _ rfl ?_ [.install .terminate true, .install .interrupt true, .install .userDefined1 true,
      .install .hangup true] _ .hangup rfl _ rfl (.inl rfl)
  intro a ha
  cases a with
  | install kind ok => cases kind <;> cases ok <;> rfl
  | receive kind => cases kind <;> rfl
  | push kind => cases kind <;> rfl
  | refuse kind => cases kind <;> rfl
  | _ => cases ha

end RustyAutossh
