import RustyAutossh.Loop.Core
import RustyAutossh.Loop.Footprint

/-!
# Shutdown on request

A request to stop is looked for only by the `select!`, after the child and the probe
timer. Until it is taken it stays in the queue, through a probe, a backoff and the
respawn after it. Once taken, the run spawns nothing more and can only return.
-/

namespace RustyAutossh

open Async Runtime

/-- A line that logs that the `select!` has taken a request to stop. -/
def Entry.IsStop (e : Entry) : Prop :=
  ∃ kind : SignalKind, kind.stops = true ∧ e.act = .passed (.ticked (.signal kind))

private theorem not_isStop_of_marks {es : List Entry}
    (h : ∀ kind : SignalKind, kind.stops = true → .ticked (.signal kind) ∉ marks es) :
    ∀ e ∈ es, ¬ e.IsStop := by
  rintro e he ⟨kind, hstops, hact⟩
  exact h kind hstops (mem_marks he hact)

/-- A turn takes no request to stop, or it spawns nothing and the run returns. -/
theorem Turn.stop_cases {s t : Sys} {next : Option Instant} {c : Child} {es : List Entry}
    {out : End AutosshError Flow} (h : Turn s next c es out t) :
    (∀ e ∈ es, ¬ e.IsStop) ∨ out = .ret .returned ∧ ∀ e ∈ es, ¬ e.IsSpawn := by
  cases h with
  | expired _ hem hterm =>
    exact .inl (not_isStop_of_marks (by simp [hem.marks_eq, hterm.marks_eq]))
  | waitFailed => exact .inl (by simp)
  | probeOverflow _ hfails =>
    cases hfails with
    | overflow =>
      refine .inl (not_isStop_of_marks fun kind _ => ?_)
      show _ ∉ ([] : List Mark)
      simp
  | probeOk _ hticks => exact .inl (not_isStop_of_marks (by simp [hticks.marks_eq]))
  | terminateFailed _ hticks hem hterm =>
    exact .inl (not_isStop_of_marks (by simp [hticks.marks_eq, hem.marks_eq, hterm.marks_eq]))
  | lost _ hlost _ hset =>
    refine .inl (not_isStop_of_marks fun kind _ => ?_)
    rcases hlost.cause with rfl | ⟨rfl, -⟩ <;> simp [hlost.marks_eq, hset.marks_eq]
  | stopped _ _ _ hem hterm =>
    exact .inr ⟨rfl, not_isSpawn_winding hem hterm⟩
  | @renewed kind es fs gs a b d t out _ _ hrenews hem hterm hl =>
    refine .inl (not_isStop_of_marks fun kind' hstops => ?_)
    simp only [marks_passed_cons, marks_append, hem.marks_eq, hterm.marks_eq, hl.marks_eq,
      List.append_nil, List.mem_singleton]
    rintro ⟨⟩
    rw [hstops] at hrenews
    cases hrenews

/-- Only the turn that ends the run takes a request to stop. -/
private theorem isStop_onlyInLastTurn (s₀ : Sys) :
    OnlyInLastTurn s₀ Entry.IsStop (· = .ret .returned) where
  ends := by simp
  launch hl := not_isStop_of_marks (by simp [hl.marks_eq])
  turn _ hturn := hturn.stop_cases

/-- No request to stop has been taken. -/
def Sys.Unstopped (s : Sys) : Prop := ∀ e ∈ s.world.history, ¬ e.IsStop

/-- The event channel is open and full. -/
def Sys.Clogged (s : Sys) : Prop :=
  ∃ tx, s.sup.eventTx = some tx ∧ s.world.inboxOpen = true ∧ tx.capacity ≤ s.world.inbox.length

/-- What a run may still wait for once it is stopping: its child, and room for an event. -/
def Sys.Winding (s : Sys) : Prop := 0 < s.world.alive ∨ s.Clogged

/-- Only logging the outcome of a tick can take a request to stop. -/
private theorem keeps_unstopped : host.Keeps Op.Untold Sys.Unstopped where
  poll {op s} hop hs e he hstop := by
    obtain ⟨es, hhist, hes⟩ := writes_poll op s
    have he : e ∈ (poll op s).2.world.history := he
    rw [hhist] at he
    rcases List.mem_append.mp he with he | he
    · exact hs e he hstop
    · obtain ⟨kind, -, hact⟩ := hstop
      rw [(hes e he).2 _ hact] at hop
      exact hop
  act {s} events hs e he := by
    have he : e ∈ (s.apply events).world.history := he
    rw [(s.passes_apply events).world.history, List.append_nil] at he
    exact hs e he

private theorem whileWaiting_this {α : Type} {R : Sys → Prop} {s : Sys}
    {k : Op.this.Answer → Future α} :
    host.whileWaiting R (await .this >>= k) s ↔ host.whileWaiting R (k s.sup) s :=
  whileWaiting_call_of_ready rfl

/-- An event is waited with only while its channel is open and full. -/
private theorem clogged_emit (ev : SupervisorEvent) (s : Sys) :
    host.whileWaiting Sys.Clogged (emit ev) s := by
  rw [emit, whileWaiting_this]
  cases htx : s.sup.eventTx with
  | none => trivial
  | some tx =>
    refine ⟨fun t ht => ⟨tx, ?_, stalls_send ht⟩, fun _ _ _ => trivial⟩
    rw [(passes_of_stalls ht).sup, htx]

/-- Handling a request to stop waits for the child and for room for its event only. -/
private theorem winding_onSignal {kind : SignalKind} (hstops : kind.stops = true) (s : Sys) :
    host.whileWaiting Sys.Winding (onSignal kind) s := by
  have hdismiss : ∀ t, host.whileWaiting Sys.Winding
      (do let _ ← terminateChild.attempt; (pure () : Future Unit)) t := fun t =>
    whileWaiting_of_stalls (fun op hop u v hv => .inl (alive_of_stalls_terminating hop hv))
      dismiss_only t
  refine whileWaiting_bind.mpr ⟨whileWaiting_mono (fun _ => .inr) (clogged_emit _ s), ?_⟩
  refine wp_of_forall (fun _ t => ?_) (fun _ _ => trivial) (fun _ => trivial) _ _
  have hreturn : host.whileWaiting Sys.Winding
      (do (do let _ ← terminateChild.attempt; (pure () : Future Unit)); pure Flow.returned) t :=
    whileWaiting_bind.mpr ⟨hdismiss t,
      wp_of_forall (fun _ _ => trivial) (fun _ _ => trivial) (fun _ => trivial) _ _⟩
  cases kind with
  | userDefined1 => cases hstops
  | hangup => cases hstops
  | _ => exact hreturn

/-- A turn begun before any request was taken waits either still before, or winding down. -/
private theorem winding_turn {s : Sys} (hs : s.Unstopped) (next : Option Instant) :
    host.whileWaiting (fun t => t.Unstopped ∨ t.Winding) (turn next) s := by
  refine (whileWaiting_call_of_ready rfl).mpr ((whileWaiting_call_of_ready rfl).mpr ?_)
  show host.whileWaiting _
    (if s.sup.checkLifetime s.world.now = some (.exit .maxLifetimeReached) then onExpired
      else _) s
  split
  · exact whileWaiting_mono (fun _ => .inl)
      (keeps_unstopped.whileWaiting (untold_of_outside onExpired_outside) hs)
  · refine whileWaiting_bind.mpr ⟨whileWaiting_mono (fun _ => .inl)
      (keeps_unstopped.whileWaiting (selectOneTick_untold next) hs), ?_⟩
    refine wp_mono (fun r t ht => ?_) (fun _ _ _ => trivial) (fun _ _ => trivial)
      (keeps_unstopped.wp (selectOneTick_untold next) hs)
    obtain ⟨outcome, next'⟩ := r
    refine (whileWaiting_call_of_ready rfl).mpr ?_
    show host.whileWaiting _ (onOutcome next' outcome) (t.mark (.ticked outcome))
    by_cases hstop : ∃ kind : SignalKind, kind.stops = true ∧ outcome = .signal kind
    · obtain ⟨kind, hstops, rfl⟩ := hstop
      exact whileWaiting_mono (fun _ => .inr) (winding_onSignal hstops _)
    · refine whileWaiting_mono (fun _ => .inl)
        (keeps_unstopped.whileWaiting (untold_of_outside (onOutcome_outside next' outcome)) ?_)
      intro e he
      rcases List.mem_append.mp he with he | he
      · exact ht e he
      · rw [List.mem_singleton.mp he]
        rintro ⟨kind, hstops, hact⟩
        cases hact
        exact hstop ⟨kind, hstops, rfl⟩

/-- A run that has taken a request to stop waits only to wind down. -/
private theorem winding_runFor {s₀ : Sys} (hs : s₀.Fresh) (n : Nat) :
    host.whileWaiting (fun t => t.Unstopped ∨ t.Winding) (runFor n) s₀ := by
  have hfresh : s₀.Unstopped := by simp [Sys.Unstopped, hs.history]
  induction n with
  | zero =>
    exact whileWaiting_mono (fun _ => .inl)
      (keeps_unstopped.whileWaiting (untold_of_outside (outside_of_gentle startUp_gentle)) hfresh)
  | succ n ih =>
    refine whileWaiting_bind.mpr ⟨ih, ?_⟩
    refine wp_mono (fun flow t ht => ?_) (fun _ _ _ => trivial) (fun _ _ => trivial)
      (wp_runFor hs.still n)
    cases flow with
    | returned => trivial
    | looping next =>
      refine winding_turn ?_ next
      rcases (isStop_onlyInLastTurn s₀).runEnd hs ht with hnone | ⟨hret, -⟩
      · exact hnone
      · cases hret

/-- The `select!` has nothing to act on: the child lives, no probe is due, no signal waits. -/
structure Sys.Idle (s : Sys) (next : Option Instant) : Prop where
  alive : 0 < s.world.alive
  notDue : ¬ s.ProbeDue next
  signals : s.world.signals = []
  signalsOpen : s.world.signalsOpen = true

/-- The `select!` will act on a signal: the child lives, no probe is due, the signal is next. -/
structure Sys.Asked (s : Sys) (next : Option Instant) (kind : SignalKind) : Prop where
  alive : 0 < s.world.alive
  notDue : ¬ s.ProbeDue next
  signals : s.world.signals.head? = some (.signalReceived kind)

theorem Sys.apply_append (s : Sys) (es fs : List Event) :
    (s.apply es).apply fs = s.apply (es ++ fs) := by
  simp [Sys.apply]

section Waiting

variable {s v : Sys} {next : Option Instant} {c : Child}

/-- While the loop waits, some process is alive only if the child is. -/
private theorem LoopTop.isAlive (htop : LoopTop s next c) (hpass : s.Passes v)
    (halive : 0 < v.world.alive) : v.world.IsAlive c := by
  have hnot : ¬ v.world.Terminated c := fun hterm => by
    have hstill := (hpass.world.onlyChild htop.only).still hterm
    have hzero := v.world.still_iff.mp hstill
    omega
  simpa [World.Terminated, World.IsAlive] using hnot

/-- Before the next probe the timer has not run out. -/
private theorem LoopTop.timer_idle (htop : LoopTop s next c) (hpass : s.Passes v)
    (hdue : ¬ v.ProbeDue next) : ¬ (s.probeTimer next).any (· ≤ v.world.now) = true := by
  intro hany
  obtain ⟨d, hd, hle⟩ := (Option.any_eq_true _ _).mp hany
  exact hdue ((htop.due_iff hpass).mp ⟨d, hd, by simpa using hle⟩)

/-- Polling `wait` on a live child changes nothing. -/
private theorem World.IsAlive.wait_eq {w : World} (h : w.IsAlive c) : w.wait c = (none, w) := by
  obtain ⟨p, hp, hs⟩ := h
  simp [World.wait, hp, hs]

private theorem poll_select_idle (htop : LoopTop s next c) (hpass : s.Passes v)
    (hidle : v.Idle next) : poll (.select c (s.probeTimer next) true) v = (none, v) := by
  have hwait := (htop.isAlive hpass hidle.alive).wait_eq
  have htimer := htop.timer_idle hpass hidle.notDue
  simp [poll, World.select, hwait, htimer, hidle.signals, hidle.signalsOpen]

private theorem poll_select_asked {kind : SignalKind} (htop : LoopTop s next c)
    (hpass : s.Passes v) (hasked : v.Asked next kind) :
    poll (.select c (s.probeTimer next) true) v =
      (some (.received (some (.signalReceived kind))),
        { v with world := { v.world with signals := v.world.signals.tail } }) := by
  have hwait := (htop.isAlive hpass hasked.alive).wait_eq
  have htimer := htop.timer_idle hpass hasked.notDue
  obtain ⟨rest, hq⟩ := List.head?_eq_some_iff.mp hasked.signals
  simp [poll, World.select, hwait, htimer, hq]

/-- A signal that comes while the `select!` has nothing else to do is what it answers with. -/
private theorem await_select {kind : SignalKind} (htop : LoopTop s next c)
    (waiting : List (List Event)) (hpass : s.Passes v)
    (hidle : ∀ front back, waiting = front ++ back → back ≠ [] → (v.apply front.flatten).Idle next)
    (hasked : (v.apply waiting.flatten).Asked next kind) :
    ∃ u, host.await (.select c (s.probeTimer next) true) waiting v =
      (some (.received (some (.signalReceived kind))), u, []) := by
  induction waiting generalizing v with
  | nil =>
    have hasked : v.Asked next kind := hasked
    have hpoll := poll_select_asked htop hpass hasked
    exact ⟨_, by rw [Runtime.await, show host.poll = poll from rfl, hpoll]⟩
  | cons events waiting ih =>
    have hpoll := poll_select_idle htop hpass (hidle [] _ rfl (by simp))
    obtain ⟨u, hu⟩ := ih (hpass.passes (v.passes_apply events))
      (fun front back heq hne => by
        rw [Sys.apply_append]
        exact hidle (events :: front) back (by simp [heq]) hne)
      (by rw [Sys.apply_append]; exact hasked)
    refine ⟨u, ?_⟩
    simp only [Runtime.await, show host.poll = poll from rfl, hpoll]
    exact hu

end Waiting

/-- Such a signal is the outcome of the tick. -/
private theorem drive_selectOneTick {s : Sys} {next : Option Instant} {c : Child}
    {kind : SignalKind} {waiting : List (List Event)} (htop : LoopTop s next c)
    (hrx : s.sup.signalRx ≠ none)
    (hidle : ∀ front back, waiting = front ++ back → back ≠ [] → (s.apply front.flatten).Idle next)
    (hasked : (s.apply waiting.flatten).Asked next kind) :
    ∃ u, host.drive (selectOneTick next) waiting s = ⟨.ret (.signal kind, next), u, []⟩ := by
  have hanswer : ∀ signals, signals = true →
      ∃ u, host.await (.select c (s.probeTimer next) signals) waiting s =
        (some (.received (some (.signalReceived kind))), u, []) := by
    rintro _ rfl
    exact await_select htop waiting (.refl s) hidle hasked
  obtain ⟨u, hu⟩ := hanswer _ (Option.isSome_iff_ne_none.mpr hrx)
  refine ⟨u, ?_⟩
  rw [selectOneTick]
  refine (drive_call_of_ready rfl waiting).trans ((drive_call_of_ready rfl waiting).trans ?_)
  simp only [htop.child]
  refine (drive_call_of_ready rfl waiting).trans ?_
  show host.drive (.call (.select c (s.probeTimer next) s.sup.signalRx.isSome) _) waiting s = _
  simp only [Runtime.drive, hu]
  rfl

/-- Such a signal is taken by the turn. -/
private theorem turn_takes {s : Sys} {next : Option Instant} {c : Child} {kind : SignalKind}
    {waiting : List (List Event)} (htop : LoopTop s next c) (hexp : ¬ s.Expired)
    (hrx : s.sup.signalRx ≠ none)
    (hidle : ∀ front back, waiting = front ++ back → back ≠ [] → (s.apply front.flatten).Idle next)
    (hasked : (s.apply waiting.flatten).Asked next kind) :
    ∃ e ∈ (host.drive (turn next) waiting s).state.world.history,
      e.act = .passed (.ticked (.signal kind)) := by
  obtain ⟨u, hu⟩ := drive_selectOneTick htop hrx hidle hasked
  have hturn : host.drive (turn next) waiting s =
      host.drive (onOutcome next (.signal kind)) [] (u.mark (.ticked (.signal kind))) := by
    rw [turn]
    refine (drive_call_of_ready rfl waiting).trans ((drive_call_of_ready rfl waiting).trans ?_)
    show host.drive (if s.sup.checkLifetime s.world.now = some (.exit .maxLifetimeReached)
      then onExpired else _) waiting s = _
    have hexp : ¬ s.sup.checkLifetime s.world.now = some (.exit .maxLifetimeReached) := hexp
    rw [if_neg hexp, drive_bind_of_ret hu]
    exact drive_call_of_ready rfl []
  rw [hturn]
  have hgrows := host_logGrows.drive (onOutcome next (.signal kind)) []
    (u.mark (.ticked (.signal kind)))
  exact ⟨u.line (.passed (.ticked (.signal kind))),
    hgrows.subset (by simp [Sys.mark, World.log, Sys.line]), rfl⟩

/-- Such a signal is taken by the next turn of a run at the top of its loop. -/
private theorem execute_takes {s₀ s : Sys} (hs : s₀.world.Still) {n : Nat}
    {script waiting : List (List Event)} {next : Option Instant} {kind : SignalKind}
    (hexec : execute n script s₀ = ⟨.ret (.looping next), s, []⟩) (hexp : ¬ s.Expired)
    (hrx : s.sup.signalRx ≠ none)
    (hidle : ∀ front back, waiting = front ++ back → back ≠ [] → (s.apply front.flatten).Idle next)
    (hasked : (s.apply waiting.flatten).Asked next kind) :
    ∃ e ∈ (execute (n + 1) (script ++ waiting) s₀).state.world.history,
      e.act = .passed (.ticked (.signal kind)) := by
  obtain ⟨es, c, hr⟩ := reaches_of_execute hs hexec
  have hlong : host.drive (runFor n) (script ++ waiting) s₀ =
      ⟨.ret (.looping next), s, waiting⟩ := by
    have hshort : host.drive (runFor n) script s₀ = ⟨.ret (.looping next), s, []⟩ := hexec
    have hend : (host.drive (runFor n) script s₀).out ≠ .pending := by rw [hshort]; simp
    rw [drive_append hend waiting, hshort]
    rfl
  have hstep : execute (n + 1) (script ++ waiting) s₀ = host.drive (turn next) waiting s := by
    rw [execute, runFor, drive_bind_of_ret hlong]
  rw [hstep]
  exact turn_takes hr.loopTop hexp hrx hidle hasked

/-- A request to stop that the `select!` has taken is the end: no spawn comes after it, and
the run returns, until then waiting only for its child or for room for an event. The `select!`
takes it when it finds it first in the queue with the child alive and no probe due. -/
theorem run_stops_on_request (s₀ : Sys) (hs : s₀.Fresh) (n : Nat) (script : List (List Event)) :
    (execute n script s₀).state.world.history.Pairwise (fun e e' => e.IsStop → ¬ e'.IsSpawn) ∧
    (∀ e ∈ (execute n script s₀).state.world.history, e.IsStop →
      (execute n script s₀).out = .ret .returned ∨
        (execute n script s₀).out = .pending ∧ (execute n script s₀).state.Winding) ∧
    ∀ s next kind waiting, execute n script s₀ = ⟨.ret (.looping next), s, []⟩ → ¬ s.Expired →
      s.sup.signalRx ≠ none →
      (∀ front back, waiting = front ++ back → back ≠ [] → (s.apply front.flatten).Idle next) →
      (s.apply waiting.flatten).Asked next kind →
      ∃ e ∈ (execute (n + 1) (script ++ waiting) s₀).state.world.history,
        e.act = .passed (.ticked (.signal kind)) := by
  have honly := isStop_onlyInLastTurn s₀
  refine ⟨honly.no_spawn_after hs n script, fun e he hstop => ?_,
    fun s next kind waiting => execute_takes hs.still⟩
  · by_cases hend : (execute n script s₀).out = .pending
    · have hwind := whileWaiting_sound (winding_runFor hs n) hend
      exact .inr ⟨hend, hwind.resolve_left fun hnone => hnone e he hstop⟩
    · rcases honly.runEnd hs (runEnd_of_execute hs.still hend) with hnone | ⟨hret, -⟩
      · exact absurd hstop (hnone e he)
      · exact .inl hret

/-- A Terminate that comes while the loop waits for its first child is taken. -/
theorem run_stops_on_request_while_waiting :
    ∃ e ∈ (execute 1 [[.signal (.signalReceived .terminate)]]
      ⟨.initial, .initial .unix⟩).state.world.history,
      e.act = .passed (.ticked (.signal .terminate)) := by
  refine (run_stops_on_request _ (Sys.fresh_initial _ _ rfl) 0 []).2.2 _ none .terminate
    [[.signal (.signalReceived .terminate)]] rfl (by decide) (by decide) ?_ ⟨by decide, ?_, rfl⟩
  · rintro (_ | ⟨events, front⟩) back heq hne
    · exact ⟨by decide, (by rintro ⟨t, ht, -⟩; cases ht), rfl, rfl⟩
    · simp [hne] at heq
  · rintro ⟨t, ht, -⟩
    cases ht

/-- A Terminate queued during the backoff does not stop the spawn after it, and one queued
together with the crash that reaches the cap does not keep the run from failing. -/
theorem run_outlives_queued_terminate :
    let before := execute 1 [[.exit 0 ⟨256⟩], [.signal (.signalReceived .terminate)]]
      ⟨.initial, .initial .unix⟩
    let after := execute 1 [[.exit 0 ⟨256⟩], [.signal (.signalReceived .terminate)],
      [.elapse (Duration.fromSecs 30)]] ⟨.initial, .initial .unix⟩
    before.state.world.signals = [.signalReceived .terminate] ∧ before.state.world.spawns = 1 ∧
      after.state.world.spawns = 2 ∧
      (execute 1 [[.signal (.signalReceived .terminate), .exit 0 ⟨256⟩]]
        ⟨{ Supervisor.initial with clock := { PollClock.default with maxStart := some 1 } },
          .initial .unix⟩).out = .fail (.maxStartReached 1) := by
  decide +kernel

end RustyAutossh
