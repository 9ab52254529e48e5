import RustyAutossh.Loop.Owing

/-!
# The lifetime deadline

The deadline is looked at only at the top of the loop. A turn begun before it may be told of
a loss or a renewing signal, and wait for a termination or for the backoff, until after it.
The deadline dominates a run in which every await that ends while a child is owed ends in time.
-/

namespace RustyAutossh

open Async Runtime

/-- The run is over because of the lifetime check, which has been announced, or of a request
to stop; no process is left alive. -/
structure ShutDown (out : End AutosshError Flow) (t : Sys) : Prop where
  returned : out = .ret .returned
  still : t.world.Still
  reason : (loopEvents t.world.history).getLast? = some .expired ∧
      (t.sup.eventTx ≠ none → t.world.inboxOpen = true →
        ∃ e ∈ t.world.history, e.act = .emitted .maxLifetimeReached) ∨
    ∃ kind : SignalKind, kind.stops = true ∧
      (loopEvents t.world.history).getLast? = some (.ticked (.signal kind))

/-- An execution that has neither been suspended nor come to the top of the loop. -/
def IsOver (out : End AutosshError Flow) : Prop :=
  out ≠ .pending ∧ ∀ next, out ≠ .ret (.looping next)

/-- From the deadline on nothing is spawned, the cap is not reported, and an outcome leads to
the lifetime check at the top of the loop and to a shutdown. -/
structure Dominates (deadline : Instant) (out : End AutosshError Flow) (t : Sys) : Prop where
  spawns : ∀ e ∈ t.world.history, e.IsSpawn → e.time < deadline
  capped : (∃ a, out = .fail (.maxStartReached a)) → t.world.now < deadline
  looping : (∃ next, out = .ret (.looping next)) →
    (∃ e ∈ t.world.history, e.IsOutcome ∧ deadline ≤ e.time) → t.Expired
  ended : IsOver out → (∃ e ∈ t.world.history, e.IsOutcome ∧ deadline ≤ e.time) → ShutDown out t

/-- A tick of a turn that does not go on shuts the run down, or was a loss or a renewal. -/
private theorem Turn.outcome_cases {s t : Sys} {next : Option Instant} {c : Child}
    {es : List Entry} {out : End AutosshError Flow} (h : Turn s next c es out t)
    (hout : IsOver out) {e : Entry} (he : e ∈ es) (houtcome : e.IsOutcome) :
    e.Replaces ∨ out = .ret .returned ∧
      ∃ kind : SignalKind, kind.stops = true ∧ loopEvents es = [.ticked (.signal kind)] := by
  obtain ⟨outcome, hact⟩ := houtcome
  have hmem := mem_marks he hact
  cases h with
  | expired _ hem hterm => simp [hem.marks_eq, hterm.marks_eq] at hmem
  | waitFailed => simp at hmem
  | probeOverflow _ hfails =>
    cases hfails with
    | overflow => cases hmem
  | probeOk => exact absurd rfl (hout.2 _)
  | terminateFailed _ hticks hem hterm =>
    simp only [marks_append, hticks.marks_eq, marks_passed_cons, hem.marks_eq, hterm.marks_eq,
      List.append_nil, List.nil_append, List.mem_singleton, Mark.ticked.injEq] at hmem
    subst hmem
    exact .inl ⟨.probeTimeout, rfl, hact⟩
  | lost _ hlost _ hset =>
    simp only [marks_append, hlost.marks_eq, marks_passed_cons, hset.marks_eq, List.mem_append,
      List.mem_singleton, Mark.ticked.injEq, reduceCtorEq, or_false] at hmem
    subst hmem
    refine .inl ⟨_, ?_, hact⟩
    rcases hlost.cause with rfl | ⟨rfl, -⟩ <;> rfl
  | stopped _ _ hstops hem hterm =>
    exact .inr ⟨rfl, _, hstops, loopEvents_winding hem hterm rfl⟩
  | renewed _ _ hrenews hem hterm hl =>
    simp only [marks_passed_cons, marks_append, hem.marks_eq, hterm.marks_eq, hl.marks_eq,
      List.append_nil, List.mem_singleton, Mark.ticked.injEq] at hmem
    subst hmem
    exact .inl ⟨_, by simp [LoopOutcome.replaces, hrenews], hact⟩

/-- A run that is over has shut down if it saw an outcome at or after the deadline, provided
that was neither a loss nor a renewing signal. -/
private theorem RunEnd.shutDown {s₀ t : Sys} {n : Nat} {out : End AutosshError Flow}
    (h : RunEnd s₀ n out t) (hs : s₀.Fresh) {d : Duration}
    (hd : s₀.sup.clock.maxLifetime = some d) (hout : IsOver out) {e : Entry}
    (he : e ∈ t.world.history) (houtcome : e.IsOutcome)
    (hle : s₀.sup.lifetimeStart + d ≤ e.time)
    (hseen : ∀ e ∈ t.world.history, e.Replaces → e.time < s₀.sup.lifetimeStart + d) :
    ShutDown out t := by
  have hstill := fun hclosed => h.still hs.still hclosed
  cases h with
  | looping => exact absurd rfl (hout.2 _)
  | @closed m es out t _ hfin =>
    have hhist : t.world.history = es := hfin.runs.history_of_fresh hs
    have heventTx : t.sup.eventTx = s₀.sup.eventTx := hfin.runs.settings.eventTx
    rw [hhist] at he hseen
    cases hfin with
    | start hl =>
      obtain ⟨outcome, hact⟩ := houtcome
      have hmem := mem_marks he hact
      simp [hl.marks_eq] at hmem
    | @turn m es fs s t next c out hr hturn =>
      rcases List.mem_append.mp he with he' | he'
      · have hexp := hr.expired hd (le_trans hle (hr.runs.times he').2)
        obtain ⟨hret, hev, hemitted⟩ := hturn.of_expired hexp
        have htx : s.sup.eventTx = s₀.sup.eventTx := hr.runs.settings.eventTx
        subst hret
        refine ⟨rfl, hstill trivial, .inl ⟨by rw [hhist]; simp [hev], fun hne hopen => ?_⟩⟩
        obtain ⟨e', he', hact⟩ := hemitted (by rwa [htx, ← heventTx]) hopen
        exact ⟨e', by rw [hhist]; exact List.mem_append_right _ he', hact⟩
      · rcases hturn.outcome_cases hout he' houtcome with hreplaces | ⟨hret, kind, hstops, hev⟩
        · exact absurd (hseen e he hreplaces) (Nat.not_lt.mpr hle)
        · subst hret
          exact ⟨rfl, hstill trivial, .inr ⟨kind, hstops, by rw [hhist]; simp [hev]⟩⟩

/-- An operation whose answer may take time. -/
def Op.IsAwait : Op → Prop
  | .wait _ | .waitTimeout _ _ | .send _ _ | .sleepUntil _ | .select _ _ _ | .roundtrip _ _ _ =>
    True
  | _ => False

/-- An await that ends while a child is owed, be it the one that tells of the loss or of the
renewing signal, a wait for the old child or the backoff, ends before the deadline. -/
def Op.InTime (deadline : Instant) (owing : Bool) (op : Op) (s : Sys) : Prop :=
  owing = true → op.IsAwait → s.world.now < deadline

instance (op : Op) : Decidable op.IsAwait := by
  unfold Op.IsAwait
  split <;> infer_instance

instance (deadline : Instant) (owing : Bool) (op : Op) (s : Sys) :
    Decidable (op.InTime deadline owing s) :=
  inferInstanceAs (Decidable (_ → _ → _))

/-- What has been spawned, lost or renewed so far was so before the deadline. -/
def Sys.Timely (s : Sys) (deadline : Instant) : Prop :=
  ∀ e ∈ s.world.history, e.IsSpawn ∨ e.Replaces → e.time < deadline

/-- Only a spawn and the outcome of a tick matter to that. -/
private theorem keeps_timely (deadline : Instant) :
    host.Keeps (fun op => op.Untold ∧ ∀ path args, op ≠ .spawn path args)
      fun s => s.Timely deadline where
  poll {op s} hop hs e he hmatters := by
    obtain ⟨es, hhist, hes⟩ := writes_poll op s
    have he : e ∈ (poll op s).2.world.history := he
    rw [hhist] at he
    rcases List.mem_append.mp he with he | he
    · exact hs e he hmatters
    · rcases hmatters with ⟨path, args, result, hact⟩ | ⟨outcome, -, hact⟩
      · exact absurd ((hes e he).1 path args result hact) (hop.2 path args)
      · have huntold := hop.1
        rw [(hes e he).2 _ hact] at huntold
        exact huntold.elim
  act {s} events hs e he := by
    have he : e ∈ (s.apply events).world.history := he
    rw [(s.passes_apply events).world.history, List.append_nil] at he
    exact hs e he

/-- Done before the deadline, what is due leaves the log timely. -/
private theorem Sys.Timely.answers {deadline : Instant} {owing : Bool} {op : Op} {s t : Sys}
    {a : op.Answer} (h : s.Timely deadline) (hop : op.Due owing)
    (hnow : owing = true → s.world.now < deadline) (hans : host.Answers op s a t) :
    t.Timely deadline := by
  cases op with
  | spawn path args =>
    obtain ⟨-, rfl⟩ := (answers_of_ready rfl).mp hans
    obtain ⟨-, es, hhist, -, htimes⟩ := stamps_poll (.spawn path args) s
    intro e he hmatters
    rcases List.mem_append.mp (hhist ▸ he) with he | he
    · exact h e he hmatters
    · rw [htimes e he]
      exact hnow hop
  | trace m =>
    obtain ⟨-, rfl⟩ := (answers_of_ready rfl).mp hans
    intro e he hmatters
    rcases List.mem_append.mp he with he | he
    · exact h e he hmatters
    · obtain rfl := List.mem_singleton.mp he
      rcases hmatters with ⟨path, args, result, hact⟩ | ⟨outcome, hreplaces, hact⟩
      · cases hact
      · cases hact
        exact hnow (hop hreplaces)
  | _ =>
    refine (keeps_timely deadline).answers ?_ h hans
    exact ⟨trivial, by simp⟩

/-- An operation that is no await is answered at once. -/
private theorem answers_now {op : Op} {s t : Sys} {a : op.Answer} (hop : ¬ op.IsAwait)
    (h : host.Answers op s a t) : t.world.now = s.world.now := by
  obtain ⟨u, hwaits, hp⟩ := h
  have hnow := (stamps_poll op s).1
  cases hwaits with
  | here =>
    have hp : poll op s = (some a, t) := hp
    rw [hp] at hnow
    exact hnow
  | wake e hpending =>
    cases op with
    | wait | waitTimeout | send | sleepUntil | select | roundtrip => exact absurd trivial hop
    | _ => simp [host, poll] at hpending

/-- Such an operation owes nothing new. -/
private theorem owing_of_not_isAwait {owing : Bool} {op : Op} {a : op.Answer}
    (hop : ¬ op.IsAwait) (h : Op.owing owing op a = true) : owing = true := by
  cases op with
  | wait | waitTimeout | send | sleepUntil | select | roundtrip => exact absurd trivial hop
  | spawn => cases h
  | _ => exact h

/-- While awaits end in time, what is due is done before the deadline. -/
private theorem host_follows (deadline : Instant) :
    host.Follows Op.owing (fun owing op s => op.InTime deadline owing s) Op.Due
      (fun owing s => s.Timely deadline ∧ (owing = true → s.world.now < deadline))
      fun s => s.Timely deadline where
  answered {owing op s a t} hop hs hans hin := by
    refine ⟨hs.1.answers hop hs.2 hans, fun howing => ?_⟩
    by_cases hawait : op.IsAwait
    · exact hin howing hawait
    · rw [answers_now hawait hans]
      exact hs.2 (owing_of_not_isAwait hawait howing)
  stalled {owing op s t} hop hs hstalls := by
    have hquiet : op.Untold ∧ ∀ path args, op ≠ .spawn path args := by
      cases op with
      | wait | waitTimeout | send | sleepUntil | select | roundtrip => exact ⟨trivial, by simp⟩
      | _ => exact absurd hstalls (not_stalls_of_ready rfl)
    exact (keeps_timely deadline).stalls hquiet hs.1 hstalls
  weaker hs := hs.1

/-- A supervisor that is to run for forty seconds at most. -/
def Supervisor.fortySeconds : Supervisor :=
  { Supervisor.initial with
    clock := { PollClock.default with
      gateTime := Duration.fromSecs 60
      maxLifetime := some (Duration.fromSecs 40) } }

/-- A supervisor with a shorter backoff. -/
def Supervisor.tenSeconds : Supervisor :=
  { Supervisor.fortySeconds with
    clock := { Supervisor.fortySeconds.clock with gateTime := Duration.fromSecs 10 } }

/-- A crash after five seconds, the backoff, and a request to stop after fifty seconds. -/
def crashInTime : List (List Event) :=
  [[.elapse (Duration.fromSecs 5), .exit 0 ⟨256⟩], [.elapse (Duration.fromSecs 10)],
    [.elapse (Duration.fromSecs 35), .signal (.signalReceived .terminate)], [.exit 1 ⟨15⟩]]

end RustyAutossh
