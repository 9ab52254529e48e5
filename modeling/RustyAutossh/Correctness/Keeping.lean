import RustyAutossh.Correctness.SpawnRate
import RustyAutossh.Keeper

/-!
# The supervisor keeps its ssh running

The supervisor is a keeper of one process, checked through the tunnel where there is a monitor.
What an execution logs is, in outline, what a keeper with the supervisor's settings may do. A
keeper makes no more attempts than its budget allows, and so does the supervisor.
-/

namespace RustyAutossh

open Async Runtime
open Keeper (Path)

/-- What the settings of a supervisor make it go by. -/
def Sys.policy (s : Sys) : Keeper.Policy where
  resume t := deadlineAfter s.world.target t s.sup.clock.gateTime
  settled := s.sup.clock.gateTime
  limit := s.sup.clock.maxStart.map UInt32.toNat
  ceiling := 2 ^ 32 - 1
  once := s.sup.oneShot
  replaces := s.sup.monitorMode ≠ .none
  checks := s.sup.monitor.isSome
  firstCheck := s.sup.clock.firstPoll
  interval := s.sup.clock.poll
  expired t := s.sup.checkLifetime t = some (.exit .maxLifetimeReached)

/-- What a respawn decision is for. -/
def RespawnDecision.outline : RespawnDecision → Keeper.Decision
  | .respawn => .again
  | .exit .ok | .exit .maxLifetimeReached => .finish
  | .exit (.maxStartReached _) | .exit .oneShotFailed => .giveUp

/-- What a line of the log is for; an event is for whoever listens. -/
def Act.outline : Act → Option Keeper.Act
  | .spawned _ _ (.ok _) => some (.start true)
  | .spawned _ _ (.error _) => some (.start false)
  | .killed _ _ => some .ask
  | .emitted _ => none
  | .probing _ _ => some .check
  | .probed (some (.ok _)) => some (.checked true)
  | .probed _ => some (.checked false)
  | .passed (.ticked (.childExited status _)) => some (.lose status.success)
  | .passed (.ticked .probeOk) => some .keep
  | .passed (.ticked .probeTimeout) => some .condemn
  | .passed (.ticked (.signal kind)) =>
    some (if kind.stops then .stop else .renew (kind = .hangup))
  | .passed (.decided _ status lifetime decision) =>
    some (.decide status.success lifetime decision.outline)
  | .passed .expired => some .expire

/-- The outline of a log. -/
def outline (es : List Entry) : List (Nat × Keeper.Act) :=
  es.filterMap fun e => e.act.outline.map (e.time, ·)

@[simp] theorem outline_append (es fs : List Entry) :
    outline (es ++ fs) = outline es ++ outline fs :=
  List.filterMap_append

theorem outline_cons {e : Entry} {a : Keeper.Act} (h : e.act.outline = some a)
    (es : List Entry) : outline (e :: es) = (e.time, a) :: outline es := by
  simp [outline, h]

/-- Events are left out. -/
theorem Emitted.outline_eq {s t : Sys} {evs : List SupervisorEvent} {es : List Entry}
    (h : Emitted s evs es t) : outline es = [] := by
  refine List.filterMap_eq_nil_iff.mpr fun e he => ?_
  obtain ⟨ev, -, hev⟩ := List.mem_map.mp (h.acts.subset (List.mem_map_of_mem he))
  rw [← hev]
  rfl

/-- The requests to the child are all that terminating it shows. -/
theorem Terminates.asks {s t : Sys} {c : Child} {es : List Entry} (h : Terminates s c es t) :
    ∀ a ∈ outline es, a.2 = .ask := by
  intro a ha
  obtain ⟨e, he, heq⟩ := List.mem_filterMap.mp ha
  obtain ⟨forced, hact⟩ := h.kills e he
  rw [hact] at heq
  simp only [Act.outline, Option.map_some, Option.some.injEq] at heq
  rw [← heq]

/-- The settings stay as they are. -/
theorem Sys.Runs.policy {s t : Sys} {es : List Entry} (h : s.Runs es t) : t.policy = s.policy := by
  have hset := h.settings
  simp only [Sys.policy, h.target, hset.clock, hset.oneShot, hset.monitorMode, hset.monitor,
    Supervisor.checkLifetime, hset.lifetimeStart]

/-- The respawn decision is a keeper's. -/
theorem Decides.judge {s : Sys} {sup : Supervisor} {status : ExitStatus} {lifetime : Duration}
    {decision : RespawnDecision} (h : Decides s.sup status lifetime decision sup) :
    s.policy.judge s.sup.retryCount.toNat status.success lifetime =
      (decision.outline, sup.retryCount.toNat) := by
  have hcount : (saturatingAddU32 s.sup.retryCount 1).toNat =
      min (s.sup.retryCount.toNat + 1) (2 ^ 32 - 1) := toNat_saturatingAddU32 _ _
  cases h with
  | oneShot hone hfail =>
    simp [Keeper.Policy.judge, Sys.policy, hone, hfail, RespawnDecision.outline]
  | finished hsucc hmode =>
    simp [Keeper.Policy.judge, Sys.policy, hsucc, hmode, RespawnDecision.outline]
  | cleanReset hsucc hmode =>
    simp [Keeper.Policy.judge, Sys.policy, hsucc, hmode, RespawnDecision.outline]
  | longReset hone hfail hlong =>
    simp [Keeper.Policy.judge, Sys.policy, hone, hfail, hlong, RespawnDecision.outline]
  | short hone hfail hshort hroom =>
    have hsoon : ¬ s.sup.clock.gateTime ≤ lifetime := Nat.not_le.mpr hshort
    have hfew : (s.sup.clock.maxStart.map UInt32.toNat).any
        (· ≤ min (s.sup.retryCount.toNat + 1) (2 ^ 32 - 1)) = false := by
      cases hcap : s.sup.clock.maxStart with
      | none => rfl
      | some cap =>
        have hlt := UInt32.lt_iff_toNat_lt.mp (hroom cap hcap)
        rw [hcount] at hlt
        exact decide_eq_false (Nat.not_le.mpr hlt)
    simp only [Keeper.Policy.judge, Sys.policy, hone, hfail, hsoon, hfew, hcount,
      RespawnDecision.outline, Bool.false_eq_true, if_false]
  | capped cap hone hfail hshort hcap hfull =>
    have hsoon : ¬ s.sup.clock.gateTime ≤ lifetime := Nat.not_le.mpr hshort
    have hmany : (s.sup.clock.maxStart.map UInt32.toNat).any
        (· ≤ min (s.sup.retryCount.toNat + 1) (2 ^ 32 - 1)) = true := by
      have hle := UInt32.le_iff_toNat_le.mp hfull
      rw [hcount] at hle
      rw [hcap]
      exact decide_eq_true hle
    simp only [Keeper.Policy.judge, Sys.policy, hone, hfail, hsoon, hmany, hcount,
      RespawnDecision.outline, Bool.false_eq_true, if_false, if_true]

/-- The keeper that a supervisor at the top of its loop is. -/
structure Sys.KeptAs (s : Sys) (next : Option Instant) (k : Keeper.State) : Prop where
  phase : ∃ earliest, k.phase = .up earliest ∧ ∀ t, next = some t → earliest ≤ t
  since : s.sup.childSpawnInstant = some k.since
  failures : k.failures = s.sup.retryCount.toNat

section Turn

variable {s t : Sys} {next : Option Instant} {c : Child} {es : List Entry} {k : Keeper.State}

/-- A process that has been started is minded. -/
private theorem keptAs_of_spawn {evs : List SupervisorEvent} {pid : UInt32}
    (hem : Emitted (s.afterSpawn s.sup.argv pid) evs es t) (hnext : t.firstProbe = some next)
    (hfailures : k.failures = s.sup.retryCount.toNat) :
    t.KeptAs next { k with phase := .up (s.world.now + s.policy.firstCheck)
                           since := s.world.now } := by
  have hsup : t.sup = (s.afterSpawn s.sup.argv pid).sup := hem.logs.sup
  refine ⟨⟨_, rfl, ?_⟩, by rw [hsup]; rfl, by rw [hsup]; exact hfailures⟩
  rintro due rfl
  unfold Sys.firstProbe at hnext
  split at hnext
  · obtain ⟨due', hsum, heq⟩ := Option.map_eq_some_iff.mp hnext
    obtain rfl : due' = due := Option.some.inj heq
    rw [Instant.checkedAdd_eq_some hsum, hsup]
    exact Nat.add_le_add_right hem.logs.world.now _
  · cases hnext

/-- A launch is a start. -/
theorem Launches.path {announced : List SupervisorEvent} {out : End AutosshError Flow}
    (h : Launches s announced es out t) (hk : k.Starts s.world.now)
    (hfailures : k.failures = s.sup.retryCount.toNat) :
    ∃ u, Path s.policy k (outline es) u ∧
      ∀ next, out = .ret (.looping next) → t.KeptAs next u := by
  cases h with
  | failed hres => exact ⟨_, (Keeper.Steps.startFailed hk).path, by simp⟩
  | looping hres hem hnext =>
    rw [outline_cons rfl, hem.outline_eq]
    refine ⟨_, (Keeper.Steps.start hk).path, ?_⟩
    rintro next' ⟨rfl⟩
    exact keptAs_of_spawn hem hnext hfailures
  | overflow hres hem =>
    rw [outline_cons rfl, hem.outline_eq]
    exact ⟨_, (Keeper.Steps.start hk).path, by simp⟩

/-- What a check has shown. -/
theorem outline_probed (r : Option (Except IoError (List UInt8))) :
    (Act.probed r).outline = some (.checked (probeResult r).isOk) := by
  rcases r with _ | ⟨e | bytes⟩ <;> rfl

/-- A probe is a check. -/
private theorem path_probe {a : Sys} {m : ProbeLoop} {r : Option (Except IoError (List UInt8))}
    {payload : List UInt8} (hk : s.KeptAs next k) (hdue : a.ProbeDue next)
    (hmon : s.sup.monitor = some m) : Path s.policy k
      (outline [a.line (.probing m.ports.portIn payload), t.line (.probed r)])
      { k with phase := .checked (probeResult r).isOk } := by
  obtain ⟨earliest, hphase, hle⟩ := hk.phase
  obtain ⟨due, hnext, hpast⟩ := hdue
  have hchecks : s.policy.checks = true := by
    show s.sup.monitor.isSome = true
    rw [hmon]
    rfl
  rw [outline_cons rfl, outline_cons (outline_probed r)]
  exact .cons (.check hphase (le_trans (hle due hnext) hpast) hchecks)
    (Keeper.Steps.checked rfl).path

/-- A probe that decides the tick. -/
private theorem Ticks.path {n : Option Instant} {outcome : LoopOutcome}
    (h : Ticks s next c es outcome n t) (hk : s.KeptAs next k)
    (hout : outcome = .probeOk ∨ outcome = .probeTimeout) :
    Path s.policy k (outline es) { k with phase := .checked (outcome = .probeOk) } ∧
      ∀ due, n = some due → due = t.world.now + s.policy.interval := by
  cases h with
  | @probed a t m r n outcome hpass halive hdue hmon hprobes hn hres =>
    have hok : decide (outcome = .probeOk) = (probeResult r).isOk := by
      rw [hres]
      cases probeResult r <;> rfl
    rw [hok]
    refine ⟨path_probe hk hdue hmon, ?_⟩
    rintro due ⟨rfl⟩
    exact Instant.checkedAdd_eq_some hn
  | exited => rcases hout with h | h <;> cases h
  | signal => rcases hout with h | h <;> cases h

/-- A check that has failed, and the requests after it. -/
private theorem path_condemned {n : Option Instant} {a b d : Sys} {fs gs : List Entry}
    {evs : List SupervisorEvent} (hticks : Ticks s next c es .probeTimeout n a)
    (hem : Emitted (a.mark (.ticked .probeTimeout)) evs fs b) (hterm : Terminates b c gs d)
    (hk : s.KeptAs next k) : Path s.policy k
      (outline (es ++ a.line (.passed (.ticked .probeTimeout)) :: (fs ++ gs)))
      { k with phase := .leaving .judge } := by
  rw [outline_append, outline_cons rfl, outline_append, hem.outline_eq]
  exact (hticks.path hk (.inr rfl)).1.trans (.cons (.condemn rfl) (.asks rfl hterm.asks))

/-- The loss of the child. -/
private theorem Lost.path {outcome : LoopOutcome} {status : ExitStatus} {lifetime : Duration}
    (h : Lost s next c es outcome status lifetime t) (hk : s.KeptAs next k) :
    ∃ u, Path s.policy k (outline es) u ∧ u.Mourns t.world.now status.success lifetime ∧
      u.failures = t.sup.retryCount.toNat := by
  obtain ⟨earliest, hphase, -⟩ := hk.phase
  cases h with
  | @exited a b status lifetime es hticks hem =>
    have hsup : b.sup = s.sup := hem.logs.sup.trans hticks.logs.sup
    rw [outline_cons rfl, hem.outline_eq]
    refine ⟨_, (Keeper.Steps.lose hphase).path, .inl ?_, ?_⟩
    · cases hticks with
      | exited hpass hex hspawned =>
        rw [hk.since, Option.some.injEq] at hspawned
        rw [hspawned]
        rfl
    · show k.failures = b.sup.retryCount.toNat
      rw [hsup, hk.failures]
  | @timedOut es fs gs hs a b d t n status spawnedAt hticks hem hterm hex hem' hspawned =>
    have hsup : t.sup.retryCount = s.sup.retryCount := by
      rw [hem'.logs.sup, hterm.sup, hem.logs.sup]
      exact congrArg (·.retryCount) hticks.logs.sup
    have hpath := path_condemned hticks hem hterm hk
    rw [hk.since, Option.some.injEq] at hspawned
    refine ⟨{ k with phase := .leaving .judge }, ?_,
      .inr ⟨rfl, success_makeFailedStatus _, by rw [hspawned]⟩, ?_⟩
    · have hsplit : es ++ a.line (.passed (.ticked .probeTimeout)) :: (fs ++ gs ++ hs) =
          es ++ a.line (.passed (.ticked .probeTimeout)) :: (fs ++ gs) ++ hs := by simp
      rw [hsplit, outline_append, hem'.outline_eq, List.append_nil]
      exact hpath
    · show k.failures = t.sup.retryCount.toNat
      rw [hsup, hk.failures]

/-- The backoff and the start after it, or the end. -/
private theorem Settles.path {outcome : LoopOutcome} {decision : RespawnDecision}
    {out : End AutosshError Flow} (h : Settles s outcome decision es out t)
    (hphase : k.phase = decision.outline.phase s.policy s.world.now)
    (hfailures : k.failures = s.sup.retryCount.toNat) :
    ∃ u, Path s.policy k (outline es) u ∧
      ∀ next, out = .ret (.looping next) → t.KeptAs next u := by
  cases h with
  | @respawn a t es out hpass hdue hl =>
    have hpolicy : a.policy = s.policy := hpass.runs.policy
    have hstarts : k.Starts a.world.now := .inr ⟨_, hphase, hdue⟩
    obtain ⟨u, hpath, hkept⟩ := hl.path hstarts (hpass.sup ▸ hfailures)
    exact ⟨u, hpolicy ▸ hpath, hkept⟩
  | finished => exact ⟨k, .nil k, by simp⟩
  | capped hem => exact ⟨k, hem.outline_eq ▸ .nil k, by simp⟩
  | oneShotExit => exact ⟨k, .nil k, by simp⟩
  | oneShotTimeout => exact ⟨k, .nil k, by simp⟩

/-- A respawn decision is one of the keeper that mourns. -/
private theorem Decides.step {a : Sys} {sup : Supervisor} {status : ExitStatus}
    {lifetime : Duration} {decision : RespawnDecision}
    (h : Decides a.sup status lifetime decision sup) (outcome : LoopOutcome)
    (hmourns : k.Mourns a.world.now status.success lifetime)
    (hfailures : k.failures = a.sup.retryCount.toNat) : ∃ u,
      Path a.policy k (outline [a.line (.passed (.decided outcome status lifetime decision))]) u ∧
      u.phase = decision.outline.phase a.policy a.world.now ∧
      u.failures = sup.retryCount.toNat := by
  have hstep := Keeper.Steps.decide (p := a.policy) hmourns
  rw [hfailures, h.judge] at hstep
  exact ⟨_, hstep.path, rfl, rfl⟩

/-- A signal on which the child is replaced. -/
private theorem path_renewed {n : Option Instant} {kind : SignalKind} {a b d : Sys}
    {fs gs : List Entry} {evs : List SupervisorEvent} {out : End AutosshError Flow}
    (hticks : Ticks s next c [] (.signal kind) n a) (hstops : kind.stops = false)
    (hem : Emitted (a.mark (.ticked (.signal kind))) evs es b)
    (hterm : Terminates { b with sup := b.sup.credit kind } c fs d)
    (hl : Launches d [.childRespawned] gs out t) (hk : s.KeptAs next k) :
    ∃ u, Path s.policy k
        (outline (a.line (.passed (.ticked (.signal kind))) :: (es ++ fs ++ gs))) u ∧
      ∀ next, out = .ret (.looping next) → t.KeptAs next u := by
  obtain ⟨earliest, hphase, -⟩ := hk.phase
  have hpolicy : d.policy = s.policy :=
    ((hticks.logs.runs.trans (Sys.runs_mark _ _)).trans
      (hem.logs.runs.trans hterm.runs_credit)).policy
  have hcount : (if decide (kind = .hangup) then 0 else k.failures) = d.sup.retryCount.toNat := by
    rw [hterm.sup]
    show _ = (b.sup.credit kind).retryCount.toNat
    rw [hk.failures, ← show b.sup = s.sup from hem.logs.sup.trans hticks.logs.sup]
    cases kind <;> rfl
  have hrenew : Keeper.Steps s.policy k a.world.now (.renew (decide (kind = .hangup))) _ :=
    .renew hphase
  obtain ⟨u, hrest, hkept⟩ := hl.path (k := { k with
    phase := .leaving .replace
    failures := if decide (kind = .hangup) then 0 else k.failures }) (.inl rfl) hcount
  rw [hpolicy] at hrest
  rw [outline_cons rfl, outline_append, outline_append, hem.outline_eq, hstops]
  exact ⟨u, .cons hrenew ((Path.asks rfl hterm.asks).trans hrest), hkept⟩

/-- What a turn logs is what a keeper may do, and it is one again if the loop goes on. -/
theorem Turn.path {out : End AutosshError Flow} (h : Turn s next c es out t)
    (hk : s.KeptAs next k) : ∃ u, Path s.policy k (outline es) u ∧
      ∀ next, out = .ret (.looping next) → t.KeptAs next u := by
  obtain ⟨earliest, hphase, -⟩ := hk.phase
  cases h with
  | expired hexp hem hterm =>
    rw [outline_cons rfl, outline_append, hem.outline_eq]
    exact ⟨_, .cons (.expire hphase hexp) (.asks rfl hterm.asks), by simp⟩
  | waitFailed => exact ⟨k, .nil k, by simp⟩
  | probeOverflow _ hfails =>
    cases hfails with
    | overflow hpass halive hdue hmon => exact ⟨_, path_probe hk hdue hmon, by simp⟩
  | @probeOk es n t _ hticks =>
    obtain ⟨hpath, hn⟩ := hticks.path hk (.inl rfl)
    rw [outline_append, outline_cons rfl]
    refine ⟨_, hpath.trans (Keeper.Steps.keep rfl).path, ?_⟩
    rintro next' ⟨rfl⟩
    have hsup : t.sup = s.sup := hticks.logs.sup
    refine ⟨⟨_, rfl, fun due hdue => (hn due hdue).ge⟩, ?_, ?_⟩
    · exact (congrArg (·.childSpawnInstant) hsup).trans hk.since
    · exact hk.failures.trans (congrArg (·.retryCount.toNat) hsup).symm
  | terminateFailed _ hticks hem hterm =>
    exact ⟨_, path_condemned hticks hem hterm hk, by simp⟩
  | @lost es fs outcome status lifetime a t decision sup out _ hlost hdec hset =>
    obtain ⟨u, hpath, hmourns, hfailures⟩ := hlost.path hk
    obtain ⟨v, hdecide, hafter, hcount⟩ := hdec.step outcome hmourns hfailures
    have hpolicy : a.policy = s.policy := hlost.runs.policy
    have hpolicy' : ({ a with sup := sup }.mark
        (.decided outcome status lifetime decision)).policy = a.policy := hdec.runs.policy
    obtain ⟨w, hrest, hkept⟩ := hset.path (hpolicy'.symm ▸ hafter) hcount
    rw [hpolicy', hpolicy] at hrest
    rw [hpolicy] at hdecide
    rw [outline_append, ← List.singleton_append, outline_append]
    exact ⟨w, hpath.trans (hdecide.trans hrest), hkept⟩
  | stopped _ hticks hstops hem hterm =>
    rw [outline_cons rfl, outline_append, hem.outline_eq, if_pos hstops]
    exact ⟨_, .cons (.stop hphase) (.asks rfl hterm.asks), by simp⟩
  | renewed _ hticks hstops hem hterm hl => exact path_renewed hticks hstops hem hterm hl hk

end Turn

/-- The keeper that a supervisor is before its run. -/
def Sys.keeper (s : Sys) : Keeper.State := ⟨.due 0, 0, s.sup.retryCount.toNat⟩

/-- A run is what a keeper may do. -/
theorem RunEnd.path {s₀ t : Sys} {n : Nat} {out : End AutosshError Flow} (h : RunEnd s₀ n out t)
    (hs : s₀.Fresh) : ∃ k, Path s₀.policy s₀.keeper (outline t.world.history) k ∧
      ∀ next, out = .ret (.looping next) → t.KeptAs next k := by
  refine h.invariant (fun out t es => ∃ k, Path s₀.policy s₀.keeper (outline es) k ∧
    ∀ next, out = .ret (.looping next) → t.KeptAs next k) ?_ ?_ hs
  · exact fun hl => hl.path (.inr ⟨0, rfl, Nat.zero_le _⟩) rfl
  · rintro m es fs s t next c out hr ⟨k, hpath, hkept⟩ hturn
    obtain ⟨u, hrest, hkept'⟩ := hturn.path (hkept next rfl)
    rw [hr.runs.policy] at hrest
    rw [outline_append]
    exact ⟨u, hpath.trans hrest, hkept'⟩

/-- So is an execution, wherever it is. -/
theorem execute_path {s₀ : Sys} (hs : s₀.Fresh) (n : Nat) (script : List (List Event)) :
    ∃ k, Path s₀.policy s₀.keeper (outline (execute n script s₀).state.world.history) k := by
  obtain ⟨out, t, hrun, rest, hrest⟩ := execute_logGrows hs.still n script
  obtain ⟨k, hpath, -⟩ := hrun.path hs
  rw [← hrest, outline_append] at hpath
  obtain ⟨u, hu, -⟩ := hpath.of_append
  exact ⟨u, hu⟩

/-- Wherever an execution is, what it has logged is in outline what a keeper with the settings
of the supervisor may have done, and at the top of its loop it is the keeper this has made of
it: a process is up that was started when the record says, with as many failures counted. -/
theorem run_refines_keeper (s₀ : Sys) (hs : s₀.Fresh) (n : Nat) (script : List (List Event)) :
    ∃ k, Path s₀.policy s₀.keeper (outline (execute n script s₀).state.world.history) k ∧
      ∀ next, (execute n script s₀).out = .ret (.looping next) →
        (execute n script s₀).state.KeptAs next k := by
  by_cases hend : (execute n script s₀).out = .pending
  · obtain ⟨k, hpath⟩ := execute_path hs n script
    exact ⟨k, hpath, by simp [hend]⟩
  · exact (runEnd_of_execute hs.still hend).path hs

/-- A crash, and the second start after the pause: one failure is counted. -/
theorem run_refines_keeper_crash :
    ∃ k, Path (Sys.mk .initial (.initial .unix)).policy (Sys.mk .initial (.initial .unix)).keeper
      [(0, .start true), (0, .lose false), (0, .decide false 0 .again),
        (Duration.fromSecs 30, .start true)] k ∧ k.failures = 1 := by
  obtain ⟨k, hpath, hkept⟩ := run_refines_keeper _ (Sys.fresh_initial .initial .unix rfl) 1
    [[.exit 0 ⟨256⟩], [.elapse (Duration.fromSecs 30)]]
  exact ⟨k, hpath, (hkept none rfl).failures⟩

/-- A line after which no failure counts: a hangup, or a decision on a child that ended well or
lived for `gate_time`. -/
def Entry.forgives (clock : PollClock) (e : Entry) : Bool :=
  match e.act with
  | .passed (.ticked (.signal kind)) => kind = .hangup
  | .passed (.decided _ status lifetime _) => status.success || clock.gateTime ≤ lifetime
  | _ => false

/-- What is counted in the outline of a log can be counted in the log. -/
theorem countP_outline {f : Keeper.Act → Bool} {g : Entry → Bool}
    (h : ∀ e : Entry, e.act.outline.any f = g e) (es : List Entry) :
    (outline es).countP (fun a => f a.2) = es.countP g := by
  induction es with
  | nil => rfl
  | cons e es ih =>
    have he := h e
    cases hact : e.act.outline with
    | none =>
      rw [hact] at he
      simp [outline, hact, ← he, ← ih]
    | some a =>
      rw [hact] at he
      rw [outline_cons hact, List.countP_cons, List.countP_cons, ih, ← he]
      rfl

/-- A line attempts a start, renews and forgives as its outline does. -/
theorem Entry.outline_any (s : Sys) (e : Entry) :
    e.act.outline.any Keeper.Act.starts = e.spawns ∧
    e.act.outline.any Keeper.Act.renews = e.renews ∧
    e.act.outline.any s.policy.forgives = e.forgives s.sup.clock := by
  obtain ⟨time, alive, act⟩ := e
  cases act with
  | spawned path args result => cases result <;> exact ⟨rfl, rfl, rfl⟩
  | probed r => rcases r with _ | ⟨e | bytes⟩ <;> exact ⟨rfl, rfl, rfl⟩
  | passed m =>
    cases m with
    | ticked outcome =>
      cases outcome with
      | signal kind => cases kind <;> exact ⟨rfl, rfl, rfl⟩
      | _ => exact ⟨rfl, rfl, rfl⟩
    | _ => exact ⟨rfl, rfl, rfl⟩
  | _ => exact ⟨rfl, rfl, rfl⟩

/-- Where nothing in a stretch of a log forgives the failures, it has no more spawn attempts than
`max_start`, or one, and one more for each renewing signal in it. -/
theorem run_spawn_budget (s₀ : Sys) (hs : s₀.Fresh) (n : Nat) (script : List (List Event))
    (cap : UInt32) (hcap : s₀.sup.clock.maxStart = some cap) (before mid after : List Entry)
    (hlog : (execute n script s₀).state.world.history = before ++ mid ++ after)
    (hmid : ∀ e ∈ mid, e.forgives s₀.sup.clock = false) :
    mid.countP Entry.spawns ≤ max cap.toNat 1 + mid.countP Entry.renews := by
  obtain ⟨k, hpath⟩ := execute_path hs n script
  rw [hlog, outline_append, outline_append] at hpath
  obtain ⟨u, hpath, -⟩ := hpath.of_append
  obtain ⟨v, -, hpath⟩ := hpath.of_append
  have hlimit : s₀.policy.limit = some cap.toNat := by rw [Sys.policy, hcap]; rfl
  have hceiling : cap.toNat ≤ s₀.policy.ceiling := by
    have hlt := cap.toNat_lt
    show cap.toNat ≤ 2 ^ 32 - 1
    omega
  have hforgives : ∀ a ∈ outline mid, s₀.policy.forgives a.2 = false := by
    have hnone : mid.countP (Entry.forgives s₀.sup.clock) = 0 :=
      List.countP_eq_zero.mpr fun e he => by simp [hmid e he]
    rw [← countP_outline fun e => (e.outline_any s₀).2.2, List.countP_eq_zero] at hnone
    exact fun a ha => Bool.eq_false_iff.mpr (hnone a ha)
  rw [← countP_outline fun e => (e.outline_any s₀).1,
    ← countP_outline fun e => (e.outline_any s₀).2.1]
  exact hpath.starts_le hlimit hceiling hforgives

/-- With a `max_start` of two a second crash is the last: two attempts, as many as the budget. -/
theorem run_spawn_budget_two_crashes :
    let s₀ : Sys := ⟨{ Supervisor.initial with
      clock := { PollClock.default with maxStart := some 2 } }, .initial .unix⟩
    let mid := (execute 2
      [[.exit 0 ⟨256⟩], [.elapse (Duration.fromSecs 30)], [.exit 1 ⟨256⟩]] s₀).state.world.history
    mid.countP Entry.spawns = 2 ∧
      mid.countP Entry.spawns ≤ max (2 : UInt32).toNat 1 + mid.countP Entry.renews := by
  intro s₀ mid
  have hlog : mid = [] ++ mid ++ [] := by rw [List.nil_append, List.append_nil]
  exact ⟨by decide +kernel, run_spawn_budget s₀ (Sys.fresh_initial _ .unix rfl) 2 _ 2 rfl [] mid []
    hlog (by decide +kernel)⟩

end RustyAutossh
