import RustyAutossh.Loop.Words
import RustyAutossh.Places
import RustyAutossh.Correctness.Observed

/-!
# What the event stream says

As long as somebody receives, every event of a run stands where it tells the truth: a
respawn after a later spawn and nowhere else, the end of the run as the last event, and
a failed probe before the exit of the child it cost.
-/

namespace RustyAutossh

open Async Runtime Places

/-- Where an event may stand in the stream of a run with the given end. -/
def Placed (w : World) (out : End AutosshError Flow) (before : List SupervisorEvent) :
    SupervisorEvent → List SupervisorEvent → Prop
  | .childSpawned _, after => after.head? = some .childRespawned ↔ before ≠ []
  | .childRespawned, _ => ∃ b pid, before = b ++ [.childSpawned pid] ∧ b ≠ []
  | .childExited status, _ => ∃ i, announced before = i + 1 ∧ w.ExitedWith ⟨i⟩ status
  | .probeTimeout, after =>
      (∃ status rest, after = .childExited status :: rest) ∨ after = [] ∧ ∃ e, out = .fail (.io e)
  | .maxStartReached attempts, after => after = [] ∧ out = .fail (.maxStartReached attempts)
  | .maxLifetimeReached, after => after = [] ∧ out = .ret .returned
  | .signalReceived _, _ => True

/-- A place in the stream of a run that goes on is one in the stream of the longer run. -/
theorem Placed.extend {w v : World} {next : Option Instant} {out : End AutosshError Flow}
    {before after word : List SupervisorEvent} {ev : SupervisorEvent}
    (h : Placed w (.ret (.looping next)) before ev after)
    (hages : ∀ {c status}, w.ExitedWith c status → v.ExitedWith c status)
    (hword : word.head? ≠ some .childRespawned) : Placed v out before ev (after ++ word) := by
  cases ev with
  | childSpawned pid =>
    cases after with
    | nil =>
      have hnil : before = [] := by simpa [Placed] using h
      simp [Placed, hnil, hword]
    | cons e after => exact h
  | childRespawned => exact h
  | childExited status =>
    obtain ⟨i, hi, hex⟩ := h
    exact ⟨i, hi, hages hex⟩
  | probeTimeout =>
    rcases h with ⟨status, rest, rfl⟩ | ⟨-, e, he⟩
    · exact .inl ⟨status, rest ++ word, rfl⟩
    · cases he
  | maxStartReached attempts => exact absurd h.2 (by simp)
  | maxLifetimeReached => exact absurd h.2 (by simp)
  | signalReceived kind => trivial

/-- The events of the first launch begin with the child and no respawn. -/
theorem LaunchWord.fits_first {w : World} {out : End AutosshError Flow}
    {word : List SupervisorEvent} (h : LaunchWord [] out word) :
    Fits (Placed w out) [] word ∧ ∀ ev, word.head? = some ev → ev.isSpawned = true := by
  cases h with
  | failed => exact ⟨fits_nil _, by simp⟩
  | spawned => exact ⟨⟨by simp [Placed], fits_nil _⟩, by simp [SupervisorEvent.isSpawned]⟩

/-- The events of a later launch stand where they may. -/
theorem LaunchWord.fits {w : World} {out : End AutosshError Flow}
    {before word : List SupervisorEvent} (h : LaunchWord [.childRespawned] out word)
    (hne : before ≠ []) : Fits (Placed w out) before word := by
  cases h with
  | failed => exact fits_nil _
  | @spawned pid =>
    have hrespawned : Placed w out (before ++ [.childSpawned pid]) .childRespawned [] :=
      ⟨before, pid, rfl, hne⟩
    exact ⟨by simp [Placed, hne], hrespawned, fits_nil _⟩

theorem SettleWord.fits {w : World} {oneShot : Bool} {out : End AutosshError Flow}
    {before word : List SupervisorEvent} (h : SettleWord oneShot out word) (hne : before ≠ []) :
    Fits (Placed w out) before word := by
  cases h with
  | launched hl => exact hl.fits hne
  | capped => exact ⟨⟨rfl, rfl⟩, fits_nil _⟩
  | _ => exact fits_nil _

/-- The events of a turn stand where they may after those of the run so far. -/
theorem TurnWord.fits {w : World} {oneShot : Bool} {c : Child} {ms : List Mark}
    {out : End AutosshError Flow} {before word : List SupervisorEvent}
    (h : TurnWord oneShot (w.ExitedWith c) ms out word)
    (hlast : announced before = c.index + 1) : Fits (Placed w out) before word := by
  cases h with
  | expired => exact ⟨⟨rfl, rfl⟩, fits_nil _⟩
  | terminateFailed => exact ⟨.inr ⟨rfl, _, rfl⟩, fits_nil _⟩
  | @exited status _ _ _ _ out word hex hset =>
    have hexited : Placed w out before (.childExited status) word := ⟨c.index, hlast, hex⟩
    exact ⟨hexited, hset.fits (by simp)⟩
  | @timedOut status _ _ _ out word hex hset =>
    have htimeout : Placed w out before .probeTimeout (.childExited status :: word) :=
      .inl ⟨status, word, rfl⟩
    have hexited : Placed w out (before ++ [.probeTimeout]) (.childExited status) word :=
      ⟨c.index, by rw [announced_append, hlast]; rfl, hex⟩
    exact ⟨htimeout, hexited, hset.fits (by simp)⟩
  | stopped => exact ⟨trivial, fits_nil _⟩
  | renewed hl => exact ⟨trivial, hl.fits (by simp)⟩
  | _ => exact fits_nil _

/-- No turn begins with the event of a respawn. -/
theorem TurnWord.head {oneShot : Bool} {exited : ExitStatus → Prop} {ms : List Mark}
    {out : End AutosshError Flow} {word : List SupervisorEvent}
    (h : TurnWord oneShot exited ms out word) : word.head? ≠ some .childRespawned := by
  cases h <;> simp

/-- A launch says nothing about the end of the run, which it does not cap. -/
theorem LaunchWord.uncapped {after word : List SupervisorEvent} {out : End AutosshError Flow}
    (h : LaunchWord after out word) (hafter : after ⊆ [.childRespawned]) :
    .maxLifetimeReached ∉ word ∧
      ∀ attempts, .maxStartReached attempts ∉ word ∧ out ≠ .fail (.maxStartReached attempts) := by
  have hnot : ∀ {ev}, ev ≠ .childRespawned → ev ∉ after := fun hne hev =>
    hne (List.mem_singleton.mp (hafter hev))
  cases h with
  | failed => simp
  | spawned hloop =>
    refine ⟨by simpa using hnot (by simp), fun attempts => ⟨by simpa using hnot (by simp), ?_⟩⟩
    rintro rfl
    exact hloop trivial

/-- What an outcome of a settled loss has to do with the cap and the deadline. -/
theorem SettleWord.capped_iff {oneShot : Bool} {out : End AutosshError Flow}
    {word : List SupervisorEvent} (h : SettleWord oneShot out word) :
    .maxLifetimeReached ∉ word ∧ ∀ attempts, .maxStartReached attempts ∈ word ↔
      out = .fail (.maxStartReached attempts) ∧ oneShot = false := by
  cases h with
  | launched hl =>
    obtain ⟨hlife, hcap⟩ := hl.uncapped (List.Subset.refl _)
    exact ⟨hlife, fun attempts => by simp [hcap attempts]⟩
  | finished => simp
  | capped hone => simp [hone, eq_comm]
  | oneShot hone => simp [hone]

/-- A turn says that the cap is reached exactly if it fails so. -/
theorem TurnWord.capped_iff {oneShot : Bool} {exited : ExitStatus → Prop} {ms : List Mark}
    {out : End AutosshError Flow} {word : List SupervisorEvent}
    (h : TurnWord oneShot exited ms out word) (attempts : UInt32) :
    .maxStartReached attempts ∈ word ↔
      out = .fail (.maxStartReached attempts) ∧ oneShot = false := by
  cases h with
  | exited _ hset => simpa using hset.capped_iff.2 attempts
  | timedOut _ hset => simpa using hset.capped_iff.2 attempts
  | renewed hl => simp [(hl.uncapped (List.Subset.refl _)).2 attempts]
  | _ => simp

/-- A turn says that the deadline has passed exactly if it is what it acted on. -/
theorem TurnWord.expired_iff {oneShot : Bool} {exited : ExitStatus → Prop} {ms : List Mark}
    {out : End AutosshError Flow} {word : List SupervisorEvent}
    (h : TurnWord oneShot exited ms out word) : .maxLifetimeReached ∈ word ↔ .expired ∈ ms := by
  cases h with
  | exited _ hset => simpa using hset.capped_iff.1
  | timedOut _ hset => simpa using hset.capped_iff.1
  | renewed hl => simpa using (hl.uncapped (List.Subset.refl _)).1
  | _ => simp

/-- What holds of the events of a run up to an end, beside what the loop has acted on. -/
structure Streams (oneShot : Bool) (w : World) (out : End AutosshError Flow)
    (evs : List SupervisorEvent) (ms : List Mark) : Prop where
  fits : Fits (Placed w out) [] evs
  starts : ∀ ev, evs.head? = some ev → ev.isSpawned = true
  length : w.procs.length = announced evs
  capped : ∀ attempts, .maxStartReached attempts ∈ evs ↔
    out = .fail (.maxStartReached attempts) ∧ oneShot = false
  expired : .maxLifetimeReached ∈ evs ↔ .expired ∈ ms

/-- One turn more. -/
theorem Streams.turn {oneShot : Bool} {w v : World} {next : Option Instant} {c : Child}
    {out : End AutosshError Flow} {evs word : List SupervisorEvent} {ms ms' : List Mark}
    (h : Streams oneShot w (.ret (.looping next)) evs ms)
    (hword : TurnWord oneShot (v.ExitedWith c) ms' out word)
    (hlast : c.index + 1 = w.procs.length)
    (hages : ∀ {c status}, w.ExitedWith c status → v.ExitedWith c status)
    (hlen : v.procs.length = w.procs.length + announced word) :
    Streams oneShot v out (evs ++ word) (ms ++ ms') := by
  have hann : announced evs = c.index + 1 := by rw [← h.length, hlast]
  have hne : evs ≠ [] := by
    rintro rfl
    simp [announced] at hann
  refine ⟨?_, fun ev hev => ?_, ?_, fun attempts => ?_, ?_⟩
  · exact h.fits.append (fun _ _ _ hp => hp.extend hages hword.head) (hword.fits hann)
  · rw [List.head?_append_of_ne_nil _ hne] at hev
    exact h.starts ev hev
  · rw [hlen, h.length, announced_append]
  · have hnot : .maxStartReached attempts ∉ evs := fun hmem => by
      simpa using ((h.capped attempts).mp hmem).1
    rw [List.mem_append, hword.capped_iff]
    simp [hnot]
  · rw [List.mem_append, List.mem_append, h.expired, hword.expired_iff]

/-- The events of every run heard to its end are in their places. -/
theorem RunEnd.streams {s₀ t : Sys} {n : Nat} {out : End AutosshError Flow}
    (h : RunEnd s₀ n out t) (hs : s₀.Fresh) (htx : s₀.sup.eventTx ≠ none)
    (hopen : t.world.inboxOpen = true) : Streams s₀.sup.oneShot t.world out
      (events t.world.history) (marks t.world.history) := by
  refine h.invariant (fun out t es => t.world.inboxOpen = true →
    Streams s₀.sup.oneShot t.world out (events es) (marks es)) ?_ ?_ hs hopen
  · intro es out t hl hopen
    have hword := hl.word htx hopen
    have hcap := hword.uncapped (by simp)
    have hlen := (hl.heard rfl).length htx hopen
    rw [hs.procs, List.length_nil, Nat.zero_add] at hlen
    obtain ⟨hfits, hstarts⟩ := hword.fits_first (w := t.world)
    exact ⟨hfits, hstarts, hlen, fun attempts => by simp [hcap.2 attempts],
      by simp [hcap.1, hl.marks_eq]⟩
  · intro m es fs s t next c out hr ih hturn hopen
    have hheard := hturn.heard
    have hone := hr.runs.settings.oneShot
    have hevents := hr.runs.settings.eventTx
    have hword := hturn.word (hevents ▸ htx) hopen
    rw [hone] at hword
    rw [events_append, marks_append]
    exact (ih (hheard.inboxOpen hopen)).turn hword hr.loopTop.only.last
      (fun hex => hturn.grew.exitedWith hex) (hheard.length (hevents ▸ htx) hopen)

/-- What a stream of events tells about respawns, failed probes and the end of the run. -/
structure TellsTruth (oneShot : Bool) (w : World) (out : End AutosshError Flow)
    (evs : List SupervisorEvent) (ms : List Mark) : Prop where
  /-- The first spawn is no respawn. -/
  first : ∀ {before after pid}, evs = before ++ .childSpawned pid :: after →
    announced before = 0 → after.head? ≠ some .childRespawned
  /-- Every later spawn is followed by exactly one respawn. -/
  later : ∀ {before after pid}, evs = before ++ .childSpawned pid :: after →
    announced before ≠ 0 → ∃ rest, after = .childRespawned :: rest ∧
      rest.head? ≠ some .childRespawned
  /-- A respawn stands nowhere else. -/
  respawned : ∀ {before after}, evs = before ++ .childRespawned :: after →
    ∃ b pid, before = b ++ [.childSpawned pid] ∧ announced b ≠ 0
  /-- The cap is reported if and only if the run fails for it. -/
  capped : ∀ attempts, .maxStartReached attempts ∈ evs ↔
    out = .fail (.maxStartReached attempts) ∧ oneShot = false
  cappedLast : ∀ {before after attempts}, evs = before ++ .maxStartReached attempts :: after →
    after = [] ∧ ∀ other, .maxStartReached other ∉ before
  /-- The deadline is reported if and only if the run returns through its check. -/
  expired : .maxLifetimeReached ∈ evs ↔ out = .ret .returned ∧ .expired ∈ ms
  expiredLast : ∀ {before after}, evs = before ++ .maxLifetimeReached :: after →
    after = [] ∧ .maxLifetimeReached ∉ before
  /-- A failed probe is followed by the exit of the child last spawned, or by an error. -/
  timedOut : ∀ {before after}, evs = before ++ .probeTimeout :: after →
    (∃ c status rest, announced before = c + 1 ∧ w.ExitedWith ⟨c⟩ status ∧
      after = .childExited status :: rest) ∨ after = [] ∧ ∃ e, out = .fail (.io e)

/-- An event that may stand at the end only stands there once. -/
private theorem last_once {evs before after : List SupervisorEvent} {ev other : SupervisorEvent}
    (heq : evs = before ++ ev :: after) (hlast : ∀ b c, evs = b ++ other :: c → c = []) :
    other ∉ before := by
  intro hmem
  obtain ⟨b, c, rfl⟩ := List.append_of_mem hmem
  have := hlast b (c ++ ev :: after) (by rw [heq]; simp)
  simp at this

/-- Events in their places tell the truth. -/
theorem Streams.tellsTruth {oneShot : Bool} {w : World} {out : End AutosshError Flow}
    {evs : List SupervisorEvent} {ms : List Mark} (h : Streams oneShot w out evs ms) :
    TellsTruth oneShot w out evs ms := by
  have hplace : ∀ {before ev after}, evs = before ++ ev :: after → Placed w out before ev after :=
    fun heq => by simpa using h.fits.place heq
  have hnil : ∀ {before ev after}, evs = before ++ ev :: after →
      (announced before = 0 ↔ before = []) := fun {before ev after} heq => by
    constructor
    · intro hzero
      cases before with
      | nil => rfl
      | cons e before =>
        have hspawned := h.starts e (by rw [heq]; rfl)
        simp [announced, hspawned] at hzero
    · rintro rfl
      rfl
  have hcapped : ∀ {attempts} b c, evs = b ++ .maxStartReached attempts :: c → c = [] :=
    fun _ _ heq => (hplace heq).1
  have hexpired : ∀ b c, evs = b ++ .maxLifetimeReached :: c → c = [] :=
    fun _ _ heq => (hplace heq).1
  constructor
  case first =>
    intro before after pid heq hzero
    have hp : after.head? = some .childRespawned ↔ before ≠ [] := hplace heq
    simp [hp, (hnil heq).mp hzero]
  case later =>
    intro before after pid heq hlater
    have hp : after.head? = some .childRespawned ↔ before ≠ [] := hplace heq
    have hhead := hp.mpr fun hb => hlater ((hnil heq).mpr hb)
    obtain ⟨rest, rfl⟩ := List.head?_eq_some_iff.mp hhead
    refine ⟨rest, rfl, fun hrest => ?_⟩
    obtain ⟨rest, rfl⟩ := List.head?_eq_some_iff.mp hrest
    have hsplit : evs =
        (before ++ [.childSpawned pid, .childRespawned]) ++ .childRespawned :: rest := by
      rw [heq]
      simp
    obtain ⟨b, pid', hb, -⟩ := hplace hsplit
    have := congrArg List.getLast? hb
    simp at this
  case respawned =>
    intro before after heq
    obtain ⟨b, pid, rfl, hne⟩ := hplace heq
    have hsplit : evs = b ++ .childSpawned pid :: (.childRespawned :: after) := by
      rw [heq]
      simp
    exact ⟨b, pid, rfl, fun hzero => hne ((hnil hsplit).mp hzero)⟩
  case capped => exact h.capped
  case cappedLast =>
    exact fun heq => ⟨hcapped _ _ heq, fun _ => last_once heq hcapped⟩
  case expired =>
    rw [h.expired]
    refine ⟨fun hmem => ⟨?_, hmem⟩, fun hmem => hmem.2⟩
    obtain ⟨b, c, heq⟩ := List.append_of_mem (h.expired.mpr hmem)
    exact (hplace heq).2
  case expiredLast => exact fun heq => ⟨hexpired _ _ heq, last_once heq hexpired⟩
  case timedOut =>
    intro before after heq
    rcases hplace heq with ⟨status, rest, rfl⟩ | hfail
    · have hsplit : evs = (before ++ [.probeTimeout]) ++ .childExited status :: rest := by
        rw [heq]
        simp
      obtain ⟨i, hi, hex⟩ := hplace hsplit
      rw [announced_append] at hi
      exact .inl ⟨i, status, rest, hi, hex, rfl⟩
    · exact .inr hfail

/-- The events of an execution. -/
def Sys.stream (s : Sys) : List SupervisorEvent := events s.world.history

/-- The stream of every run whose consumer keeps receiving tells the truth, and what has been
heard of a suspended run is the beginning of such a stream. -/
theorem run_events_tell_truth (s₀ : Sys) (hs : s₀.Fresh) (htx : s₀.sup.eventTx ≠ none) (n : Nat)
    (script : List (List Event)) (hopen : (execute n script s₀).state.world.inboxOpen = true) :
    let run := execute n script s₀
    (run.out ≠ .pending → TellsTruth s₀.sup.oneShot run.state.world run.out run.state.stream
      (marks run.state.world.history)) ∧
    ∃ more, let done := execute n (script ++ more) s₀
      done.out ≠ .pending ∧ run.state.stream <+: done.state.stream ∧
        TellsTruth s₀.sup.oneShot done.state.world done.out done.state.stream
          (marks done.state.world.history) := by
  intro run
  have htruth : ∀ script', (execute n script' s₀).out ≠ .pending →
      (execute n script' s₀).state.world.inboxOpen = true →
      TellsTruth s₀.sup.oneShot (execute n script' s₀).state.world (execute n script' s₀).out
        (execute n script' s₀).state.stream
        (marks (execute n script' s₀).state.world.history) := fun script' hend hopen' =>
    ((runEnd_of_execute hs.still hend).streams hs htx hopen').tellsTruth
  refine ⟨fun hend => htruth script hend hopen, ?_⟩
  obtain ⟨more, hend, hgrows, hopen'⟩ :=
    exists_completion_within host_listening host_logGrows (runFor n) script s₀ hopen
  refine ⟨more, hend, ?_, htruth _ hend hopen'⟩
  obtain ⟨es, hes⟩ := hgrows
  have hstream := congrArg events hes
  rw [events_append] at hstream
  exact ⟨events es, hstream⟩

/-- A supervisor with a channel and a budget of one start. -/
def Supervisor.heardOnce : Supervisor :=
  { Supervisor.heardWithin 3 (by decide) with
    clock := { PollClock.default with maxStart := some 1 } }

/-- From the report of the cap to the error of the run. -/
theorem run_events_tell_truth_capped :
    (execute 1 [[.exit 0 ⟨256⟩]] ⟨.heardOnce, .initial .unix⟩).out = .fail (.maxStartReached 1) :=
  have htruth := (run_events_tell_truth ⟨.heardOnce, .initial .unix⟩
    (Sys.fresh_initial .heardOnce .unix rfl) (by decide) 1 [[.exit 0 ⟨256⟩]]
    (by decide +kernel)).1 (by decide +kernel)
  ((htruth.capped 1).mp (by decide +kernel)).1

end RustyAutossh
