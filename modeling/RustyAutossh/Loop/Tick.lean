import RustyAutossh.Loop.Pieces

/-!
# One tick of the `select!`

At the top of the loop the record holds the last spawned child, every earlier
child has terminated, and the probe timer is armed exactly if there is a monitor.
From such a state the fallback arms of `select_one_tick` are out of reach.
-/

namespace RustyAutossh

open Async Runtime

/-- The child is the last process spawned, and every other has terminated. -/
structure World.OnlyChild (w : World) (c : Child) : Prop where
  last : c.index + 1 = w.procs.length
  others : ∀ {i : Nat} {p : Proc}, w.procs[i]? = some p → i ≠ c.index → p.status ≠ none

/-- No spawned process is alive. -/
def World.Still (w : World) : Prop := ∀ p ∈ w.procs, p.status ≠ none

/-- `alive` counts the processes that have not terminated. -/
theorem World.still_iff (w : World) : w.Still ↔ w.alive = 0 := by
  simp only [World.Still, World.alive, List.countP_eq_zero, Option.isNone_iff_eq_none]

theorem World.OnlyChild.still {w : World} {c : Child} (h : w.OnlyChild c)
    (hc : w.Terminated c) : w.Still := by
  intro p hp
  obtain ⟨i, hi⟩ := List.mem_iff_getElem?.mp hp
  by_cases hic : i = c.index
  · exact hc (hic ▸ hi)
  · exact h.others hi hic

/-- A stretch without a spawn keeps the other children terminated. -/
theorem World.Logs.onlyChild {w v : World} {es : List Entry} (h : w.Logs es v) {c : Child}
    (hc : w.OnlyChild c) : v.OnlyChild c where
  last := h.length ▸ hc.last
  others := fun {i q} hq hi => by
    have hlt : i < w.procs.length := h.length ▸ (List.getElem?_eq_some_iff.mp hq).1
    have hp := List.getElem?_eq_getElem hlt
    exact h.terminated (c := ⟨i⟩)
      (fun hp' => by rw [hp] at hp'; exact Option.some.inj hp' ▸ hc.others hp hi) hq

/-- A stretch without a spawn revives no process. -/
theorem World.Logs.still {w v : World} {es : List Entry} (h : w.Logs es v) (hs : w.Still) :
    v.Still := by
  intro q hq
  obtain ⟨i, hi⟩ := List.mem_iff_getElem?.mp hq
  exact h.terminated (c := ⟨i⟩) (fun hp => hs _ (List.mem_of_getElem? hp)) hi

/-- What holds each time `select_one_tick` is about to be called. -/
structure LoopTop (s : Sys) (next : Option Instant) (c : Child) : Prop where
  child : s.sup.child = some c
  only : s.world.OnlyChild c
  spawned : ∃ p, s.world.procs[c.index]? = some p ∧ s.sup.childSpawnInstant = some p.spawnedAt
  armed : next.isSome = s.sup.monitor.isSome
  fits : ∀ {t : Instant}, next = some t → t ≤ s.world.now ∨ Instant.Fits s.world.target t

/-- The next probe is due. -/
def Sys.ProbeDue (s : Sys) (next : Option Instant) : Prop :=
  ∃ t, next = some t ∧ t ≤ s.world.now

/-- A probe against a monitor: its two log lines and its answer. -/
structure Probes (m : ProbeLoop) (poll : Duration) (s : Sys)
    (r : Option (Except IoError (List UInt8))) (t : Sys) : Prop where
  logs : s.Logs [s.line (.probing m.ports.portIn
    (probePayload (s.world.wallClock.getD 0) m.messageSuffix)), t.line (.probed r)] t
  timeout : r = none → deadlineAfter s.world.target s.world.now poll ≤ t.world.now

/-- The result of a probe from that of its round trip. -/
def probeResult : Option (Except IoError (List UInt8)) → Except ProbeError Unit
  | some (.ok _) => .ok ()
  | some (.error e) => .error (.io e)
  | none => .error .timeout

/-- `probe` reports what its round trip answered. -/
theorem wp_probe {m : ProbeLoop} {poll : Duration} {s : Sys}
    {Q : Post AutosshError (Except ProbeError Unit) Sys}
    (h : ∀ r t, Probes m poll s r t → Q.ret (probeResult r) t) :
    host.wp Q (m.probe poll) s := by
  rw [ProbeLoop.probe, wp_wallClock]
  refine (wp_call_of_ready rfl).mpr ?_
  show host.wp Q (await .now >>= _) _
  rw [wp_now, wp_target]
  intro r t hans
  obtain ⟨hlogs, hdue⟩ := answers_roundtrip hans
  have hstart : s.Logs [s.line (.probing m.ports.portIn
      (probePayload (s.world.wallClock.getD 0) m.messageSuffix))]
      { s with world := (s.world.startProbe m.ports.portIn
        (probePayload (s.world.wallClock.getD 0) m.messageSuffix)) } :=
    ⟨(s.world.logs_log _).trans (.same rfl rfl rfl rfl rfl rfl id), rfl⟩
  have hprobes : Probes m poll s r t := ⟨hstart.trans hlogs, hdue⟩
  match r with
  | some (.ok _) => exact h _ t hprobes
  | some (.error e) => exact h _ t hprobes
  | none => exact h _ t hprobes

/-- The signal an event of the queue stands for; the end of the queue is a Terminate. -/
def signalOf : Option SupervisorEvent → SignalKind
  | some (.signalReceived kind) => kind
  | _ => .terminate

/-- What a tick can report: the lines it logs, its outcome and the new probe time. -/
inductive Ticks (s : Sys) (next : Option Instant) (c : Child) :
    List Entry → LoopOutcome → Option Instant → Sys → Prop
  | exited {a : Sys} {status : ExitStatus} {spawnedAt : Instant} : s.Passes a →
      a.world.ExitedWith c status → s.sup.childSpawnInstant = some spawnedAt →
      Ticks s next c [] (.childExited status (a.world.now - spawnedAt)) next a
  | probed {a t : Sys} {m : ProbeLoop} {r : Option (Except IoError (List UInt8))}
      {n : Instant} {outcome : LoopOutcome} : s.Passes a → a.world.IsAlive c →
      a.ProbeDue next → s.sup.monitor = some m → Probes m s.sup.clock.poll a r t →
      Instant.checkedAdd t.world.target t.world.now s.sup.clock.poll = some n →
      outcome = (match probeResult r with | .ok _ => .probeOk | .error _ => .probeTimeout) →
      Ticks s next c [a.line (.probing m.ports.portIn
        (probePayload (a.world.wallClock.getD 0) m.messageSuffix)), t.line (.probed r)]
        outcome (some n) t
  | signal {u t : Sys} {ev : Option SupervisorEvent} : s.Passes u → u.Passes t →
      t.world.IsAlive c → ¬ t.ProbeDue next → s.sup.signalRx ≠ none →
      (∀ e, ev = some e → u.world.signals = e :: t.world.signals) →
      (ev = none → t.world.signals = [] ∧ t.world.signalsOpen = false) →
      Ticks s next c [] (.signal (signalOf ev)) next t

/-- How a tick can end without an outcome: the wait fails, or the time of the next
probe cannot be held. -/
inductive TickFails (s : Sys) (next : Option Instant) (c : Child) :
    List Entry → End AutosshError LoopOutcome → Sys → Prop
  | wait {t : Sys} {e : IoError} : s.Passes t → t.world.Terminated c →
      TickFails s next c [] (.fail (.io e)) t
  | overflow {a t : Sys} {m : ProbeLoop} {r : Option (Except IoError (List UInt8))} :
      s.Passes a → a.world.IsAlive c → a.ProbeDue next → s.sup.monitor = some m →
      Probes m s.sup.clock.poll a r t →
      Instant.checkedAdd t.world.target t.world.now s.sup.clock.poll = none →
      TickFails s next c [a.line (.probing m.ports.portIn
        (probePayload (a.world.wallClock.getD 0) m.messageSuffix)), t.line (.probed r)] .abort t

/-- The deadline of the probe sleep is the later of now and the probe time. -/
private theorem probe_deadline {os : Target} {now t : Instant} (h : t ≤ now ∨ Instant.Fits os t) :
    deadlineAfter os now (probeSleep now (some t)) = max now t := by
  unfold deadlineAfter Instant.checkedAdd probeSleep
  by_cases hlt : now < t
  · have hsum : now + (t - now) = t := Nat.add_sub_cancel' hlt.le
    have hfits : Instant.Fits os t := h.resolve_left (Nat.not_le.mpr hlt)
    simp [hlt, hsum, hfits, max_eq_right hlt.le]
  · simp [hlt, max_eq_left (Nat.le_of_not_lt hlt)]

/-- The timer the `select!` arms. -/
def Sys.probeTimer (s : Sys) (next : Option Instant) : Option Instant :=
  if next.isSome then
    some (deadlineAfter s.world.target s.world.now (probeSleep s.world.now next))
  else none

/-- The armed timer is the next probe time, or now if that has passed. -/
theorem LoopTop.probeTimer_eq {s : Sys} {next : Option Instant} {c : Child}
    (htop : LoopTop s next c) : s.probeTimer next = next.map (max s.world.now) := by
  cases hn : next with
  | none => rfl
  | some at_ => simp [Sys.probeTimer, probe_deadline (htop.fits hn)]

/-- The timer has run out exactly if the probe is due. -/
theorem LoopTop.due_iff {s t : Sys} {next : Option Instant} {c : Child}
    (htop : LoopTop s next c) (hpass : s.Passes t) :
    (∃ d, s.probeTimer next = some d ∧ d ≤ t.world.now) ↔ t.ProbeDue next := by
  rw [htop.probeTimer_eq]
  constructor
  · rintro ⟨d, hd, hle⟩
    obtain ⟨at_, hn, rfl⟩ := Option.map_eq_some_iff.mp hd
    exact ⟨at_, hn, le_trans (le_max_right _ _) hle⟩
  · rintro ⟨at_, rfl, hle⟩
    exact ⟨_, rfl, max_le hpass.world.now hle⟩

/-- The probe branch, once its sleep has elapsed. -/
private theorem wp_probeBranch {s a : Sys} {next : Option Instant} {c : Child}
    (htop : LoopTop s next c) (hpass : s.Passes a) (halive : a.world.IsAlive c)
    (hdue : a.ProbeDue next) {Q : Post AutosshError (LoopOutcome × Option Instant) Sys}
    (hret : ∀ es outcome next' t, Ticks s next c es outcome next' t → Q.ret (outcome, next') t)
    (habort : ∀ es t, TickFails s next c es .abort t → Q.abort t) :
    host.wp Q probeBranch a := by
  have hmon : s.sup.monitor.isSome = true := by
    obtain ⟨at_, hat, -⟩ := hdue
    rw [← htop.armed, hat]
    rfl
  obtain ⟨m, hm⟩ := Option.isSome_iff_exists.mp hmon
  rw [probeBranch, wp_this, hpass.sup, hm]
  dsimp only
  refine wp_bind.mpr (wp_probe fun r t hprobes => ?_)
  have hover : Instant.checkedAdd t.world.target t.world.now s.sup.clock.poll = none →
      Q.abort t := fun h => habort _ t (.overflow hpass halive hdue hm hprobes h)
  cases hr : probeResult r with
  | ok u =>
    refine wp_bind.mpr (wp_nowPlus (fun n hn => ?_) hover)
    exact hret _ _ _ t (.probed hpass halive hdue hm hprobes hn (by rw [hr]))
  | error e =>
    refine wp_bind.mpr (wp_nowPlus (fun n hn => ?_) hover)
    exact hret _ _ _ t (.probed hpass halive hdue hm hprobes hn (by rw [hr]))

/-- A tick from the top of the loop ends in one of the ways listed. -/
theorem wp_selectOneTick {s : Sys} {next : Option Instant} {c : Child} (htop : LoopTop s next c)
    {Q : Post AutosshError (LoopOutcome × Option Instant) Sys}
    (hret : ∀ es outcome next' t, Ticks s next c es outcome next' t → Q.ret (outcome, next') t)
    (hfail : ∀ es e t, TickFails s next c es (.fail (.io e)) t → Q.fail (.io e) t)
    (habort : ∀ es t, TickFails s next c es .abort t → Q.abort t) :
    host.wp Q (selectOneTick next) s := by
  obtain ⟨p, -, hspawned⟩ := htop.spawned
  rw [selectOneTick, wp_this, wp_now, htop.child]
  dsimp only
  rw [wp_target]
  intro wakeup t hans
  have hsel : Selects c (s.probeTimer next) s.sup.signalRx.isSome s wakeup t :=
    answers_select hans
  have hidle : ∀ {u}, s.Passes u → (∀ d, s.probeTimer next = some d → u.world.now < d) →
      ¬ u.ProbeDue next := fun hpass hlt hdue => by
    obtain ⟨d, hd, hle⟩ := (htop.due_iff hpass).mpr hdue
    exact absurd hle (Nat.not_le.mpr (hlt d hd))
  cases hsel with
  | exited hpass hterm hstatus =>
    rename_i r
    cases r with
    | error e => exact hfail [] e t (.wait hpass hterm)
    | ok status =>
      show host.wp Q (childLifetime >>= _) t
      rw [wp_bind, childLifetime, wp_this, hpass.sup, hspawned]
      dsimp only
      rw [wp_now]
      exact hret [] _ next t (.exited hpass (hstatus status rfl) hspawned)
  | timer hpass halive hd hle =>
    exact wp_probeBranch htop hpass halive ((htop.due_iff hpass).mp ⟨_, hd, hle⟩) hret habort
  | received hpass hpass' halive hlt hsig hq =>
    rename_i ev u
    have hrx : s.sup.signalRx ≠ none := by rw [← Option.isSome_iff_ne_none]; exact hsig
    have hticks : Ticks s next c [] (.signal (signalOf (some ev))) next t :=
      .signal hpass hpass' halive (hidle (hpass.passes hpass') hlt) hrx
        (by rintro e ⟨⟩; exact hq) (by simp)
    cases ev with
    | signalReceived kind => exact hret [] _ next t hticks
    | _ => exact hret [] _ next t hticks
  | closed hpass halive hlt hsig hq hclosed =>
    have hrx : s.sup.signalRx ≠ none := by rw [← Option.isSome_iff_ne_none]; exact hsig
    have hticks : Ticks s next c [] (.signal (signalOf none)) next t :=
      .signal hpass (.refl t) halive (hidle hpass hlt) hrx (by simp) fun _ => ⟨hq, hclosed⟩
    exact hret [] _ next t hticks

end RustyAutossh
