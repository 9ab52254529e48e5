import RustyAutossh.Host.Passing

/-!
# What each await answers

One lemma for each operation that can be pending: the state in which it is
answered, and what its answer says about that state.
-/

namespace RustyAutossh

open Async

/-- No process with this handle is alive. -/
def World.Terminated (w : World) (c : Child) : Prop :=
  ∀ {p}, w.procs[c.index]? = some p → p.status ≠ none

/-- The status with which a process has terminated. -/
def World.ExitedWith (w : World) (c : Child) (status : ExitStatus) : Prop :=
  ∃ p, w.procs[c.index]? = some p ∧ p.status = some status

theorem World.ExitedWith.terminated {w : World} {c : Child} {status : ExitStatus}
    (h : w.ExitedWith c status) : w.Terminated c := by
  obtain ⟨p, hp, hs⟩ := h
  intro q hq
  rw [hp, Option.some.injEq] at hq
  rw [← hq, hs]
  exact Option.some_ne_none _

/-- Terminated processes stay terminated. -/
theorem World.Logs.terminated {w v : World} {es : List Entry} (h : w.Logs es v) {c : Child}
    (hc : w.Terminated c) : v.Terminated c := by
  intro q hq
  have hlt : c.index < w.procs.length := h.length ▸ (List.getElem?_eq_some_iff.mp hq).1
  obtain ⟨q', hq', hage⟩ := h.ages (List.getElem?_eq_getElem hlt)
  obtain ⟨st, hst⟩ := Option.ne_none_iff_exists'.mp (hc (List.getElem?_eq_getElem hlt))
  rw [hq', Option.some.injEq] at hq
  rw [← hq, hage.status hst]
  exact Option.some_ne_none _

/-- A process keeps the status with which it terminated. -/
theorem World.Logs.exitedWith {w v : World} {es : List Entry} (h : w.Logs es v) {c : Child}
    {status : ExitStatus} (hc : w.ExitedWith c status) : v.ExitedWith c status := by
  obtain ⟨p, hp, hs⟩ := hc
  obtain ⟨q, hq, hage⟩ := h.ages hp
  exact ⟨q, hq, hage.status hs⟩

/-- `wait` resolves only once the process has terminated, and with its status. -/
theorem World.wait_some {w v : World} {c : Child} {r : Except IoError ExitStatus}
    (h : w.wait c = (some r, v)) :
    w.Terminated c ∧ ∀ status, r = .ok status → w.ExitedWith c status := by
  unfold World.wait at h
  split at h
  · rename_i hp
    obtain ⟨hr, -⟩ := Prod.mk.injEq .. ▸ h
    refine ⟨fun {p} hp' => by simp [hp] at hp', fun status hs => ?_⟩
    simp [← Option.some.inj hr] at hs
  · rename_i p hp
    split at h
    · simp at h
    · rename_i status hs
      have hex : w.ExitedWith c status := ⟨p, hp, hs⟩
      refine ⟨hex.terminated, fun st hst => ?_⟩
      split at h
      · simp only [Prod.mk.injEq, Option.some.injEq] at h
        cases h.1.trans hst
        exact hex
      · split at h
        · simp only [Prod.mk.injEq, Option.some.injEq] at h
          cases h.1.trans hst
        · simp only [Prod.mk.injEq, Option.some.injEq] at h
          cases h.1.trans hst
          exact hex

/-- `wait` is pending only while the process is alive. -/
theorem World.wait_none {w v : World} {c : Child} (h : w.wait c = (none, v)) :
    w.IsAlive c ∧ v = w := by
  unfold World.wait at h
  split at h
  · simp at h
  · rename_i p hp
    split at h
    · rename_i hs
      simp only [Prod.mk.injEq, true_and] at h
      exact ⟨⟨p, hp, hs⟩, h.symm⟩
    · split at h
      · simp at h
      · split at h <;> simp at h

/-- A `wait` that has a result has seen the process terminated. -/
private theorem terminated_of_wait {c : Child} {s u : Sys} {r : Except IoError ExitStatus}
    {w : World} (hpass : s.Passes u) (h : u.world.wait c = (some r, w)) :
    s.Passes { u with world := w } ∧ w.Terminated c ∧
      ∀ status, r = .ok status → w.ExitedWith c status := by
  have hlog := u.world.logs_wait c
  rw [h] at hlog
  have hsome := World.wait_some h
  exact ⟨hpass.passes ⟨hlog, rfl⟩, hlog.terminated hsome.1,
    fun status hs => hlog.exitedWith (hsome.2 status hs)⟩

/-- An awaited `wait` has seen the process terminated. -/
theorem answers_wait {c : Child} {s t : Sys} {r : Except IoError ExitStatus}
    (h : host.Answers (.wait c) s r t) : s.Passes t ∧ t.world.Terminated c ∧
      ∀ status, r = .ok status → t.world.ExitedWith c status := by
  obtain ⟨u, hw, hp⟩ := h
  have hpoll : (u.world.wait c).1 = some r ∧ { u with world := (u.world.wait c).2 } = t := by
    simpa only [host, poll, Prod.mk.injEq] using hp
  obtain ⟨hr, rfl⟩ := hpoll
  exact terminated_of_wait (passes_of_waits hw) (Prod.ext hr rfl)

/-- A timed `wait` has seen the process terminated, or its deadline passed. -/
theorem answers_waitTimeout {c : Child} {deadline : Instant} {s t : Sys}
    {r : Option (Except IoError ExitStatus)}
    (h : host.Answers (.waitTimeout c deadline) s r t) : s.Passes t ∧
      (r = none → deadline ≤ t.world.now ∧ t.world.IsAlive c) ∧
      (r ≠ none → t.world.Terminated c) ∧
      ∀ status, r = some (.ok status) → t.world.ExitedWith c status := by
  obtain ⟨u, hw, hp⟩ := h
  have hpass := passes_of_waits hw
  simp only [host, poll] at hp
  split at hp
  · rename_i q w heq
    simp only [Prod.mk.injEq, Option.some.injEq] at hp
    obtain ⟨rfl, rfl⟩ := hp
    obtain ⟨hpasses, hterminated, hexited⟩ := terminated_of_wait hpass heq
    exact ⟨hpasses, by simp, fun _ => hterminated,
      fun status hs => hexited status (Option.some.inj hs)⟩
  · rename_i w heq
    obtain ⟨halive, rfl⟩ := World.wait_none heq
    simp only [Prod.mk.injEq] at hp
    obtain ⟨hr, rfl⟩ := hp
    split at hr
    · rename_i hdue
      obtain rfl := Option.some.inj hr
      exact ⟨hpass, fun _ => ⟨hdue, halive⟩, by simp, by simp⟩
    · simp at hr

/-- A sleep ends at or after its deadline. -/
theorem answers_sleepUntil {deadline : Instant} {s t : Sys} {r : Unit}
    (h : host.Answers (.sleepUntil deadline) s r t) : s.Passes t ∧ deadline ≤ t.world.now := by
  obtain ⟨u, hw, hp⟩ := h
  simp only [host, poll, Prod.mk.injEq] at hp
  obtain ⟨hr, rfl⟩ := hp
  split at hr
  · rename_i hdue
    exact ⟨passes_of_waits hw, hdue⟩
  · simp at hr

/-- A sent event is in the log, or its receiver is gone. -/
theorem answers_send {tx : Sender} {ev : SupervisorEvent} {s t : Sys} {r : Unit}
    (h : host.Answers (.send tx ev) s r t) : (s.Passes t ∧ t.world.inboxOpen = false) ∨
      ∃ e : Entry, e.act = .emitted ev ∧ s.Logs [e] t := by
  obtain ⟨u, hw, hp⟩ := h
  have hpass := passes_of_waits hw
  simp only [host, poll, World.send, Prod.mk.injEq] at hp
  obtain ⟨hr, rfl⟩ := hp
  by_cases hopen : u.world.inboxOpen = true
  · by_cases hroom : u.world.inbox.length < tx.capacity
    · refine .inr ⟨⟨u.world.now, u.world.alive, .emitted ev⟩, rfl, ?_⟩
      refine hpass.trans ⟨?_, rfl⟩
      simp only [hopen, Bool.not_true, Bool.false_eq_true, if_false, if_pos hroom]
      exact (u.world.logs_log _).trans (.same rfl rfl rfl rfl rfl rfl id)
    · simp [hopen, hroom] at hr
  · simp only [Bool.not_eq_true] at hopen
    refine .inl ⟨hpass.passes ⟨?_, rfl⟩, ?_⟩ <;> simp [hopen]
    exact .refl _

/-- Everything the loop's `select!` can answer, in the order it polls its branches. -/
inductive Selects (c : Child) (timer : Option Instant) (signals : Bool) (s : Sys) :
    Wakeup → Sys → Prop
  | exited {r : Except IoError ExitStatus} {t : Sys} : s.Passes t → t.world.Terminated c →
      (∀ status, r = .ok status → t.world.ExitedWith c status) →
      Selects c timer signals s (.exited r) t
  | timer {d : Instant} {t : Sys} : s.Passes t → t.world.IsAlive c →
      timer = some d → d ≤ t.world.now → Selects c timer signals s .timer t
  | received {ev : SupervisorEvent} {u t : Sys} : s.Passes u → u.Passes t →
      t.world.IsAlive c → (∀ d, timer = some d → t.world.now < d) → signals = true →
      u.world.signals = ev :: t.world.signals → Selects c timer signals s (.received (some ev)) t
  | closed {t : Sys} : s.Passes t → t.world.IsAlive c →
      (∀ d, timer = some d → t.world.now < d) → signals = true → t.world.signals = [] →
      t.world.signalsOpen = false → Selects c timer signals s (.received none) t

/-- The timer branch is not ready exactly while its deadline lies ahead. -/
private theorem timer_not_due {timer : Option Instant} {now : Instant}
    (h : ¬ timer.any (· ≤ now) = true) {d : Instant} (hd : timer = some d) : now < d := by
  simpa [hd] using h

/-- The `select!` answers through one of its branches. -/
theorem answers_select {c : Child} {timer : Option Instant} {signals : Bool} {s t : Sys}
    {r : Wakeup} (h : host.Answers (.select c timer signals) s r t) :
    Selects c timer signals s r t := by
  obtain ⟨u, hw, hp⟩ := h
  have hpass := passes_of_waits hw
  simp only [host, poll, World.select] at hp
  split at hp
  · rename_i q w heq
    simp only [Prod.mk.injEq, Option.some.injEq] at hp
    obtain ⟨rfl, rfl⟩ := hp
    obtain ⟨hpasses, hterminated, hexited⟩ := terminated_of_wait hpass heq
    exact .exited hpasses hterminated hexited
  · rename_i w heq
    obtain ⟨halive, -⟩ := World.wait_none heq
    split at hp
    · rename_i hdue
      simp only [Prod.mk.injEq, Option.some.injEq] at hp
      obtain ⟨rfl, rfl⟩ := hp
      cases timer with
      | none => simp at hdue
      | some d => exact .timer hpass halive rfl (by simpa using hdue)
    · rename_i hdue
      split at hp
      · rename_i hsig
        split at hp
        · rename_i ev rest hq
          simp only [Prod.mk.injEq, Option.some.injEq] at hp
          obtain ⟨rfl, rfl⟩ := hp
          exact .received hpass ⟨.same rfl rfl rfl rfl rfl rfl id, rfl⟩ halive
            (fun d hd => timer_not_due hdue hd) hsig hq
        · rename_i hq
          split at hp
          · simp at hp
          · rename_i hclosed
            simp only [Prod.mk.injEq, Option.some.injEq] at hp
            obtain ⟨rfl, rfl⟩ := hp
            exact .closed hpass halive (fun d hd => timer_not_due hdue hd) hsig hq
              (by simpa using hclosed)
      · simp at hp

/-- A round trip ends with its result in the log. -/
theorem answers_roundtrip {accepts : Bool} {len : Nat} {deadline : Instant} {s t : Sys}
    {r : Option (Except IoError (List UInt8))}
    (h : host.Answers (.roundtrip accepts len deadline) s r t) :
    s.Logs [⟨t.world.now, t.world.alive, .probed r⟩] t ∧ (r = none → deadline ≤ t.world.now) := by
  obtain ⟨u, hw, hp⟩ := h
  have hpass := passes_of_waits hw
  simp only [host, poll, World.roundtrip] at hp
  have hlog : ∀ (r : Option (Except IoError (List UInt8))) (n : Net),
      s.Logs [⟨u.world.now, u.world.alive, .probed r⟩]
        { u with world := { u.world.log (.probed r) with net := n } } := fun r n =>
    hpass.trans ⟨(u.world.logs_log (.probed r)).trans (.same rfl rfl rfl rfl rfl rfl id), rfl⟩
  split at hp
  · rename_i q n heq
    simp only [Prod.mk.injEq, Option.some.injEq] at hp
    obtain ⟨rfl, rfl⟩ := hp
    exact ⟨hlog _ _, by simp⟩
  · rename_i n heq
    split at hp
    · rename_i hdue
      simp only [Prod.mk.injEq, Option.some.injEq] at hp
      obtain ⟨rfl, rfl⟩ := hp
      exact ⟨hlog _ _, fun _ => hdue⟩
    · simp at hp

end RustyAutossh
