import RustyAutossh.Async.Frozen
import RustyAutossh.Loop.Growth
import RustyAutossh.Loop.Reaping
import RustyAutossh.Loop.Relaunch

/-!
# The loop does not spin

The loop is cut after a number of turns. Between two actions of the environment it makes
two turns at most: a turn that sees nothing happen can only handle a child that had exited
before, and then leaves one that runs. So over any script the run comes to its end, or
to an await, in a number of turns that the script bounds.
-/

namespace RustyAutossh

open Async Runtime

/-- No process has terminated, and those added are alive. -/
def Sys.Stays (s t : Sys) : Prop :=
  ∀ (i : Nat) (q : Proc), t.world.procs[i]? = some q →
    q.status = none ∨ ∃ p, s.world.procs[i]? = some p ∧ p.status = q.status

private theorem Sys.stays_poll (op : Op) (s : Sys) : s.Stays (poll op s).2 := by
  intro i q hq
  rcases procs_poll op s with heq | ⟨pid, now, heq⟩ | ⟨-, j, p, hp, -, heq⟩
  · rw [heq] at hq
    exact .inr ⟨q, hq, rfl⟩
  · rw [heq] at hq
    by_cases hlt : i < s.world.procs.length
    · rw [List.getElem?_append_left hlt] at hq
      exact .inr ⟨q, hq, rfl⟩
    · rw [List.getElem?_append_right (Nat.le_of_not_lt hlt)] at hq
      have hmem := List.mem_of_getElem? hq
      rw [List.mem_singleton] at hmem
      exact .inl (by rw [hmem])
  · rw [heq] at hq
    by_cases hij : j = i
    · subst hij
      have hlt := (List.getElem?_eq_some_iff.mp hp).1
      rw [List.getElem?_set_self hlt, Option.some.injEq] at hq
      exact .inr ⟨p, hp, by rw [← hq]⟩
    · rw [List.getElem?_set_ne hij] at hq
      exact .inr ⟨q, hq, rfl⟩

/-- Only the environment ends a process. -/
private theorem frozen_stays : host.frozen.Grows Sys.Stays where
  refl _ _ q hq := .inr ⟨q, hq, rfl⟩
  trans h h' i q hq := by
    rcases h' i q hq with hnone | ⟨p, hp, hs⟩
    · exact .inl hnone
    · rcases h i p hp with hnone | ⟨o, ho, hs'⟩
      · exact .inl (hs ▸ hnone)
      · exact .inr ⟨o, ho, hs'.trans hs⟩
  poll := Sys.stays_poll
  act e := e.elim

/-- The successful probes that have been acted on. -/
def Sys.probesOk (s : Sys) : Nat := (marks s.world.history).count (.ticked .probeOk)

@[simp] theorem Sys.probesOk_mark (s : Sys) (m : Mark) :
    (s.mark m).probesOk = s.probesOk + if m = .ticked .probeOk then 1 else 0 := by
  simp [Sys.probesOk, Sys.mark, World.log, marks, Act.mark, List.count_singleton]

private theorem keeps_probesOk (n : Nat) :
    host.frozen.Keeps Op.Untold fun s => s.probesOk = n where
  act e := e.elim
  poll {op s} hop hs := by
    obtain ⟨es, hes, hwrites⟩ := writes_poll op s
    have hnone : Mark.ticked .probeOk ∉ marks es := by
      intro hmem
      obtain ⟨e, he, hmark⟩ := List.mem_filterMap.mp hmem
      have hact : e.act = .passed (.ticked .probeOk) := by
        cases hact : e.act <;> simp_all [Act.mark]
      rw [(hwrites e he).2 _ hact] at hop
      exact hop
    have hpoll : (host.frozen.poll op s).2.world.history = s.world.history ++ es := hes
    rw [Sys.probesOk, hpoll, marks_append, List.count_append, List.count_eq_zero.mpr hnone]
    exact hs

/-- A round trip does not succeed before its payload has been written. -/
private theorem World.roundtrip_unwritten {w : World} {accepts : Bool} {len : Nat}
    {deadline : Instant} (hw : w.net.written = none) {r : Option (Except IoError (List UInt8))}
    (h : (w.roundtrip accepts len deadline).1 = some r) : ∀ bytes, r ≠ some (.ok bytes) := by
  have hnet : ∀ bytes, (w.net.roundtrip accepts len).1 ≠ some (.ok bytes) := by
    intro bytes
    simp only [Net.roundtrip, hw]
    split
    · split <;> simp
    · simp
  rintro bytes rfl
  simp only [World.roundtrip] at h
  split at h
  · rename_i q n heq
    simp only [Option.some.injEq] at h
    exact hnet bytes (by rw [heq, h])
  · split at h <;> simp at h

/-- A probe that nobody answers does not succeed. -/
private theorem probe_frozen (m : ProbeLoop) (d : Duration) (s : Sys) :
    host.frozen.wp ⟨fun r _ => r ≠ .ok (), fun _ _ => True, fun _ => True⟩ (m.probe d) s := by
  rw [ProbeLoop.probe]
  refine (wp_call_of_ready rfl).mpr ((wp_call_of_ready rfl).mpr
    ((wp_call_of_ready rfl).mpr ((wp_call_of_ready rfl).mpr ?_)))
  intro r t hans
  have hne := World.roundtrip_unwritten rfl (Prod.ext_iff.mp (frozen_answers_iff.mp hans)).1
  rcases r with _ | _ | bytes
  · exact fun h => by cases h
  · exact fun h => by cases h
  · exact absurd rfl (hne bytes)

/-- So a tick that nothing happens in has no successful probe. -/
private theorem selectOneTick_frozen (next : Option Instant) (s : Sys) :
    host.frozen.wp ⟨fun r _ => r.1 ≠ .probeOk, fun _ _ => True, fun _ => True⟩
      (selectOneTick next) s := by
  rw [selectOneTick]
  refine (wp_call_of_ready rfl).mpr ((wp_call_of_ready rfl).mpr ?_)
  split
  · trivial
  · refine (wp_call_of_ready rfl).mpr fun wakeup t _ => ?_
    dsimp only [Prog.bind]
    split
    · refine wp_bind.mpr (wp_of_forall (fun status u => ?_) (fun _ _ => trivial)
        (fun _ => trivial) _ _)
      refine wp_bind.mpr (wp_of_forall (fun lifetime v => ?_) (fun _ _ => trivial)
        (fun _ => trivial) _ _)
      simp
    · refine (wp_call_of_ready rfl).mpr ?_
      dsimp only [Prog.bind]
      split
      · simp
      · refine wp_bind.mpr ?_
        refine wp_mono ?_ ?_ ?_ (probe_frozen _ _ _)
        · intro r u hr
          cases r with
          | ok u => exact absurd rfl hr
          | error e =>
            refine wp_bind.mpr (wp_of_forall (fun at_ v => ?_) (fun _ _ => trivial)
              (fun _ => trivial) _ _)
            simp
        · exact fun _ _ => id
        · exact fun _ => id
    · simp
    · simp

/-- Nor does the whole turn. -/
private theorem turn_frozen (next : Option Instant) (s : Sys) :
    host.frozen.wp ⟨fun _ t => t.probesOk = s.probesOk, fun _ t => t.probesOk = s.probesOk,
      fun t => t.probesOk = s.probesOk⟩ (turn next) s := by
  have hkeeps := keeps_probesOk s.probesOk
  refine (wp_call_of_ready rfl).mpr ((wp_call_of_ready rfl).mpr ?_)
  show host.frozen.wp _
    (if s.sup.checkLifetime s.world.now = some (.exit .maxLifetimeReached) then onExpired
      else _) s
  split
  · exact hkeeps.wp (untold_of_outside onExpired_outside) rfl
  · have htick := wp_and (hkeeps.wp (selectOneTick_untold next) rfl) (selectOneTick_frozen next s)
    refine wp_bind.mpr ?_
    refine wp_mono ?_ ?_ ?_ htick
    · rintro ⟨outcome, next'⟩ t ⟨hsame, hne⟩
      have hsame : t.probesOk = s.probesOk := hsame
      have hne : outcome ≠ .probeOk := hne
      refine (wp_call_of_ready rfl).mpr ?_
      show host.frozen.wp _ (onOutcome next' outcome) (t.mark (.ticked outcome))
      refine hkeeps.wp (untold_of_outside (onOutcome_outside next' outcome)) ?_
      simp [hne, hsame]
    · exact fun _ _ h => h.1
    · exact fun _ h => h.1

/-- A turn after which the loop goes on has seen a successful probe or replaced its child. -/
private theorem Turn.probeOk_or_relaunches {s t : Sys} {next next' : Option Instant} {c : Child}
    {es : List Entry} (h : Turn s next c es (.ret (.looping next')) t) :
    Mark.ticked .probeOk ∈ marks es ∨ Relaunches s c es (.ret (.looping next')) t := by
  rcases h.relaunch_cases with hrelaunch | ⟨hspawn, -⟩
  · exact .inr hrelaunch
  · have hno : ∀ {a : Sys} {announced : List SupervisorEvent} {fs : List Entry},
        Launches a announced fs (.ret (.looping next')) t → ¬ ∀ e ∈ fs, ¬ e.IsSpawn := by
      intro a announced fs hl hnone
      obtain ⟨act, post, rfl, hact, -⟩ := hl.split
      exact hnone _ List.mem_cons_self hact
    cases h with
    | probeOk _ hticks => exact .inl (by simp)
    | lost _ _ _ hset =>
      cases hset with
      | respawn _ _ hl => exact absurd (fun e he => hspawn e (by simp [he])) (hno hl)
    | renewed _ _ _ _ _ hl => exact absurd (fun e he => hspawn e (by simp [he])) (hno hl)

/-- What a turn that nothing happens in goes on from, and to: a child that has exited, and one
that runs. -/
private theorem turn_in_stillness {s t : Sys} {next next' : Option Instant} {c : Child}
    (htop : LoopTop s next c)
    (h : host.drive (turn next) [] s = ⟨.ret (.looping next'), t, []⟩) :
    ¬ s.world.IsAlive c ∧ ∀ c', LoopTop t next' c' → t.world.IsAlive c' := by
  have hend : (host.drive (turn next) [] s).out ≠ .pending := by
    rw [h]
    simp
  obtain ⟨es, hturn⟩ := htop.turn_of_drive hend
  have hsame := wp_frozen_sound (turn_frozen next s)
  have hstays := frozen_stays.drive (turn next) [] s
  rw [← (drive_nil_eq_frozen (turn next) s).2] at hstays
  rw [h] at hturn hsame hstays
  have hok : Mark.ticked .probeOk ∉ marks es := by
    have hcount : t.probesOk = s.probesOk := hsame
    rw [Sys.probesOk, hturn.runs.history, marks_append, List.count_append] at hcount
    exact List.count_eq_zero.mp (Nat.add_left_cancel hcount)
  rcases hturn.probeOk_or_relaunches with hmem | hrelaunch
  · exact absurd hmem hok
  · have hgrew := hturn.grew
    cases hrelaunch with
    | @intro a _ es fs announced _ _ hspawn _ hstill hl =>
      have hlen := hgrew.length
      rw [spawned_append, spawned_eq_zero hspawn, Nat.zero_add] at hlen
      have hsum := hl.grew.length
      constructor
      · rintro ⟨p, hp, halive⟩
        have hlt : c.index < a.world.procs.length := by
          have := (List.getElem?_eq_some_iff.mp hp).1
          omega
        obtain ⟨q, hq, -⟩ := hgrew.ages hp
        obtain ⟨r, hr, hage⟩ := hl.grew.ages (List.getElem?_eq_getElem hlt)
        rw [hq, Option.some.injEq] at hr
        subst hr
        obtain ⟨status, hstatus⟩ :=
          Option.ne_none_iff_exists'.mp (hstill htop.only _ (List.getElem_mem hlt))
        have hexited := hage.status hstatus
        rcases hstays _ _ hq with hnone | ⟨p', hp', heq⟩
        · rw [hnone] at hexited
          cases hexited
        · rw [hp, Option.some.injEq] at hp'
          rw [← hp', halive, hexited] at heq
          cases heq
      · intro c' htop'
        have hone : 0 < spawned fs := by
          cases hl with
          | looping => simp [spawned, Act.isSpawned]
        have hlast := htop'.only.last
        obtain ⟨p, hp, -⟩ := htop'.spawned
        rcases hstays _ _ hp with hnone | ⟨p', hp', -⟩
        · exact ⟨p, hp, hnone⟩
        · have hlt : c'.index < s.world.procs.length := (List.getElem?_eq_some_iff.mp hp').1
          rw [hlen] at hlast
          omega

/-- The turns made, against the actions of the environment used up: two for each, and one more
while the child runs. -/
private theorem turns_le {s₀ : Sys} (hs : s₀.Fresh) {n : Nat} {script rest : List (List Event)}
    {top : Sys} {next : Option Instant}
    (h : execute n script s₀ = ⟨.ret (.looping next), top, rest⟩) :
    rest.length ≤ script.length ∧ n ≤ 2 * (script.length - rest.length) + 1 ∧
      ((∀ c, LoopTop top next c → ¬ top.world.IsAlive c) →
        n ≤ 2 * (script.length - rest.length)) := by
  induction n generalizing top rest next with
  | zero =>
    have hstart : host.drive startUp script s₀ = ⟨.ret (.looping next), top, rest⟩ := h
    have hsuffix : (host.drive startUp script s₀).rest <:+ script := drive_rest_suffix _ _ _
    rw [hstart] at hsuffix
    exact ⟨hsuffix.length_le, Nat.zero_le _, fun _ => Nat.zero_le _⟩
  | succ n ih =>
    by_cases hgo : ∃ next', (execute n script s₀).out = .ret (.looping next')
    · obtain ⟨next', hout⟩ := hgo
      have hprev : execute n script s₀ = ⟨.ret (.looping next'), (execute n script s₀).state,
          (execute n script s₀).rest⟩ := by rw [← hout]
      obtain ⟨hle, hbound, hexited⟩ := ih hprev
      obtain ⟨_, c, hr⟩ := reaches_of_execute hs.still hprev
      have hturn := ((execute_succ n script s₀).1 hprev).symm.trans h
      have hsuffix : rest <:+ (execute n script s₀).rest := by
        have hdrive : (host.drive (turn next') (execute n script s₀).rest
          (execute n script s₀).state).rest <:+ _ := drive_rest_suffix _ _ _
        rw [hturn] at hdrive
        exact hdrive
      have hlen := hsuffix.length_le
      refine ⟨by omega, ?_⟩
      by_cases hused : rest.length < (execute n script s₀).rest.length
      · exact ⟨by omega, fun _ => by omega⟩
      · -- the turn has used nothing up, so the child had exited and its successor runs
        have hrest : rest = (execute n script s₀).rest :=
          hsuffix.eq_of_length_le (Nat.le_of_not_lt hused)
        rw [hrest] at hturn
        obtain ⟨hdead, hruns⟩ := turn_in_stillness hr.loopTop (drive_of_rest_eq hturn)
        have hn := hexited fun c' htop' => by
          have hchild := htop'.child
          rw [hr.loopTop.child, Option.some.injEq] at hchild
          exact hchild ▸ hdead
        obtain ⟨_, c', hr'⟩ := reaches_of_execute hs.still h
        refine ⟨by omega, fun hnone => ?_⟩
        exact absurd (hruns c' hr'.loopTop) (hnone c' hr'.loopTop)
    · have hstop := (execute_succ n script s₀).2 fun next' hout => hgo ⟨next', hout⟩
      exact absurd ⟨next, by rw [← hstop, h]⟩ hgo

/-- In every execution the turns made are at most twice the actions of the environment used
up, and one; so over every script the unbounded loop has come to an end or to an await after
twice the script's length and two turns, and further turns change nothing. -/
theorem run_never_spins (s₀ : Sys) (hs : s₀.Fresh) (script : List (List Event)) :
    (∀ n next top rest, execute n script s₀ = ⟨.ret (.looping next), top, rest⟩ →
      n ≤ 2 * (script.length - rest.length) + 1) ∧
    ∀ n, 2 * script.length + 2 ≤ n →
      execute n script s₀ = execute (2 * script.length + 2) script s₀ ∧
        ∀ next, (execute n script s₀).out ≠ .ret (.looping next) := by
  have hbound : ∀ n next top rest, execute n script s₀ = ⟨.ret (.looping next), top, rest⟩ →
      n ≤ 2 * (script.length - rest.length) + 1 := fun n next top rest h => (turns_le hs h).2.1
  refine ⟨hbound, fun n hn => ?_⟩
  have hstop : ∀ m, 2 * script.length + 2 ≤ m → ∀ next,
      (execute m script s₀).out ≠ .ret (.looping next) := by
    intro m hm next hout
    have := hbound m next (execute m script s₀).state (execute m script s₀).rest (by rw [← hout])
    omega
  exact ⟨execute_of_le hn (hstop _ (le_refl _)), hstop n hn⟩

/-- A supervisor without a backoff whose children crash at once makes no more turns than the
crashes pay for. -/
theorem run_never_spins_crashing :
    execute 1000 [[.exit 0 ⟨256⟩], [.exit 1 ⟨256⟩]]
        ⟨{ Supervisor.initial with clock := { PollClock.default with gateTime := 0 } },
          .initial .unix⟩ =
      execute 6 [[.exit 0 ⟨256⟩], [.exit 1 ⟨256⟩]]
        ⟨{ Supervisor.initial with clock := { PollClock.default with gateTime := 0 } },
          .initial .unix⟩ :=
  ((run_never_spins _ (Sys.fresh_initial _ .unix rfl) [[.exit 0 ⟨256⟩], [.exit 1 ⟨256⟩]]).2 1000
    (by decide)).1

end RustyAutossh
