import RustyAutossh.Correctness.Lifetime
import RustyAutossh.Correctness.Retry
import RustyAutossh.Loop.Waiting

/-!
# The cap on crashes

A child that exits the moment it is spawned has lived no time. Under a positive gate
time every such crash counts, and the run ends with the cap. Under a gate time of
zero no life is too short: every crash resets the counter and the run goes on.
-/

namespace RustyAutossh

open Async Runtime

/-- Whether an action is a spawn attempt. -/
def Act.isSpawn : Act → Bool
  | .spawned _ _ _ => true
  | _ => false

/-- The number of spawn attempts in a stretch. -/
def spawnCount (es : List Entry) : Nat := es.countP (·.act.isSpawn)

@[simp] theorem spawnCount_append (es fs : List Entry) :
    spawnCount (es ++ fs) = spawnCount es + spawnCount fs :=
  List.countP_append

/-- A spawn attempt in a stretch is in its core. -/
theorem spawnCount_core (es : List Entry) : spawnCount (core es) = spawnCount es :=
  countP_core (fun act h => by cases act <;> simp_all [Act.isSpawn, Act.isCore]) es

theorem spawnCount_eq_zero {es : List Entry} (h : ∀ e ∈ es, ¬ e.IsSpawn) : spawnCount es = 0 := by
  rw [spawnCount, List.countP_eq_zero]
  intro e he hspawn
  refine h e he ?_
  cases hact : e.act with
  | spawned path args result => exact ⟨path, args, result, hact⟩
  | _ => simp [hact, Act.isSpawn] at hspawn

theorem spawnCount_le_of_prefix {es fs : List Entry} (h : es <+: fs) :
    spawnCount es ≤ spawnCount fs :=
  h.sublist.countP_le

theorem Launches.spawnCount_eq {s t : Sys} {announced : List SupervisorEvent} {es : List Entry}
    {out : End AutosshError Flow} (h : Launches s announced es out t) : spawnCount es = 1 := by
  rw [← spawnCount_core, h.core_eq]
  rfl

/-- All that the loop has seen are failed exits of children that lived no time. -/
def CrashesOnly (es : List Entry) : Prop :=
  ∀ outcome, .ticked outcome ∈ marks es →
    ∃ status : ExitStatus, status.success = false ∧ outcome = .childExited status 0

theorem CrashesOnly.of_append {es fs : List Entry} (h : CrashesOnly (es ++ fs)) :
    CrashesOnly es ∧ CrashesOnly fs := by
  refine ⟨fun outcome hmem => h outcome ?_, fun outcome hmem => h outcome ?_⟩
  · rw [marks_append]
    exact List.mem_append_left _ hmem
  · rw [marks_append]
    exact List.mem_append_right _ hmem

/-- The loop goes on, or a system call has failed. -/
private def GoesOn (out : End AutosshError Flow) : Prop :=
  (∃ next, out = .ret (.looping next)) ∨ ∃ e, out = .fail (.io e)

/-- How a turn that sees a crash, or the deadline passed, can end. -/
private inductive CrashTurn (s : Sys) : Nat → End AutosshError Flow → Sys → Prop
  | expired {t : Sys} : s.Expired → CrashTurn s 0 (.ret .returned) t
  | waitFailed {t : Sys} {e : IoError} : CrashTurn s 0 (.fail (.io e)) t
  | oneShot {t : Sys} : s.sup.oneShot = true → CrashTurn s 0 (.fail (.maxStartReached 1)) t
  | capped {t : Sys} {cap : UInt32} : s.sup.oneShot = false → 0 < s.sup.clock.gateTime →
      s.sup.clock.maxStart = some cap → cap ≤ s.sup.nextRetry →
      CrashTurn s 0 (.fail (.maxStartReached s.sup.nextRetry)) t
  | forgiven {t : Sys} {out : End AutosshError Flow} : s.sup.oneShot = false →
      s.sup.clock.gateTime = 0 → GoesOn out → CrashTurn s 1 out t
  | counted {t : Sys} {out : End AutosshError Flow} : s.sup.oneShot = false →
      0 < s.sup.clock.gateTime → t.sup.retryCount = s.sup.nextRetry →
      (∀ cap, s.sup.clock.maxStart = some cap → s.sup.nextRetry < cap) → GoesOn out →
      CrashTurn s 1 out t

/-- Without a monitor a launch whose spawn succeeds comes to the top of the loop. -/
private theorem Launches.goesOn {s t : Sys} {announced : List SupervisorEvent} {es : List Entry}
    {out : End AutosshError Flow} (h : Launches s announced es out t)
    (hmon : s.sup.monitor = none) : GoesOn out := by
  cases h with
  | failed => exact .inr ⟨_, rfl⟩
  | looping => exact .inl ⟨_, rfl⟩
  | overflow _ hem hnone =>
    have hmon' : t.firstProbe = some none := by
      rw [Sys.firstProbe, hem.logs.sup, if_neg]
      show ¬ s.sup.monitor.isSome = true
      simp [hmon]
    rw [hmon'] at hnone
    cases hnone

/-- Without a monitor a respawn spawns once, and the loop goes on or the spawn has failed. -/
private theorem Settles.goesOn {s t : Sys} {outcome : LoopOutcome} {es : List Entry}
    {out : End AutosshError Flow} (h : Settles s outcome .respawn es out t)
    (hmon : s.sup.monitor = none) : spawnCount es = 1 ∧ GoesOn out := by
  cases h with
  | respawn hpass _ hl =>
    rw [← hpass.sup] at hmon
    exact ⟨hl.spawnCount_eq, hl.goesOn hmon⟩

/-- A turn that loses its child to a crash ends as the respawn decision for the crash says. -/
private theorem Lost.crash {s a t : Sys} {next : Option Instant} {c : Child} {es fs : List Entry}
    {status : ExitStatus} {decision : RespawnDecision} {sup : Supervisor}
    {out : End AutosshError Flow} (hlost : Lost s next c es (.childExited status 0) status 0 a)
    (hdec : Decides a.sup status 0 decision sup)
    (hset : Settles
      ({ a with sup := sup }.mark (.decided (.childExited status 0) status 0 decision))
      (.childExited status 0) decision fs out t)
    (hfail : status.success = false) (hmon : s.sup.monitor = none) :
    CrashTurn s (spawnCount fs) out t := by
  have hclock := hlost.runs.settings.clock
  have hone := hlost.runs.settings.oneShot
  have hmonitor : a.sup.monitor = none := hlost.runs.settings.monitor.trans hmon
  have hretry := hlost.retryCount
  cases hdec with
  | oneShot h =>
    cases hset with
    | oneShotExit => exact .oneShot (hone ▸ h)
    | oneShotTimeout h => cases h
  | finished h => simp [hfail] at h
  | cleanReset h => simp [hfail] at h
  | longReset h _ hgate =>
    obtain ⟨hspawns, hgoes⟩ := hset.goesOn hmonitor
    rw [hspawns]
    exact .forgiven (hone ▸ h) (hclock ▸ Nat.le_zero.mp hgate) hgoes
  | short h _ hgate hcap =>
    obtain ⟨hspawns, hgoes⟩ := hset.goesOn hmonitor
    rw [hspawns]
    refine .counted (hone ▸ h) (hclock ▸ hgate) ?_ ?_ hgoes
    · rw [hset.retryCount]
      show saturatingAddU32 a.sup.retryCount 1 = _
      rw [hretry]
      rfl
    · rwa [hclock, hretry] at hcap
  | capped cap h _ hgate hcap hle =>
    cases hset with
    | capped hem =>
      have hnone : spawnCount fs = 0 := by
        rw [← spawnCount_core, hem.core_eq]
        rfl
      rw [hnone, hretry]
      rw [hretry] at hle
      exact .capped (hone ▸ h) (hclock ▸ hgate) (hclock ▸ hcap) hle

/-- A turn without a monitor that sees nothing but crashes. -/
private theorem Turn.crash {s t : Sys} {next : Option Instant} {c : Child} {es : List Entry}
    {out : End AutosshError Flow} (h : Turn s next c es out t) (hmon : s.sup.monitor = none)
    (hcrash : CrashesOnly es) : CrashTurn s (spawnCount es) out t := by
  cases h with
  | expired hexp hem hterm =>
    rw [spawnCount_eq_zero (not_isSpawn_winding hem hterm)]
    exact .expired hexp
  | waitFailed => exact .waitFailed
  | probeOverflow _ hfails =>
    cases hfails with
    | overflow _ _ _ hm => simp [hmon] at hm
  | probeOk _ hticks =>
    cases hticks with
    | probed _ _ _ hm => simp [hmon] at hm
  | terminateFailed =>
    obtain ⟨_, -, h⟩ := hcrash .probeTimeout (by simp)
    cases h
  | @lost es fs outcome status lifetime a t decision sup out _ hlost hdec hset =>
    obtain ⟨status', hfail, houtcome⟩ := hcrash outcome (by simp [hlost.marks_eq])
    have hcause : outcome = .childExited status lifetime := by
      rcases hlost.cause with heq | ⟨heq, -⟩
      · exact heq
      · simp [houtcome] at heq
    rw [hcause, LoopOutcome.childExited.injEq] at houtcome
    obtain ⟨rfl, rfl⟩ := houtcome
    subst hcause
    rw [spawnCount_append, spawnCount_eq_zero hlost.not_isSpawn, Nat.zero_add]
    show CrashTurn s (spawnCount fs) out t
    exact hlost.crash hdec hset hfail hmon
  | @stopped kind =>
    obtain ⟨_, -, h⟩ := hcrash (.signal kind) (by simp)
    cases h
  | @renewed kind =>
    obtain ⟨_, -, h⟩ := hcrash (.signal kind) (by simp)
    cases h

/-- After `n` crashes the loop has spawned once more, and if they counted, the counter has
reached `n` and is below the cap. -/
private structure Crashed (s : Sys) (n : Nat) (es : List Entry) : Prop where
  spawns : spawnCount es = n + 1
  oneShot : 0 < n → s.sup.oneShot = false
  counted : 0 < s.sup.clock.gateTime → ∀ cap, s.sup.clock.maxStart = some cap →
    n ≤ s.sup.retryCount.toNat ∧ (0 < n → n < cap.toNat)

/-- A crash that counts takes the counter one further. -/
private theorem Crashed.next_lt {s : Sys} {n : Nat} {es : List Entry} (h : Crashed s n es)
    (hgate : 0 < s.sup.clock.gateTime) {cap : UInt32} (hcap : s.sup.clock.maxStart = some cap)
    (hlt : s.sup.nextRetry < cap) : n + 1 ≤ s.sup.nextRetry.toNat ∧ n + 1 < cap.toNat := by
  have hn := (h.counted hgate cap hcap).1
  have hsize := cap.toNat_lt
  have hlt := UInt32.lt_iff_toNat_lt.mp hlt
  rw [Supervisor.nextRetry, toNat_saturatingAddU32, UInt32.toNat_one] at hlt ⊢
  omega

private theorem Reaches.crashed {s₀ s : Sys} {n : Nat} {es : List Entry} {next : Option Instant}
    {c : Child} (h : Reaches s₀ n es s next c) (hmon : s₀.sup.monitor = none)
    (hcrash : CrashesOnly es) : Crashed s n es := by
  induction h with
  | start hl =>
    exact ⟨hl.spawnCount_eq, fun h => absurd h (Nat.lt_irrefl 0),
      fun _ _ _ => ⟨Nat.zero_le _, fun h => absurd h (Nat.lt_irrefl 0)⟩⟩
  | @turn n es fs s t next next' c c' hr hturn _ ih =>
    obtain ⟨hes, hfs⟩ := hcrash.of_append
    have hbefore := ih hes
    have hclock := hturn.runs.settings.clock
    have hone := hturn.runs.settings.oneShot
    have hmon' : s.sup.monitor = none := hr.runs.settings.monitor.trans hmon
    have hcases := hturn.crash hmon' hfs
    have hcount : spawnCount (es ++ fs) = n + 1 + spawnCount fs := by
      rw [spawnCount_append, hbefore.spawns]
    generalize spawnCount fs = k at hcases hcount
    cases hcases with
    | forgiven hshot hgate =>
      refine ⟨hcount, fun _ => hone.trans hshot, fun hpos => ?_⟩
      rw [hclock, hgate] at hpos
      exact absurd hpos (Nat.lt_irrefl 0)
    | counted hshot hgate hnext hbelow =>
      refine ⟨hcount, fun _ => hone.trans hshot, fun _ cap hcap => ?_⟩
      rw [hclock] at hcap
      obtain ⟨hle, hlt⟩ := hbefore.next_lt hgate hcap (hbelow cap hcap)
      rw [hnext]
      exact ⟨hle, fun _ => hlt⟩

/-- A turn that has spawned has logged what it saw before, so it saw nothing else after. -/
private theorem Turn.crashesOnly {s t : Sys} {next : Option Instant} {c : Child}
    {es fs : List Entry} {out : End AutosshError Flow} (h : Turn s next c fs out t)
    (hpre : es <+: fs) (hcrash : CrashesOnly es) (hspawn : spawnCount es ≠ 0) :
    CrashesOnly fs := by
  obtain ⟨rest, hrest⟩ := hpre
  have hseen : ∃ e ∈ es, e.Replaces := by
    rcases h.spawn_cases with ⟨pre, e, mid, f, post, hsplit, he, -, hbefore, -⟩ | ⟨hnone, -⟩
    · rcases List.append_eq_append_iff.mp (hrest.trans hsplit) with ⟨a, ha, -⟩ | ⟨a, rfl, -⟩
      · refine absurd (spawnCount_eq_zero fun g hg => (hbefore g ?_).1) hspawn
        rw [ha]
        exact List.mem_append_left _ hg
      · exact ⟨e, by simp, he⟩
    · refine absurd (spawnCount_eq_zero fun g hg => hnone g ?_) hspawn
      rw [← hrest]
      exact List.mem_append_left _ hg
  obtain ⟨e, he, outcome, -, hact⟩ := hseen
  have hmem : Mark.ticked outcome ∈ loopEvents fs := by
    rw [← hrest, loopEvents_append]
    exact List.mem_append_left _ (List.mem_filter.mpr ⟨mem_marks he hact, rfl⟩)
  intro outcome' hmem'
  have hlast : Mark.ticked outcome' ∈ loopEvents fs := List.mem_filter.mpr ⟨hmem', rfl⟩
  rw [h.loopEvents_of_mem hmem, List.mem_singleton] at hlast
  rw [Mark.ticked.inj hlast]
  exact hcrash outcome (mem_marks he hact)

/-- A prefix of two stretches ends in the first, or in the second. -/
private theorem prefix_append_cases {us es fs : List Entry} (h : us <+: es ++ fs) :
    us <+: es ∨ ∃ vs, us = es ++ vs ∧ vs <+: fs := by
  obtain ⟨rest, hrest⟩ := h
  rcases List.append_eq_append_iff.mp hrest with ⟨vs, rfl, -⟩ | ⟨vs, rfl, hfs⟩
  · exact .inl (List.prefix_append us vs)
  · exact .inr ⟨vs, rfl, rest, hfs.symm⟩

section Spawns

variable {s₀ s t : Sys} {n : Nat} {es fs us : List Entry} {next : Option Instant} {c : Child}
  {out : End AutosshError Flow} {cap : UInt32}

/-- The bound on the spawns of a run of crashes in the middle of a turn. -/
private theorem Turn.spawnCount_le (hturn : Turn s next c fs out t) (h : Crashed s n es)
    (hmon : s.sup.monitor = none) (hcap : s.sup.clock.maxStart = some cap)
    (hgate : 0 < s.sup.clock.gateTime ∨ s.sup.oneShot = true) (hpre : us <+: fs)
    (hcrash : CrashesOnly us) : spawnCount (es ++ us) ≤ max cap.toNat 1 := by
  have hbase : n + 1 ≤ max cap.toNat 1 := by
    rcases hgate with hpos | hshot
    · have hlt := (h.counted hpos cap hcap).2
      omega
    · have hzero : ¬ 0 < n := fun hpos => by simp [h.oneShot hpos] at hshot
      omega
  rw [spawnCount_append, h.spawns]
  by_cases hspawn : spawnCount us = 0
  · omega
  · have hcases := hturn.crash hmon (hturn.crashesOnly hpre hcrash hspawn)
    have hle := spawnCount_le_of_prefix hpre
    generalize spawnCount fs = k at hcases hle
    cases hcases with
    | forgiven hshot hzero =>
      rcases hgate with hpos | hyes
      · exact absurd (hzero ▸ hpos) (Nat.lt_irrefl 0)
      · simp [hshot] at hyes
    | counted _ hpos _ hbelow =>
      have hlt := (h.next_lt hpos hcap (hbelow cap hcap)).2
      omega
    | _ => omega

/-- The bound on the spawns of a run of crashes, at any moment before its end. -/
private theorem RunEnd.spawnCount_le (h : RunEnd s₀ n out t) (hs : s₀.Fresh)
    (hmon : s₀.sup.monitor = none) (hcap : s₀.sup.clock.maxStart = some cap)
    (hgate : 0 < s₀.sup.clock.gateTime ∨ s₀.sup.oneShot = true) (hpre : us <+: t.world.history)
    (hcrash : CrashesOnly us) : spawnCount us ≤ max cap.toNat 1 := by
  refine h.invariant
    (fun _ _ es => ∀ us, us <+: es → CrashesOnly us → spawnCount us ≤ max cap.toNat 1)
    (fun hl us hpre _ => ?_) (fun hr ih hturn us hpre hcrash => ?_) hs us hpre hcrash
  · have hle := spawnCount_le_of_prefix hpre
    rw [hl.spawnCount_eq] at hle
    omega
  · rcases prefix_append_cases hpre with hearlier | ⟨vs, rfl, hvs⟩
    · exact ih us hearlier hcrash
    · obtain ⟨hes, hfs⟩ := hcrash.of_append
      have hclock := hr.runs.settings.clock
      have hmonitor := hr.runs.settings.monitor
      have hone := hr.runs.settings.oneShot
      exact hturn.spawnCount_le (hr.crashed hmon hes) (hmonitor.trans hmon) (hclock ▸ hcap)
        (by rwa [hclock, hone]) hvs hfs

end Spawns

/-- The run made no more spawns than the cap allows, and failed at it. -/
structure HoldsCap (cap : UInt32) (out : End AutosshError Flow) (t : Sys) : Prop where
  spawns : spawnCount t.world.history ≤ max cap.toNat 1
  result : ∃ attempts, out = .fail (.maxStartReached attempts)

/-- Crashes count: the gate time is positive, or the run is one-shot; and no turn that was
begun found the lifetime deadline passed. -/
structure Counts (s₀ : Sys) (n : Nat) (script : List (List Event)) : Prop where
  gate : 0 < s₀.sup.clock.gateTime ∨ s₀.sup.oneShot = true
  alive : ∀ m next top rest, m < n → execute m script s₀ = ⟨.ret (.looping next), top, rest⟩ →
    ¬ top.Expired

/-- A run that has failed found the deadline passed in none of its turns. -/
private theorem not_expired_of_fail {s₀ top : Sys} (hs : s₀.world.Still) {m n : Nat}
    {script rest : List (List Event)} {next : Option Instant} {e : AutosshError}
    (hout : (execute n script s₀).out = .fail e) (hlt : m < n)
    (htop : execute m script s₀ = ⟨.ret (.looping next), top, rest⟩) : ¬ top.Expired := by
  intro hexp
  have hstep : (execute (m + 1) script s₀).out = .pending ∨
      (execute (m + 1) script s₀).out = .ret .returned := by
    by_cases hend : (execute (m + 1) script s₀).out = .pending
    · exact .inl hend
    · obtain ⟨es, c, fs, -, hturn⟩ := turn_of_execute hs htop hend
      exact .inr (hturn.of_expired hexp).1
  have hsame : execute n script s₀ = execute (m + 1) script s₀ := by
    refine execute_of_le hlt fun next h => ?_
    rcases hstep with heq | heq <;> simp [heq] at h
  rw [hsame] at hout
  rcases hstep with heq | heq <;> simp [heq] at hout

/-- A run of crashes that count never makes more spawns than the cap allows. Given a turn for
each of them, it is suspended only while a child is alive, in a backoff or by a full event
channel; otherwise it is over and the cap has held, exactly if crashes count. -/
theorem crashes_hold_cap_iff (s₀ : Sys) (hs : s₀.Fresh) (hmon : s₀.sup.monitor = none)
    (cap : UInt32) (hcap : s₀.sup.clock.maxStart = some cap) (n : Nat)
    (script : List (List Event))
    (hcrash : CrashesOnly (execute n script s₀).state.world.history)
    (hcalls : ∀ e, (execute n script s₀).out ≠ .fail (.io e)) :
    (0 < s₀.sup.clock.gateTime ∨ s₀.sup.oneShot = true →
      spawnCount (execute n script s₀).state.world.history ≤ max cap.toNat 1) ∧
    ((execute n script s₀).out = .pending →
      ∃ op, host.suspension (runFor n) script s₀ = some (op, (execute n script s₀).state) ∧
        (execute n script s₀).state.Awaits op) ∧
    (max cap.toNat 1 ≤ n → (execute n script s₀).out ≠ .pending →
      (HoldsCap cap (execute n script s₀).out (execute n script s₀).state ↔
        Counts s₀ n script)) := by
  have hbound : 0 < s₀.sup.clock.gateTime ∨ s₀.sup.oneShot = true →
      spawnCount (execute n script s₀).state.world.history ≤ max cap.toNat 1 := by
    intro hgate
    obtain ⟨out, t, hrun, hpre⟩ := execute_logGrows hs.still n script
    exact hrun.spawnCount_le hs hmon hcap hgate hpre hcrash
  refine ⟨hbound, fun hpending => ?_, fun hn hend => ?_⟩
  · obtain ⟨op, hop, u, hstalls⟩ := suspension_of_pending hpending
    exact ⟨op, hop, stalls_awaits hstalls⟩
  have hturns : 0 < n := by omega
  by_cases hloop : ∃ next, (execute n script s₀).out = .ret (.looping next)
  · -- the loop still goes on, so the cap has not held and crashes have not counted
    obtain ⟨next, hnext⟩ := hloop
    obtain ⟨es, c, hr⟩ := reaches_of_looping hs.still hnext
    rw [hr.runs.history_of_fresh hs] at hcrash
    obtain ⟨-, hshot, hcounted⟩ := hr.crashed hmon hcrash
    have hclock := hr.runs.settings.clock
    have hone := hr.runs.settings.oneShot
    constructor
    · rintro ⟨-, attempts, hout⟩
      simp [hnext] at hout
    · rintro ⟨hpos | hyes, -⟩
      · have hlt := (hcounted (hclock ▸ hpos) cap (hclock ▸ hcap)).2 hturns
        omega
      · simp [hone.symm.trans (hshot hturns)] at hyes
  · have hne : ∀ next, (execute n script s₀).out ≠ .ret (.looping next) :=
      fun next h => hloop ⟨next, h⟩
    have hstop : ¬ GoesOn (execute n script s₀).out := by
      rintro (⟨next, h⟩ | ⟨e, h⟩)
      · exact hne next h
      · exact hcalls e h
    rcases execute_last hs.still hend with
      ⟨es, hl⟩ | ⟨m, next, top, rest, es, c, fs, hlt, htop, hr, hturn⟩
    · exact absurd (hl.goesOn hmon) hstop
    have hfs : CrashesOnly fs := by
      rw [(hr.runs.trans hturn.runs).history_of_fresh hs] at hcrash
      exact hcrash.of_append.2
    have hclock := hr.runs.settings.clock
    have hmonitor := hr.runs.settings.monitor
    have hone := hr.runs.settings.oneShot
    have hcases := hturn.crash (hmonitor.trans hmon) hfs
    have hfresh : ∀ {e}, (execute n script s₀).out = .fail e → ∀ m next top rest, m < n →
        execute m script s₀ = ⟨.ret (.looping next), top, rest⟩ → ¬ top.Expired :=
      fun hout _ _ _ _ hlt htop => not_expired_of_fail hs.still hout hlt htop
    generalize (execute n script s₀).out = out at hcases hcalls hstop hfresh
    generalize spawnCount fs = k at hcases
    cases hcases with
    | expired hexp =>
      constructor
      · rintro ⟨-, attempts, hout⟩
        cases hout
      · rintro ⟨-, halive⟩
        exact absurd hexp (halive m next top rest hlt htop)
    | waitFailed => exact absurd rfl (hcalls _)
    | oneShot h =>
      have hgate : 0 < s₀.sup.clock.gateTime ∨ s₀.sup.oneShot = true := .inr (hone ▸ h)
      exact iff_of_true ⟨hbound hgate, 1, rfl⟩ ⟨hgate, hfresh rfl⟩
    | capped h hpos =>
      have hgate : 0 < s₀.sup.clock.gateTime ∨ s₀.sup.oneShot = true := .inl (hclock ▸ hpos)
      exact iff_of_true ⟨hbound hgate, _, rfl⟩ ⟨hgate, hfresh rfl⟩
    | forgiven _ _ hgoes => exact absurd hgoes hstop
    | counted _ _ _ _ hgoes => exact absurd hgoes hstop

/-- Two crashes under the default gate time. -/
theorem crashes_hold_cap_iff_two_crashes :
    let t := execute 2 [[.exit 0 ⟨256⟩], [.elapse (Duration.fromSecs 30)], [.exit 1 ⟨256⟩]]
      ⟨{ Supervisor.initial with clock := { PollClock.default with maxStart := some 2 } },
        .initial .unix⟩
    HoldsCap 2 t.out t.state := by
  have hs : (Sys.mk { Supervisor.initial with
      clock := { PollClock.default with maxStart := some 2 } } (.initial .unix)).Fresh :=
    Sys.fresh_initial _ _ rfl
  refine ((crashes_hold_cap_iff _ hs rfl 2 rfl 2 _ ?_ ?_).2.2 (by decide)
    (by decide +kernel)).mpr ⟨.inl (by decide), ?_⟩
  · intro outcome hmem
    have hmarks : ∀ m ∈ marks (execute 2 [[.exit 0 ⟨256⟩], [.elapse (Duration.fromSecs 30)],
        [.exit 1 ⟨256⟩]] ⟨{ Supervisor.initial with
          clock := { PollClock.default with maxStart := some 2 } },
          .initial .unix⟩).state.world.history,
        m.isEvent = true → m = .ticked (.childExited ⟨256⟩ 0) := by
      decide +kernel
    exact ⟨⟨256⟩, rfl, Mark.ticked.inj (hmarks _ hmem rfl)⟩
  · have hout : (execute 2 [[.exit 0 ⟨256⟩], [.elapse (Duration.fromSecs 30)],
        [.exit 1 ⟨256⟩]] ⟨{ Supervisor.initial with
          clock := { PollClock.default with maxStart := some 2 } },
          .initial .unix⟩).out = .fail (.maxStartReached 2) := by
      decide +kernel
    intro e h
    cases hout.symm.trans h
  · intro m next top rest _ htop hexp
    obtain ⟨es, c, hr⟩ := reaches_of_execute hs.still htop
    have hclock := hr.runs.settings.clock
    obtain ⟨d, hd, -⟩ := Supervisor.checkLifetime_eq_some.mp hexp
    rw [hclock] at hd
    cases hd

/-- Under the gate time of `-f`, five crashes lead to a sixth spawn although the cap is two. -/
theorem crashes_exceed_cap :
    let clock := PollClock.resolveFromEnvAndFlags ⟨fun _ => none⟩ { maxStart := some (some 2) } true
    let t := execute 5 [[.exit 0 ⟨256⟩], [.exit 1 ⟨256⟩], [.exit 2 ⟨256⟩], [.exit 3 ⟨256⟩],
      [.exit 4 ⟨256⟩]] ⟨{ Supervisor.initial with clock := clock }, .initial .unix⟩
    clock.maxStart = some 2 ∧
      loopEvents t.state.world.history =
        List.replicate 5 (.ticked (.childExited ⟨256⟩ 0)) ∧
      spawnCount t.state.world.history = 6 ∧ t.out = .ret (.looping none) := by
  decide +kernel

end RustyAutossh
