import RustyAutossh.Loop.Fallbacks

/-!
# The top of the loop and the arms out of reach

Whenever the loop calls `select_one_tick` it holds its child, that child's spawn
instant, and an armed timer exactly if it has a monitor. So whatever the fallback
arms did, no execution would differ.
-/

namespace RustyAutossh

open Async Runtime

variable {α : Type} {s : Sys}

theorem agree_now {k k' : Op.now.Answer → Future α} :
    host.Agree (await .now >>= k) (await .now >>= k') s ↔
      host.Agree (k s.world.now) (k' s.world.now) s :=
  agree_call_of_ready rfl

theorem agree_target {k k' : Op.target.Answer → Future α} :
    host.Agree (await .target >>= k) (await .target >>= k') s ↔
      host.Agree (k s.world.target) (k' s.world.target) s :=
  agree_call_of_ready rfl

theorem agree_this {k k' : Op.this.Answer → Future α} :
    host.Agree (await .this >>= k) (await .this >>= k') s ↔
      host.Agree (k s.sup) (k' s.sup) s :=
  agree_call_of_ready rfl

/-- A stored spawn instant decides the lifetime. -/
theorem childLifetimeWith_agree (arms : Fallbacks) {i : Instant}
    (h : s.sup.childSpawnInstant = some i) :
    host.Agree (childLifetimeWith arms) childLifetime s := by
  unfold childLifetimeWith childLifetime
  rw [agree_this, h]
  exact .refl _ _

/-- With a monitor the probe branch probes. -/
theorem probeBranchWith_agree (arms : Fallbacks) {m : ProbeLoop} (h : s.sup.monitor = some m) :
    host.Agree (probeBranchWith arms) probeBranch s := by
  unfold probeBranchWith probeBranch
  rw [agree_this, h]
  exact .refl _ _

/-- At the top of the loop a tick takes no fallback arm. -/
theorem LoopTop.selectOneTick_agree {next : Option Instant} {c : Child} (htop : LoopTop s next c)
    (arms : Fallbacks) : host.Agree (selectOneTickWith arms next) (selectOneTick next) s := by
  obtain ⟨p, -, hspawned⟩ := htop.spawned
  unfold selectOneTickWith selectOneTick
  rw [agree_this, agree_now, htop.child]
  dsimp only
  rw [agree_target]
  refine .bind (.refl _ _) ?_
  intro wakeup t hans
  have hsel : Selects c (s.probeTimer next) s.sup.signalRx.isSome s wakeup t :=
    answers_select hans
  cases hsel with
  | exited hpass hterm hstatus =>
    rename_i r
    cases r with
    | error e => exact .refl _ _
    | ok status =>
      have hage : t.sup.childSpawnInstant = some p.spawnedAt := by rw [hpass.sup, hspawned]
      exact (childLifetimeWith_agree arms hage).bind_same _
  | timer hpass halive hd hle =>
    have hmon : s.sup.monitor.isSome = true := by
      have hnext := (htop.due_iff hpass).mp ⟨_, hd, hle⟩
      obtain ⟨at_, hat, -⟩ := hnext
      rw [← htop.armed, hat]
      rfl
    obtain ⟨m, hm⟩ := Option.isSome_iff_exists.mp hmon
    have hm' : t.sup.monitor = some m := by rw [hpass.sup, hm]
    exact probeBranchWith_agree arms hm'
  | @received ev => cases ev <;> exact .refl _ _
  | closed => exact .refl _ _

/-- With a child and its spawn instant the arm of a failed probe takes no fallback. -/
theorem onProbeTimeout_agree (arms : Fallbacks) (next : Option Instant) {c : Child} {i : Instant}
    (hc : s.sup.child = some c) (hi : s.sup.childSpawnInstant = some i) :
    host.Agree (onProbeTimeoutWith arms next) (onProbeTimeout next) s := by
  unfold onProbeTimeoutWith onProbeTimeout
  refine .bind (.refl _ _) (wp_emit fun es b hem => ?_)
  have hcb : b.sup.child = some c := by rw [hem.logs.sup, hc]
  refine .bind (.refl _ _) (wp_terminateChild hcb (fun status fs d hterm _ => ?_)
    fun _ _ _ _ => trivial)
  refine .bind (.refl _ _) (wp_emit fun gs u hem' => ?_)
  have hage : u.sup.childSpawnInstant = some i := by
    rw [hem'.logs.sup, hterm.sup]
    show b.sup.childSpawnInstant = some i
    rw [hem.logs.sup, hi]
  exact (childLifetimeWith_agree arms hage).bind_same _

/-- A turn from the top of the loop takes no fallback arm. -/
theorem LoopTop.turn_agree {next : Option Instant} {c : Child} (htop : LoopTop s next c)
    (arms : Fallbacks) : host.Agree (turnWith arms next) (turn next) s := by
  unfold turnWith turn
  rw [agree_this, agree_now]
  split
  · exact .refl _ _
  · refine .bind (htop.selectOneTick_agree arms)
      (wp_selectOneTick htop (fun es outcome next' t hticks => ?_) (fun _ _ _ _ => trivial)
        fun _ _ _ => trivial)
    obtain ⟨p, -, hspawned⟩ := htop.spawned
    have hsup : (t.mark (.ticked outcome)).sup = s.sup := hticks.logs.sup
    dsimp only
    refine (agree_call_of_ready (a := ()) (t := t.mark (.ticked outcome)) rfl).mpr ?_
    cases outcome with
    | probeTimeout =>
      exact onProbeTimeout_agree arms next' (by rw [hsup, htop.child]) (by rw [hsup, hspawned])
    | _ => exact .refl _ _

/-- No execution depends on what the fallback arms do. -/
theorem runForWith_agree {s₀ : Sys} (hs : s₀.world.Still) (arms : Fallbacks) (n : Nat) :
    host.Agree (runForWith arms n) (runFor n) s₀ := by
  induction n with
  | zero => exact .refl _ _
  | succ n ih =>
    unfold runForWith runFor
    refine .bind ih (wp_mono (fun flow t ht => ?_) (fun _ _ _ => trivial) (fun _ _ => trivial)
      (wp_runFor hs n))
    cases flow with
    | looping next =>
      obtain ⟨es, c, hr⟩ := ht.reaches
      exact hr.loopTop.turn_agree arms
    | returned => exact .refl _ _

/-- Each time the loop comes to its top, and so calls `select_one_tick` or returns through
the lifetime check, it holds the child spawned last, that child's own spawn instant, and a
probe time exactly if it has a monitor. The fallback arms are never taken: put anything in
their place, and every execution stays the one of the source. -/
theorem run_loop_top (s₀ : Sys) (hs : s₀.Fresh) (n : Nat) (script : List (List Event)) :
    (∀ next top rest, execute n script s₀ = ⟨.ret (.looping next), top, rest⟩ →
      ∃ c p, top.sup.child = some c ∧ c.index + 1 = top.world.procs.length ∧
        top.world.procs[c.index]? = some p ∧ top.sup.childSpawnInstant = some p.spawnedAt ∧
        next.isSome = top.sup.monitor.isSome) ∧
    ∀ arms, host.drive (runForWith arms n) script s₀ = execute n script s₀ := by
  constructor
  · intro next top rest h
    obtain ⟨es, c, hr⟩ := reaches_of_execute hs.still h
    obtain ⟨p, hp, hspawned⟩ := hr.loopTop.spawned
    exact ⟨c, p, hr.loopTop.child, hr.loopTop.only.last, hp, hspawned, hr.loopTop.armed⟩
  · intro arms
    exact runForWith_agree hs.still arms n script

/-- A monitored run in which a probe times out: panicking fallback arms would not panic. -/
theorem run_loop_top_probe_timeout :
    host.drive (runForWith ⟨.abort, .abort, .abort, fun _ => .abort⟩ 2)
        [[.elapse (Duration.fromSecs 600)], [.elapse (Duration.fromSecs 600)], [.exit 0 ⟨15⟩]]
        ⟨{ Supervisor.initial with
          monitor := some ⟨⟨20000⟩, some ⟨20001⟩, none, ⟨20000, 20001⟩⟩
          monitorMode := .active 20000 none }, .initial .unix⟩ =
      execute 2 [[.elapse (Duration.fromSecs 600)], [.elapse (Duration.fromSecs 600)],
          [.exit 0 ⟨15⟩]]
        ⟨{ Supervisor.initial with
          monitor := some ⟨⟨20000⟩, some ⟨20001⟩, none, ⟨20000, 20001⟩⟩
          monitorMode := .active 20000 none }, .initial .unix⟩ :=
  (run_loop_top _ (Sys.fresh_initial _ .unix rfl) 2 _).2 _

end RustyAutossh
