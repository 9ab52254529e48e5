import RustyAutossh.Discipline
import RustyAutossh.Loop.Growth
import RustyAutossh.Loop.Reaping

/-!
# Requests for the end of a child

The supervisor ends a child only for a reason its log gives: the lifetime has passed, a
signal was taken or a probe failed. Then it asks the child spawned last, and asks it once. On
Unix a forced kill is only the second step, ten seconds after a SIGTERM that was not obeyed.
-/

namespace RustyAutossh

open Async Runtime

/-- A line that logs a request for the end of a child. -/
def Entry.Asks (e : Entry) (c : Child) : Prop := ∃ forced, e.act = .killed c forced

/-- The log ends with a reason to end the child, but for events emitted since. -/
inductive Condemned : List Entry → Prop
  | expired {past : List Entry} {e : Entry} : e.act = .passed .expired → Condemned (past ++ [e])
  | signalled {past : List Entry} {e : Entry} {kind : SignalKind} :
      e.act = .passed (.ticked (.signal kind)) → Condemned (past ++ [e])
  | unheard {past : List Entry} {p e : Entry} {r : Option (Except IoError (List UInt8))} :
      p.act = .probed r → (∀ bs, r ≠ some (.ok bs)) →
      e.act = .passed (.ticked .probeTimeout) → Condemned (past ++ [p, e])
  | emitted {past : List Entry} {e : Entry} {ev : SupervisorEvent} : Condemned past →
      e.act = .emitted ev → Condemned (past ++ [e])

/-- A child may be asked for the first time: there is a reason, and it was spawned last. -/
structure Dismissed (past : List Entry) (c : Child) : Prop where
  cause : Condemned past
  last : c.index + 1 = spawned past
  first : ∀ e ∈ past, ¬ e.Asks c

/-- When a child may be asked to end, on each platform. -/
def KillLaw (os : Target) (past : List Entry) (e : Entry) : Prop :=
  ∀ c forced, e.act = .killed c forced →
    match os, forced with
    | .unix, false => Dismissed past c
    | .unix, true => ∃ before asked, past = before ++ [asked] ∧ asked.act = .killed c false ∧
        asked.time + Duration.fromSecs 10 ≤ e.time
    | .windows, false => False
    | .windows, true => Dismissed past c

/-- A line that neither asks a child to end nor logs a spawn that succeeded. -/
def Entry.Mild (e : Entry) : Prop := (∀ c, ¬ e.Asks c) ∧ e.act.isSpawned = false

theorem Entry.Mild.lawful {e : Entry} (h : e.Mild) (os : Target) (past : List Entry) :
    KillLaw os past e := fun c forced hact => (h.1 c ⟨forced, hact⟩).elim

theorem Entry.mild_of_act {e : Entry} {act : Act} (h : e.act = act)
    (hkill : ∀ c forced, act ≠ .killed c forced) (hspawn : act.isSpawned = false) : e.Mild :=
  ⟨fun c ⟨forced, hf⟩ => hkill c forced (h ▸ hf), by rw [h, hspawn]⟩

/-- The requests made so far keep the law and went to children of smaller index. -/
structure World.Clear (w : World) (k : Nat) : Prop where
  law : Discipline.Follows (KillLaw w.target) w.history
  count : w.procs.length = spawned w.history
  old : ∀ e ∈ w.history, ∀ c, e.Asks c → c.index < k

/-- Every child asked so far is one that was spawned. -/
def World.Settled (w : World) : Prop := w.Clear w.procs.length

/-- The record holds the child spawned last, and it has not been asked to end. -/
structure Sys.Tends (s : Sys) (c : Child) : Prop where
  child : s.sup.child = some c
  last : c.index + 1 = s.world.procs.length
  clear : s.world.Clear c.index

theorem World.Clear.mono {w : World} {k m : Nat} (h : w.Clear k) (hle : k ≤ m) : w.Clear m :=
  ⟨h.law, h.count, fun e he c hc => (h.old e he c hc).trans_le hle⟩

theorem Sys.Tends.settled {s : Sys} {c : Child} (h : s.Tends c) : s.world.Settled :=
  h.clear.mono (h.last ▸ Nat.le_succ _)

/-- Mild lines change nothing about the requests. -/
theorem World.Clear.logs {w v : World} {es : List Entry} {k : Nat} (h : w.Clear k)
    (hlogs : w.Logs es v) (hes : ∀ e ∈ es, e.Mild) : v.Clear k where
  law := by
    rw [hlogs.target, hlogs.history]
    exact h.law.append fun e he past => (hes e he).lawful _ past
  count := by
    have hnone : spawned es = 0 :=
      List.countP_eq_zero.mpr fun e he => by simp [(hes e he).2]
    rw [hlogs.length, h.count, hlogs.history, spawned_append, hnone, Nat.add_zero]
  old e he c hc := by
    rw [hlogs.history] at he
    rcases List.mem_append.mp he with he | he
    · exact h.old e he c hc
    · exact ((hes e he).1 c hc).elim

theorem World.Settled.logs {w v : World} {es : List Entry} (h : w.Settled)
    (hlogs : w.Logs es v) (hes : ∀ e ∈ es, e.Mild) : v.Settled := by
  have hclear := World.Clear.logs h hlogs hes
  rwa [← hlogs.length] at hclear

theorem Sys.Tends.logs {s t : Sys} {c : Child} {es : List Entry} (h : s.Tends c)
    (hlogs : s.Logs es t) (hes : ∀ e ∈ es, e.Mild) : t.Tends c where
  child := by rw [hlogs.sup, h.child]
  last := by rw [hlogs.world.length, h.last]
  clear := h.clear.logs hlogs.world hes

theorem Emitted.mild {s t : Sys} {evs : List SupervisorEvent} {es : List Entry}
    (h : Emitted s evs es t) : ∀ e ∈ es, e.Mild := by
  intro e he
  obtain ⟨ev, -, hev⟩ := List.mem_map.mp (h.acts.subset (List.mem_map_of_mem he))
  exact Entry.mild_of_act hev.symm (by simp) rfl

theorem Ticks.mild {s t : Sys} {next next' : Option Instant} {c : Child} {es : List Entry}
    {outcome : LoopOutcome} (h : Ticks s next c es outcome next' t) : ∀ e ∈ es, e.Mild := by
  intro e he
  cases h with
  | exited => simp at he
  | signal => simp at he
  | probed =>
    simp only [List.mem_cons, List.not_mem_nil, or_false] at he
    rcases he with rfl | rfl
    · exact Entry.mild_of_act rfl (by simp) rfl
    · exact Entry.mild_of_act rfl (by simp) rfl

theorem Sys.mild_mark (s : Sys) (m : Mark) : ∀ e ∈ [s.line (.passed m)], e.Mild := by
  intro e he
  rw [List.mem_singleton.mp he]
  exact Entry.mild_of_act rfl (by simp) rfl

/-- Emitting an event leaves the reason standing. -/
theorem Condemned.emitted_all {s t : Sys} {evs : List SupervisorEvent} {es : List Entry}
    (h : Condemned s.world.history) (hem : Emitted s evs es t) : Condemned t.world.history := by
  rw [hem.logs.world.history]
  have hacts : ∀ e ∈ es, ∃ ev, e.act = .emitted ev := fun e he => by
    obtain ⟨ev, -, hev⟩ := List.mem_map.mp (hem.acts.subset (List.mem_map_of_mem he))
    exact ⟨ev, hev.symm⟩
  clear hem
  induction es using List.reverseRecOn with
  | nil => rwa [List.append_nil]
  | append_singleton es e ih =>
    obtain ⟨ev, hev⟩ := hacts e (by simp)
    rw [← List.append_assoc]
    exact .emitted (ih fun f hf => hacts f (by simp [hf])) hev

/-- A sleep no longer than the cut of the clock ends no earlier than asked. -/
private theorem add_le_deadlineAfter (os : Target) (now : Instant) {d : Duration}
    (hd : d ≤ farFuture) : now + d ≤ deadlineAfter os now d := by
  unfold deadlineAfter
  cases h : Instant.checkedAdd os now d with
  | none => exact Nat.add_le_add_left hd now
  | some t => exact (Instant.checkedAdd_eq_some h).ge

/-- A stretch that asks the child to end, within the law. -/
private structure Ends (s : Sys) (c : Child) (t : Sys) : Prop where
  logs : ∃ es, s.Logs es t ∧ ∀ e ∈ es, ∃ forced, e.act = .killed c forced
  law : Discipline.Follows (KillLaw s.world.target) t.world.history

private theorem Ends.passes {s t u : Sys} {c : Child} (h : Ends s c t) (hpass : t.Passes u) :
    Ends s c u := by
  obtain ⟨es, hes, hkills⟩ := h.logs
  refine ⟨⟨es, hes.passes hpass, hkills⟩, ?_⟩
  rw [hpass.world.history, List.append_nil]
  exact h.law

/-- A request the law allows. -/
private theorem Ends.ask {s t u : Sys} {c : Child} {forced : Bool} (h : Ends s c t)
    (hask : KillLaw s.world.target t.world.history (t.line (.killed c forced)))
    (hlogs : t.Logs [t.line (.killed c forced)] u) : Ends s c u := by
  obtain ⟨es, hes, hkills⟩ := h.logs
  refine ⟨⟨es ++ [t.line (.killed c forced)], hes.trans hlogs, fun e he => ?_⟩, ?_⟩
  · rcases List.mem_append.mp he with he | he
    · exact hkills e he
    · exact ⟨forced, by rw [List.mem_singleton.mp he]; rfl⟩
  · rw [hlogs.world.history]
    exact h.law.concat hask

section Terminate

variable {s : Sys} {c : Child}

/-- `Child::kill` logs one line and may wait for the child. -/
private theorem ends_kill {t : Sys} (h : Ends s c t)
    (hask : KillLaw s.world.target t.world.history (t.line (.killed c true)))
    {Q : Post AutosshError (Except IoError Unit) Sys} (hret : ∀ r u, Ends s c u → Q.ret r u) :
    host.wp Q c.kill t := by
  rw [Child.kill]
  refine (wp_call_of_ready rfl).mpr ?_
  have hlogs : t.Logs [t.line (.killed c true)] { t with world := (t.world.startKill c).2 } := by
    refine ⟨?_, rfl⟩
    simp only [World.startKill]
    split <;> exact (t.world.logs_log _).trans (.same rfl rfl rfl rfl rfl rfl id)
  have hends := h.ask hask hlogs
  cases (t.world.startKill c).1 with
  | error e => exact hret _ _ hends
  | ok _ =>
    intro r u ha
    have hu := hends.passes (answers_wait ha).1
    cases r with
    | error e => exact hret _ _ hu
    | ok status => exact hret _ _ hu

/-- The wait at the end asks for nothing. -/
private theorem ends_collect {t : Sys} (h : Ends s c t) : host.wp
    ⟨fun _ => Ends s c, fun _ => Ends s c, Ends s c⟩
    (do let status ← liftIo (← await (.wait c)); pure (some status)) t := by
  intro r u ha
  have hu := h.passes (answers_wait ha).1
  cases r with
  | error e => exact hu
  | ok status => exact hu

/-- A child that waits for its end although it has no id has been reaped, and so it had
terminated before. -/
private theorem not_alive_of_childId {t : Sys} (hsane : s.Sane)
    (hid : s.world.childId c = none) (hpass : s.Passes t) : ¬ t.world.IsAlive c := by
  rintro ⟨q, hq, halive⟩
  have hlt : c.index < s.world.procs.length :=
    hpass.world.length ▸ (List.getElem?_eq_some_iff.mp hq).1
  have hreaped : s.world.procs[c.index].reaped = true := by
    simpa [World.childId, List.getElem?_eq_getElem hlt] using hid
  obtain ⟨status, hstatus⟩ :=
    Option.ne_none_iff_exists'.mp (hsane _ (List.getElem_mem hlt) hreaped)
  obtain ⟨q', hq', hage⟩ := hpass.world.ages (List.getElem?_eq_getElem hlt)
  rw [hq, Option.some.injEq] at hq'
  rw [hq', hage.status hstatus] at halive
  cases halive

/-- After SIGTERM a forced kill is lawful once ten seconds have passed, unless there was no
process left to signal; then the wait is over at once. -/
private theorem ends_sigterm (hos : s.world.target = .unix) (hsane : s.Sane)
    (hdis : Dismissed s.world.history c) (h : Ends s c s) : host.wp
    ⟨fun _ t => Ends s c t ∧ ∀ u, t.Passes u → u.world.IsAlive c →
        t.world.now + Duration.fromSecs 10 ≤ u.world.now →
        KillLaw s.world.target u.world.history (u.line (.killed c true)),
      fun _ _ => False, fun _ => False⟩ c.sigterm s := by
  rw [Child.sigterm, wp_childId]
  cases hid : s.world.childId c with
  | none => exact ⟨h, fun u hpass halive _ =>
      (not_alive_of_childId hsane hid hpass halive).elim⟩
  | some pid =>
    have hlogs : s.Logs [s.line (.killed c false)]
        { s with world := s.world.log (.killed c false) } := ⟨s.world.logs_log _, rfl⟩
    refine (wp_call_of_ready (k := Prog.ret) rfl).mpr ⟨h.ask (fun c' forced hact => ?_) hlogs, ?_⟩
    · cases hact
      rw [hos]
      exact hdis
    · intro u hpass _ hle c' forced hact
      cases hact
      rw [hos]
      exact ⟨s.world.history, _, (hlogs.passes hpass).world.history, rfl, hle⟩

/-- The Unix branch: SIGTERM, ten seconds of grace, and only then the forced kill. -/
private theorem ends_terminateUnix (hos : s.world.target = .unix) (hsane : s.Sane)
    (hdis : Dismissed s.world.history c) (h : Ends s c s) : host.wp
    ⟨fun _ => Ends s c, fun _ => Ends s c, Ends s c⟩ (terminateUnix c) s := by
  rw [terminateUnix]
  refine wp_bind.mpr (wp_mono (fun _ t ht => ?_) (fun _ _ => False.elim) (fun _ => False.elim)
    (ends_sigterm hos hsane hdis h))
  obtain ⟨hends, hforce⟩ := ht
  show host.wp _ _ t
  rw [wp_now, wp_target]
  intro r u ha
  obtain ⟨hpass, hnone, -, -⟩ := answers_waitTimeout ha
  have hu := hends.passes hpass
  rcases r with - | (e | status)
  · obtain ⟨hdue, halive⟩ := hnone rfl
    have hlaw := hforce u hpass halive (le_trans (add_le_deadlineAfter _ _ (by decide)) hdue)
    show host.wp _ (c.kill >>= _) u
    exact wp_bind.mpr (ends_kill hu hlaw fun _ v hv => ends_collect hv)
  · exact hu
  · exact hu

/-- The Windows branch: a forced kill at once. -/
private theorem ends_terminateWindows (hos : s.world.target = .windows)
    (hdis : Dismissed s.world.history c) (h : Ends s c s) : host.wp
    ⟨fun _ => Ends s c, fun _ => Ends s c, Ends s c⟩ (terminateWindows c) s := by
  rw [terminateWindows]
  refine wp_bind.mpr (ends_kill h (fun c' forced hact => ?_) fun _ u hu => ends_collect hu)
  cases hact
  rw [hos]
  exact hdis

/-- `terminate_child` keeps the law, and has asked no child but its own. -/
private theorem ends_terminateChild (h : s.Tends c) (hsane : s.Sane)
    (hcause : Condemned s.world.history) : host.wp
    ⟨fun _ t => t.world.Settled, fun _ t => t.world.Settled, fun t => t.world.Settled⟩
    terminateChild s := by
  have hdis : Dismissed s.world.history c := by
    refine ⟨hcause, by rw [h.last, h.clear.count], fun e he hasks => ?_⟩
    exact absurd (h.clear.old e he c hasks) (Nat.lt_irrefl _)
  have hsettled : ∀ {u : Sys}, Ends { s with sup := { s.sup with child := none } } c u →
      u.world.Settled := fun {u} hu => by
    obtain ⟨es, hlogs, hkills⟩ := hu.logs
    have hnone : spawned es = 0 := List.countP_eq_zero.mpr fun e he => by
      obtain ⟨forced, hact⟩ := hkills e he
      simp [hact, Act.isSpawned]
    refine ⟨hlogs.world.target ▸ hu.law, ?_, fun e he d hd => ?_⟩
    · rw [hlogs.world.length, hlogs.world.history, spawned_append, hnone, Nat.add_zero]
      exact h.clear.count
    · rw [hlogs.world.length]
      rw [hlogs.world.history] at he
      rcases List.mem_append.mp he with he | he
      · exact h.settled.old e he d hd
      · obtain ⟨forced, hact⟩ := hkills e he
        obtain ⟨forced', hact'⟩ := hd
        rw [hact] at hact'
        cases hact'
        exact h.last ▸ Nat.lt_succ_self _
  have hstart : Ends { s with sup := { s.sup with child := none } } c
      { s with sup := { s.sup with child := none } } :=
    ⟨⟨[], .refl _, by simp⟩, h.clear.law⟩
  rw [terminateChild, wp_this, h.child]
  dsimp only
  rw [wp_modifySelf, wp_target]
  have hends : ∀ p : Future (Option ExitStatus), host.wp ⟨fun _ => Ends _ c, fun _ => Ends _ c,
      Ends _ c⟩ p { s with sup := { s.sup with child := none } } → host.wp
      ⟨fun _ t => t.world.Settled, fun _ t => t.world.Settled, fun t => t.world.Settled⟩ p
      { s with sup := { s.sup with child := none } } := fun p hp =>
    wp_mono (fun _ _ => hsettled) (fun _ _ => hsettled) (fun _ => hsettled) hp
  refine hends _ ?_
  cases hos : s.world.target with
  | unix => exact ends_terminateUnix hos hsane hdis hstart
  | windows => exact ends_terminateWindows hos hdis hstart

end Terminate

section Loop

variable {s : Sys} {c : Child}

/-- How a turn may end: the requests kept the law, and a child that is tended has not been
asked. -/
private def Tended (out : End AutosshError Flow) (t : Sys) : Prop :=
  t.world.Settled ∧ ∀ next, out = .ret (.looping next) → ∃ c, t.Tends c

private theorem World.Settled.kept {out : End AutosshError Flow} (h : s.world.Settled)
    (hout : ∀ next, out ≠ .ret (.looping next)) : Tended out s :=
  ⟨h, fun next heq => absurd heq (hout next)⟩

private theorem Sys.Tends.kept (h : s.Tends c) (out : End AutosshError Flow) : Tended out s :=
  ⟨h.settled, fun _ _ => ⟨c, h⟩⟩

/-- A spawn puts a child that has not been asked in the record. -/
private theorem tends_spawnChild (h : s.world.Settled) {Q : Post AutosshError Unit Sys}
    (hret : ∀ c t, t.Tends c → Q.ret () t) (hfail : ∀ e (t : Sys), t.world.Settled → Q.fail e t) :
    host.wp Q spawnChild s := by
  have hlaw : ∀ result, Discipline.Follows (KillLaw s.world.target) (s.world.history ++
      [s.line (.spawned s.sup.sshPath s.sup.argv result)]) := fun result =>
    h.law.concat fun c' forced hact => by cases hact
  have hold : ∀ result, ∀ e ∈ s.world.history ++
      [s.line (.spawned s.sup.sshPath s.sup.argv result)], ∀ d, e.Asks d →
      d.index < s.world.procs.length := by
    rintro result e he d ⟨forced, hact⟩
    rcases List.mem_append.mp he with he | he
    · exact h.old e he d ⟨forced, hact⟩
    · rw [List.mem_singleton.mp he] at hact
      cases hact
  refine wp_spawnChild (fun pid es t _ hem => ?_) fun e _ => ?_
  · have htends : (s.afterSpawn s.sup.argv pid).Tends ⟨s.world.procs.length⟩ := by
      refine ⟨rfl, ?_, hlaw (.ok pid), ?_, hold (.ok pid)⟩
      · simp [Sys.afterSpawn, Sys.spawnedState]
      · show (s.world.procs ++ _).length = spawned (s.world.history ++ _)
        rw [List.length_append, spawned_append, h.count]
        rfl
    exact hret _ t (htends.logs hem.logs hem.mild)
  · refine hfail _ _ ⟨hlaw (.error e), ?_, hold (.error e)⟩
    show s.world.procs.length = spawned (s.world.history ++ _)
    rw [spawned_append, h.count]
    rfl

/-- The spawn of a replacement and its announcement. -/
private theorem tends_replace (h : s.world.Settled) {Q : Post AutosshError Unit Sys}
    (hret : ∀ c t, t.Tends c → Q.ret () t) (hfail : ∀ e (t : Sys), t.world.Settled → Q.fail e t) :
    host.wp Q (do spawnChild; emit .childRespawned) s :=
  wp_bind.mpr (tends_spawnChild h (fun c _ ht => wp_emit fun _ u hem =>
    hret c u (ht.logs hem.logs hem.mild)) hfail)

/-- The first probe of a child that is tended. -/
private theorem kept_firstProbe (h : s.Tends c) :
    host.wp (endsIn Tended) (do let next ← firstProbe; pure (.looping next)) s :=
  wp_bind.mpr (wp_firstProbe (fun _ _ => h.kept _) fun _ => h.kept _)

private theorem kept_startUp (h : s.world.Settled) : host.wp (endsIn Tended) startUp s :=
  wp_bind.mpr (tends_spawnChild h (fun _ _ ht => kept_firstProbe ht)
    fun _ _ ht => ht.kept (by simp))

/-- The backoff and the spawn after it. -/
private theorem tends_respawn (h : s.world.Settled) {Q : Post AutosshError Unit Sys}
    (hret : ∀ c t, t.Tends c → Q.ret () t) (hfail : ∀ e (t : Sys), t.world.Settled → Q.fail e t) :
    host.wp Q respawn s := by
  rw [respawn, wp_this]
  refine wp_bind.mpr (wp_sleep fun a hpass _ => ?_)
  exact tends_replace (h.logs hpass.world (by simp)) hret hfail

/-- A respawn decision asks no child to end. -/
private theorem settled_respawnDecision {outcome : LoopOutcome} {status : ExitStatus}
    {lifetime : Duration} (h : s.world.Settled) {Q : Post AutosshError RespawnDecision Sys}
    (hret : ∀ decision t, t.world.Settled → Q.ret decision t) :
    host.wp Q (respawnDecision outcome status lifetime) s := by
  refine wp_respawnDecision fun decision sup _ => hret decision _ ?_
  exact h.logs (Sys.logs_mark { s with sup := sup } _).world (Sys.mild_mark _ _)

private theorem kept_capped {attempts : UInt32} (h : s.world.Settled) :
    host.wp (endsIn Tended)
      (do emit (.maxStartReached attempts); Prog.fail (.maxStartReached attempts)) s :=
  wp_bind.mpr (wp_emit fun _ _ hem => (h.logs hem.logs.world hem.mild).kept (by simp))

private theorem kept_onChildExited {status : ExitStatus} {lifetime : Duration}
    (h : s.world.Settled) : host.wp (endsIn Tended) (onChildExited status lifetime) s := by
  rw [onChildExited]
  refine wp_bind.mpr (wp_emit fun es b hem => ?_)
  have hb := h.logs hem.logs.world hem.mild
  show host.wp (endsIn Tended) _ b
  rw [wp_modifySelf]
  refine wp_bind.mpr (settled_respawnDecision
    (s := { b with sup := { b.sup with child := none } }) hb fun decision t ht => ?_)
  rcases decision with _ | reason
  · exact wp_bind.mpr (tends_respawn ht (fun _ _ hu => kept_firstProbe hu)
      fun _ _ hu => hu.kept (by simp))
  · cases reason with
    | maxStartReached attempts => exact kept_capped ht
    | _ => exact ht.kept (by simp)

/-- `let _ = self.terminate_child().await`. -/
private theorem settled_dismiss (h : s.Tends c) (hsane : s.Sane)
    (hcause : Condemned s.world.history)
    {Q : Post AutosshError (Except AutosshError (Option ExitStatus)) Sys}
    (hret : ∀ r t, t.world.Settled → Q.ret r t) : host.wp Q terminateChild.attempt s := by
  have hends : host.wp ⟨fun _ _ => True, fun _ _ => True, fun _ => False⟩ terminateChild s :=
    wp_terminateChild h.child (fun _ _ _ _ _ => trivial) fun _ _ _ _ => trivial
  refine wp_attempt.mpr (wp_mono ?_ ?_ ?_ (wp_and (ends_terminateChild h hsane hcause) hends))
  · exact fun a t ht => hret (.ok a) t ht.1
  · exact fun e t ht => hret (.error e) t ht.1
  · exact fun t ht => ht.2.elim

/-- An event before the end of a child keeps what its end needs. -/
private theorem tends_emit {ev : SupervisorEvent} (h : s.Tends c) (hsane : s.Sane)
    (hcause : Condemned s.world.history) {Q : Post AutosshError Unit Sys}
    (hret : ∀ t, t.Tends c → t.Sane → Condemned t.world.history → Q.ret () t) :
    host.wp Q (emit ev) s := by
  refine keeps_sane.wp_of_imp (Prog.only_of_forall (fun _ => trivial) _) hsane ?_
  exact wp_emit fun _ t hem hsane' =>
    hret t (h.logs hem.logs hem.mild) hsane' (hcause.emitted_all hem)

/-- Reading the lifetime of the child changes nothing. -/
private theorem wp_childLifetime_ret {Q : Post AutosshError Duration Sys}
    (hret : ∀ lifetime, Q.ret lifetime s) : host.wp Q childLifetime s := by
  rw [childLifetime, wp_this]
  split
  · rw [wp_now]
    exact hret _
  · exact hret 0

private theorem kept_onProbeTimeout {next : Option Instant} (h : s.Tends c) (hsane : s.Sane)
    (hcause : Condemned s.world.history) :
    host.wp (endsIn Tended) (onProbeTimeout next) s := by
  rw [onProbeTimeout]
  refine wp_bind.mpr (tends_emit h hsane hcause fun b hb hsane' hcause' => ?_)
  refine wp_bind.mpr (wp_mono (fun r t ht => ?_) (fun e t ht => ?_) (fun t ht => ?_)
    (wp_and (ends_terminateChild hb hsane' hcause') (wp_terminateChild (Q :=
      ⟨fun r _ => r ≠ none, fun _ _ => True, fun _ => False⟩) hb.child
      (fun _ _ _ _ _ => by simp) fun _ _ _ _ => trivial)))
  · obtain ⟨hsettled, hsome⟩ := ht
    obtain ⟨status, rfl⟩ := Option.ne_none_iff_exists'.mp hsome
    show host.wp (endsIn Tended) (emit (.childExited status) >>= _) t
    refine wp_bind.mpr (wp_emit fun _ u hem => ?_)
    have hu := hsettled.logs hem.logs.world hem.mild
    show host.wp (endsIn Tended) (childLifetime >>= _) u
    refine wp_bind.mpr (wp_childLifetime_ret fun lifetime => ?_)
    show host.wp (endsIn Tended) _ u
    rw [wp_target]
    refine wp_bind.mpr (settled_respawnDecision hu fun decision v hv => ?_)
    rcases decision with _ | reason
    · refine wp_bind.mpr (tends_respawn hv (fun c' w hw => ?_) fun _ _ hw => hw.kept (by simp))
      show host.wp (endsIn Tended) (await .this >>= _) w
      rw [wp_this]
      exact wp_bind.mpr (wp_nowPlus (fun _ _ => hw.kept _) fun _ => hw.kept _)
    · cases reason with
      | maxStartReached attempts => exact kept_capped hv
      | _ => exact hv.kept (by simp)
  · exact ht.1.kept (by simp)
  · exact ht.2.elim

/-- A signal on which the child is replaced at once. -/
private theorem kept_renew (h : s.Tends c) (hsane : s.Sane) (hcause : Condemned s.world.history) :
    host.wp (endsIn Tended)
      (do handleUsr1Signal; let next ← firstProbe; pure (.looping next)) s :=
  wp_bind.mpr (wp_bind.mpr (settled_dismiss h hsane hcause fun _ _ ht =>
    tends_replace ht (fun _ _ hu => kept_firstProbe hu) fun _ _ hu => hu.kept (by simp)))

private theorem kept_onSignal {kind : SignalKind} (h : s.Tends c) (hsane : s.Sane)
    (hcause : Condemned s.world.history) : host.wp (endsIn Tended) (onSignal kind) s := by
  unfold onSignal
  refine wp_bind.mpr (tends_emit h hsane hcause fun b hb hsane' hcause' => ?_)
  cases kind with
  | userDefined1 => exact kept_renew hb hsane' hcause'
  | hangup =>
    show host.wp (endsIn Tended) (handleHupSignal >>= _) b
    rw [wp_bind, handleHupSignal, wp_modifySelf]
    exact wp_bind.mp (kept_renew (s := { b with sup := { b.sup with retryCount := 0 } })
      ⟨hb.child, hb.last, hb.clear⟩ hsane' hcause')
  | _ =>
    exact wp_bind.mpr (wp_bind.mpr (settled_dismiss hb hsane' hcause' fun _ _ ht =>
      ht.kept (by simp)))

private theorem kept_onExpired (h : s.Tends c) (hsane : s.Sane) :
    host.wp (endsIn Tended) onExpired s := by
  rw [onExpired, wp_trace]
  refine wp_bind.mpr (tends_emit (h.logs (s.logs_mark _) (s.mild_mark _)) hsane
    (.expired rfl) fun b hb hsane' hcause => ?_)
  exact wp_bind.mpr (settled_dismiss hb hsane' hcause fun _ _ ht => ht.kept (by simp))

/-- A probe that failed is a reason to end the child. -/
private theorem condemned_unheard {t : Sys} {next next' : Option Instant} {es : List Entry}
    (h : Ticks s next c es .probeTimeout next' t) :
    Condemned (t.mark (.ticked .probeTimeout)).world.history := by
  have hhist := h.logs.world.history
  cases h with
  | @probed a _ m r n _ hpass _ _ _ _ _ hout =>
    have hr : ∀ bs, r ≠ some (.ok bs) := by
      rintro bs rfl
      cases hout
    show Condemned (t.world.history ++ [t.line (.passed (.ticked .probeTimeout))])
    rw [hhist, List.append_assoc, List.cons_append, ← List.singleton_append, ← List.append_assoc]
    exact .unheard rfl hr rfl

private theorem kept_onOutcome {a : Sys} {next next' : Option Instant} {es : List Entry}
    {outcome : LoopOutcome} (h : s.Tends c) (hticks : Ticks s next c es outcome next' a)
    (hsane : a.Sane) :
    host.wp (endsIn Tended) (onOutcome next' outcome) (a.mark (.ticked outcome)) := by
  have hmark : (a.mark (.ticked outcome)).Tends c :=
    (h.logs hticks.logs hticks.mild).logs (a.logs_mark _) (a.mild_mark _)
  cases outcome with
  | probeOk => exact hmark.kept _
  | childExited status lifetime => exact kept_onChildExited hmark.settled
  | probeTimeout => exact kept_onProbeTimeout hmark hsane (condemned_unheard hticks)
  | signal kind => exact kept_onSignal hmark hsane (.signalled rfl)

/-- What one turn preserves. -/
private theorem kept_turn {next : Option Instant} (htop : LoopTop s next c) (h : s.Tends c)
    (hsane : s.Sane) : host.wp (endsIn Tended) (turn next) s := by
  rw [turn, wp_this, wp_now]
  split
  · exact kept_onExpired h hsane
  · refine wp_bind.mpr (keeps_sane.wp_of_imp (Prog.only_of_forall (fun _ => trivial) _) hsane
      (wp_selectOneTick htop (fun es outcome next' t hticks hsane' => ?_) ?_ ?_))
    · show host.wp (endsIn Tended) _ t
      dsimp only
      rw [wp_trace]
      exact kept_onOutcome h hticks hsane'
    · intro es e t hfails _
      cases hfails with
      | wait hpass => exact (h.settled.logs hpass.world (by simp)).kept (by simp)
    · intro es t hfails _
      cases hfails with
      | @overflow a _ m r hpass _ _ _ hprobes =>
        refine (h.settled.logs (hpass.trans hprobes.logs).world fun e he => ?_).kept (by simp)
        simp only [List.nil_append, List.mem_cons, List.not_mem_nil, or_false] at he
        rcases he with rfl | rfl
        · exact Entry.mild_of_act rfl (by simp) rfl
        · exact Entry.mild_of_act rfl (by simp) rfl

end Loop

/-- What a whole run preserves. -/
private theorem kept_runFor {s₀ : Sys} (hs : s₀.Fresh) (n : Nat) :
    host.wp (endsIn Tended) (runFor n) s₀ := by
  have hsane : s₀.Sane := by simp [Sys.Sane, hs.procs]
  induction n with
  | zero =>
    refine kept_startUp ⟨?_, by simp [hs.procs, hs.history, spawned], by simp [hs.history]⟩
    rw [hs.history]
    exact Discipline.follows_nil
  | succ n ih =>
    rw [runFor, wp_bind]
    refine keeps_sane.wp_of_imp (Prog.only_of_forall (fun _ => trivial) _) hsane
      (wp_mono ?_ ?_ ?_ (wp_and ih (wp_runFor hs.still n)))
    · rintro flow t ⟨hkept, hrun⟩ hsane'
      cases flow with
      | looping next =>
        obtain ⟨es, c, hr⟩ := hrun.reaches
        obtain ⟨c', htends⟩ := hkept.2 next rfl
        have hc : c' = c := Option.some.inj (htends.child.symm.trans hr.loopTop.child)
        exact kept_turn hr.loopTop (hc ▸ htends) hsane'
      | returned => exact hkept
    · exact fun e t ht _ => ht.1
    · exact fun t ht _ => ht.1

private theorem RunEnd.target_eq {s₀ t : Sys} {n : Nat} {out : End AutosshError Flow}
    (h : RunEnd s₀ n out t) : t.world.target = s₀.world.target := by
  cases h with
  | looping hr => exact hr.runs.target
  | closed _ hfin => exact hfin.runs.target

/-- Wherever an execution is, each request for the end of a child that it has made came after
a reason, went to the child spawned last and was the first to it; but a forced kill on Unix,
which came right after the SIGTERM of the same child and no less than ten seconds later. -/
theorem run_kills_for_cause (s₀ : Sys) (hs : s₀.Fresh) (n : Nat) (script : List (List Event)) :
    Discipline.Follows (KillLaw s₀.world.target) (execute n script s₀).state.world.history := by
  obtain ⟨more, hend, hgrows⟩ :=
    exists_completion host_responsive host_logGrows (runFor n) script s₀
  have hend' : (execute n (script ++ more) s₀).out ≠ .pending := hend
  have hlaw := (of_holds_endsIn (wp_sound (kept_runFor hs n) (script ++ more)) hend).1.law
  rw [← (runEnd_of_execute hs.still hend').target_eq]
  exact hlaw.of_prefix hgrows

/-- A child that does not obey SIGTERM is killed ten seconds later. -/
theorem run_kills_for_cause_stubborn :
    ∃ spawn taken asked forced : Entry,
      (execute 1 [[.signal (.signalReceived .terminate)], [.elapse (Duration.fromSecs 10)]]
        ⟨.initial, .initial .unix⟩).state.world.history = [spawn, taken, asked] ++ forced :: [] ∧
      forced.act = .killed ⟨0⟩ true ∧ asked.act = .killed ⟨0⟩ false ∧
      asked.time + Duration.fromSecs 10 ≤ forced.time := by
  refine ⟨_, _, _, _, rfl, rfl, rfl, ?_⟩
  obtain ⟨before, asked, hsplit, -, hle⟩ := run_kills_for_cause _
    (Sys.fresh_initial .initial .unix rfl) 1
    [[.signal (.signalReceived .terminate)], [.elapse (Duration.fromSecs 10)]]
    [_, _, _] _ [] rfl ⟨0⟩ true rfl
  have hlast := congrArg List.getLast? hsplit
  rw [List.getLast?_concat, List.getLast?_cons_cons, List.getLast?_cons_cons,
    List.getLast?_singleton, Option.some.injEq] at hlast
  rw [hlast]
  exact hle

end RustyAutossh
