import RustyAutossh.Alternation
import RustyAutossh.Correctness.Stream
import RustyAutossh.Loop.Reaping

/-!
# Spawns and exits

A child lost to its own exit or to a failed probe is announced when it is reaped. The arms
of the signals and the lifetime check reap theirs without a word, so spawns and exits
alternate in the stream only as long as neither has been taken.
-/

namespace RustyAutossh

open Async Runtime Alternation

/-- Whether an event announces that a child has exited. -/
def SupervisorEvent.isExited : SupervisorEvent → Bool
  | .childExited _ => true
  | _ => false

/-- The events about children. -/
def lives (evs : List SupervisorEvent) : List SupervisorEvent :=
  evs.filter fun ev => ev.isSpawned || ev.isExited

@[simp] theorem lives_append (evs evs' : List SupervisorEvent) :
    lives (evs ++ evs') = lives evs ++ lives evs' :=
  List.filter_append ..

/-- Spawns and exits alternate. -/
abbrev SpawnsAndExits (evs : List SupervisorEvent) : Prop :=
  Alternates SupervisorEvent.isSpawned SupervisorEvent.isExited evs

/-- The last child announced has not been announced to have exited. -/
def Living (evs : List SupervisorEvent) : Prop :=
  ∃ ev, (lives evs).getLast? = some ev ∧ ev.isSpawned = true

/-- A point at which the loop takes a signal or finds the deadline passed. -/
def Mark.interrupts : Mark → Bool
  | .ticked (.signal _) => true
  | .expired => true
  | _ => false

/-- A stretch in which the loop neither takes a signal nor finds the deadline passed. -/
def Undisturbed (es : List Entry) : Prop := ∀ m ∈ marks es, m.interrupts = false

instance (es : List Entry) : Decidable (Undisturbed es) :=
  inferInstanceAs (Decidable (∀ m ∈ marks es, m.interrupts = false))

/-- A line that logs such a point. -/
def Entry.Interrupts (e : Entry) : Prop := ∃ m, e.act = .passed m ∧ m.interrupts = true

/-- A turn is interrupted at once or not at all. -/
theorem Turn.interrupted {s t : Sys} {next : Option Instant} {c : Child} {es : List Entry}
    {out : End AutosshError Flow} (h : Turn s next c es out t) :
    (∃ e fs, es = e :: fs ∧ e.Interrupts) ∨ Undisturbed es := by
  cases h with
  | expired => exact .inl ⟨_, _, rfl, _, rfl, rfl⟩
  | stopped => exact .inl ⟨_, _, rfl, _, rfl, rfl⟩
  | renewed => exact .inl ⟨_, _, rfl, _, rfl, rfl⟩
  | waitFailed => exact .inr (by simp [Undisturbed])
  | probeOverflow _ hfails =>
    cases hfails with
    | overflow =>
      refine .inr fun m hm => ?_
      have hm : m ∈ ([] : List Mark) := hm
      simp at hm
  | probeOk _ hticks => exact .inr (by simp [Undisturbed, hticks.marks_eq, Mark.interrupts])
  | terminateFailed _ hticks hem hterm =>
    exact .inr (by simp [Undisturbed, hticks.marks_eq, hem.marks_eq, hterm.marks_eq,
      Mark.interrupts])
  | lost _ hlost _ hset =>
    refine .inr ?_
    rcases hlost.cause with rfl | ⟨rfl, -⟩ <;>
      simp [Undisturbed, hlost.marks_eq, hset.marks_eq, Mark.interrupts]

/-- What the events of an undisturbed turn say about children: nothing, and the turn counts none
as lost; an exit, and the run is over; or an exit and a spawn, and it goes on. -/
inductive TurnLives (ms : List Mark) : End AutosshError Flow → List SupervisorEvent → Prop
  | quiet {out : End AutosshError Flow} : out ≠ .ret .returned → ms.countP Mark.isLoss = 0 →
      TurnLives ms out []
  | ended {out : End AutosshError Flow} {status : ExitStatus} : IsClosed out →
      TurnLives ms out [.childExited status]
  | replaced {out : End AutosshError Flow} {status : ExitStatus} {pid : UInt32} : ¬ IsClosed out →
      TurnLives ms out [.childExited status, .childSpawned pid]

/-- What follows the exit of a child. -/
theorem SettleWord.turnLives {oneShot : Bool} {out : End AutosshError Flow}
    {word : List SupervisorEvent} (h : SettleWord oneShot out word) (ms : List Mark)
    (status : ExitStatus) : TurnLives ms out (.childExited status :: lives word) := by
  cases h with
  | launched hl =>
    cases hl with
    | failed => exact .ended trivial
    | spawned hloop => exact .replaced hloop
  | _ => exact .ended trivial

/-- Nothing interrupts the turn whose events these are. -/
theorem TurnWord.turnLives {oneShot : Bool} {exited : ExitStatus → Prop} {ms : List Mark}
    {out : End AutosshError Flow} {word : List SupervisorEvent}
    (h : TurnWord oneShot exited ms out word) (hcalm : ∀ m ∈ ms, m.interrupts = false) :
    TurnLives ms out (lives word) := by
  cases h with
  | exited _ hset => exact hset.turnLives _ _
  | timedOut _ hset => exact hset.turnLives _ _
  | waitFailed => exact .quiet (by simp) rfl
  | probeOverflow => exact .quiet (by simp) rfl
  | probeOk => exact .quiet (by simp) rfl
  | terminateFailed => exact .quiet (by simp) rfl
  | expired => simp [Mark.interrupts] at hcalm
  | stopped => simp [Mark.interrupts] at hcalm
  | renewed => simp [Mark.interrupts] at hcalm

/-- A turn begun with a living child goes on alternating, and unless it ends the run the last
child announced is living. -/
theorem TurnLives.alternates {ms : List Mark} {out : End AutosshError Flow}
    {evs word : List SupervisorEvent} (h : TurnLives ms out (lives word))
    (halt : SpawnsAndExits evs) (hliving : Living evs) :
    SpawnsAndExits (evs ++ word) ∧ (¬ IsClosed out → Living (evs ++ word)) := by
  obtain ⟨ev, hlast, hspawned⟩ := hliving
  generalize hw : lives word = ws at h
  have hchain : ws.IsChain (fun a b => a.isSpawned ≠ b.isSpawned) →
      (∀ y, ws.head? = some y → y.isSpawned = false) → SpawnsAndExits (evs ++ word) :=
    fun hws hhead => by
      subst hw
      refine halt.append hws fun x y hx hy => ?_
      have hx : (lives evs).getLast? = some x := hx
      rw [hlast, Option.some.injEq] at hx
      rw [← hx, hspawned, hhead y hy]
      simp
  cases h with
  | quiet =>
    refine ⟨hchain (by simp) (by simp), fun _ => ⟨ev, ?_, hspawned⟩⟩
    rw [lives_append, hw, List.append_nil, hlast]
  | ended hclosed =>
    exact ⟨hchain (by simp) (by simp [SupervisorEvent.isSpawned]), fun hne => absurd hclosed hne⟩
  | @replaced _ pid _ =>
    refine ⟨hchain (by simp [SupervisorEvent.isSpawned]) (by simp [SupervisorEvent.isSpawned]),
      fun _ => ⟨.childSpawned pid, ?_, rfl⟩⟩
    rw [lives_append, hw]
    simp

/-- The first launch announces a living child, or the run is over. -/
theorem LaunchWord.alternates {out : End AutosshError Flow} {word : List SupervisorEvent}
    (h : LaunchWord [] out word) : SpawnsAndExits word ∧ (¬ IsClosed out → Living word) := by
  cases h with
  | failed => exact ⟨List.IsChain.nil, fun hne => absurd trivial hne⟩
  | @spawned pid _ _ => exact ⟨List.IsChain.singleton _, fun _ => ⟨.childSpawned pid, rfl, rfl⟩⟩

/-- A log whose events alternate up to the first interruption, and whose last child is living
if there is none and the run has not ended. -/
def AlternatesUntil (out : End AutosshError Flow) (es : List Entry) : Prop :=
  (SpawnsAndExits (events es) ∧ (¬ IsClosed out → Living (events es))) ∨
    ∃ fs e gs, es = fs ++ e :: gs ∧ e.Interrupts ∧ SpawnsAndExits (events fs)

/-- The log of every run heard to its end alternates until it is interrupted. -/
theorem RunEnd.alternatesUntil {s₀ t : Sys} {n : Nat} {out : End AutosshError Flow}
    (h : RunEnd s₀ n out t) (hs : s₀.Fresh) (htx : s₀.sup.eventTx ≠ none)
    (hopen : t.world.inboxOpen = true) : AlternatesUntil out t.world.history := by
  refine h.invariant (fun out t es => t.world.inboxOpen = true → AlternatesUntil out es) ?_ ?_ hs
    hopen
  · intro es out t hl hopen
    exact .inl (hl.word htx hopen).alternates
  · intro m es fs s t next c out hr ih hturn hopen
    have hevents := hr.runs.settings.eventTx
    rcases ih (hturn.heard.inboxOpen hopen) with ⟨halt, hliving⟩ | ⟨es, e, gs, rfl, he, halt⟩
    · rcases hturn.interrupted with ⟨e, gs, rfl, he⟩ | hcalm
      · exact .inr ⟨es, e, gs, rfl, he, halt⟩
      · rw [AlternatesUntil, events_append]
        exact .inl (((hturn.word (hevents ▸ htx) hopen).turnLives hcalm).alternates halt
          (hliving id))
    · exact .inr ⟨es, e, gs ++ fs, by simp, he, halt⟩

/-- The events of an undisturbed beginning of such a log alternate. -/
theorem AlternatesUntil.of_append {out : End AutosshError Flow} {es more : List Entry}
    (h : AlternatesUntil out (es ++ more)) (hcalm : Undisturbed es) :
    SpawnsAndExits (events es) := by
  rcases h with ⟨halt, -⟩ | ⟨fs, e, gs, heq, ⟨m, hact, hm⟩, halt⟩
  · rw [events_append] at halt
    exact halt.left_of_append
  · rcases append_cons_cases heq with ⟨c, rfl, -⟩ | ⟨c, rfl, -⟩
    · have := hcalm m (mem_marks (by simp) hact)
      simp [hm] at this
    · rw [events_append] at halt
      exact halt.left_of_append

/-- Every two consecutive spawns have exactly one exit between them. -/
def OneExitBetweenSpawns (evs : List SupervisorEvent) : Prop :=
  ∀ {a b c p q}, evs = a ++ .childSpawned p :: (b ++ .childSpawned q :: c) → announced b = 0 →
    ∃ status, b.filter (·.isExited) = [.childExited status]

/-- Every child that has been reaped has exactly one exit, with its status, after its spawn and
before the next. -/
def OneExitPerReaped (w : World) (evs : List SupervisorEvent) : Prop :=
  ∀ {i p}, w.procs[i]? = some p → p.reaped = true → ∃ status b,
    Stretch SupervisorEvent.isSpawned evs i b ∧ p.status = some status ∧
      b.filter (·.isExited) = [.childExited status]

theorem exists_childExited {evs : List SupervisorEvent} {ev : SupervisorEvent}
    (h : evs.filter (·.isExited) = [ev]) : ∃ status, ev = .childExited status := by
  have hmem : ev ∈ evs.filter (·.isExited) := by simp [h]
  have hexited := (List.mem_filter.mp hmem).2
  cases ev with
  | childExited status => exact ⟨status, rfl⟩
  | _ => simp [SupervisorEvent.isExited] at hexited

/-- An undisturbed turn reaps no child but the one whose exit it announces last. -/
theorem TurnLives.unreaped {k : Nat} {t : Sys} {ms : List Mark} {out : End AutosshError Flow}
    {ws : List SupervisorEvent} (h : TurnLives ms out ws) (hleaves : Leaves k out t)
    (hlosses : t.losses = k + ms.countP Mark.isLoss) (hws : ∀ status, ws ≠ [.childExited status]) :
    t.LastUnreaped := by
  cases h with
  | quiet hret hzero => exact hleaves.of_no_loss hret (by rw [hlosses, hzero, Nat.add_zero])
  | ended => exact absurd rfl (hws _)
  | replaced hopen => exact hleaves.of_open hopen

/-- A run heard to an undisturbed end has not reaped a child announced as living. -/
theorem execute_unreaped {s₀ : Sys} (hs : s₀.Fresh) (htx : s₀.sup.eventTx ≠ none) {n : Nat}
    {script : List (List Event)} (hopen : (execute n script s₀).state.world.inboxOpen = true)
    (hcalm : Undisturbed (execute n script s₀).state.world.history)
    (hend : (execute n script s₀).out ≠ .pending)
    (hliving : Living (execute n script s₀).state.stream) :
    (execute n script s₀).state.LastUnreaped := by
  rcases execute_leaves hs hend with
    ⟨es, -, hlast⟩ | ⟨m, es, top, next, c, fs, hr, hturn, hleaves⟩
  · exact hlast
  · have hhist := (hr.runs.trans hturn.runs).history_of_fresh hs
    have hevents := hr.runs.settings.eventTx
    rw [hhist] at hcalm
    have hlives := (hturn.word (hevents ▸ htx) hopen).turnLives fun m hm =>
      hcalm m (by rw [marks_append]; exact List.mem_append_right _ hm)
    refine hlives.unreaped hleaves ?_ fun status hws => ?_
    · rw [Sys.losses, Sys.losses, hhist, marks_append, List.countP_append,
        hr.runs.history_of_fresh hs]
    · obtain ⟨ev, hev, hspawned⟩ := hliving
      rw [Sys.stream, hhist, events_append, lives_append, hws, List.getLast?_concat,
        Option.some.injEq] at hev
      rw [← hev] at hspawned
      cases hspawned

/-- An exit announced between the spawn of a child and the next is that of the child. -/
theorem Streams.exitedWith {oneShot : Bool} {w : World} {out : End AutosshError Flow}
    {evs b : List SupervisorEvent} {ms : List Mark} {i : Nat} {status : ExitStatus}
    (h : Streams oneShot w out evs ms) (hb : Stretch SupervisorEvent.isSpawned evs i b)
    (hmem : .childExited status ∈ b) : w.ExitedWith ⟨i⟩ status := by
  obtain ⟨⟨a, o, c, rfl, ho, hi, -⟩, hinner⟩ := hb
  obtain ⟨b, b', rfl⟩ := List.append_of_mem hmem
  have hsplit : a ++ o :: (b ++ .childExited status :: b' ++ c) =
      (a ++ o :: b) ++ .childExited status :: (b' ++ c) := by simp
  obtain ⟨j, hj, hex⟩ : ∃ j, announced (a ++ o :: b) = j + 1 ∧ w.ExitedWith ⟨j⟩ status :=
    h.fits.place hsplit
  have hzero : b.countP SupervisorEvent.isSpawned = 0 := by
    rw [List.countP_append] at hinner
    omega
  have hcount : announced (a ++ o :: b) = i + 1 := by
    rw [announced, List.countP_append, List.countP_cons_of_pos ho, hi, hzero]
  have hij : j = i := by omega
  exact hij ▸ hex

/-- As long as somebody receives and the loop neither takes a signal nor finds the deadline
passed, spawns and exits alternate in every state of a run, and in every state that is not
suspended each child reaped has one exit with its status between its spawn and the next. -/
theorem run_exits_alternate (s₀ : Sys) (hs : s₀.Fresh) (htx : s₀.sup.eventTx ≠ none) (n : Nat)
    (script : List (List Event)) (hopen : (execute n script s₀).state.world.inboxOpen = true)
    (hcalm : Undisturbed (execute n script s₀).state.world.history) :
    OneExitBetweenSpawns (execute n script s₀).state.stream ∧
      ((execute n script s₀).out ≠ .pending →
        OneExitPerReaped (execute n script s₀).state.world (execute n script s₀).state.stream) := by
  have halt : SpawnsAndExits (execute n script s₀).state.stream := by
    obtain ⟨more, hend, ⟨es, hes⟩, hopen'⟩ :=
      exists_completion_within host_listening host_logGrows (runFor n) script s₀ hopen
    have huntil := (runEnd_of_execute hs.still hend).alternatesUntil hs htx hopen'
    have hes : (execute n script s₀).state.world.history ++ es =
        (execute n (script ++ more) s₀).state.world.history := hes
    rw [← hes] at huntil
    exact huntil.of_append hcalm
  refine ⟨fun {a b c p q} heq hb => ?_, fun hend {i p} hp hreaped => ?_⟩
  · obtain ⟨ev, hev⟩ := halt.between heq rfl rfl hb
    obtain ⟨status, rfl⟩ := exists_childExited hev
    exact ⟨status, hev⟩
  · have hstreams := (runEnd_of_execute hs.still hend).streams hs htx hopen
    have hlength : (execute n script s₀).state.world.procs.length =
        announced (execute n script s₀).state.stream := hstreams.length
    have hlt : i < announced (execute n script s₀).state.stream := by
      rw [← hlength]
      exact (List.getElem?_eq_some_iff.mp hp).1
    obtain ⟨b, hstretch⟩ := exists_stretch hlt
    rcases halt.stretch hstretch with ⟨ev, hev⟩ | ⟨-, hcount, hliving⟩
    · obtain ⟨status, rfl⟩ := exists_childExited hev
      have hmem : .childExited status ∈ b.filter (·.isExited) := by simp [hev]
      obtain ⟨q, hq, hstatus⟩ := hstreams.exitedWith hstretch (List.mem_of_mem_filter hmem)
      rw [hp, Option.some.injEq] at hq
      exact ⟨status, b, hstretch, hq ▸ hstatus, hev⟩
    · have hcount : announced (execute n script s₀).state.stream = i + 1 := hcount
      have hlast := execute_unreaped hs htx hopen hcalm hend hliving p
      rw [List.getLast?_eq_getElem?, hlength, hcount, Nat.add_sub_cancel] at hlast
      rw [hlast hp] at hreaped
      cases hreaped

/-- A crash and the backoff after it. -/
def crashThenRespawn : List (List Event) :=
  [[.exit 0 ⟨256⟩], [.elapse (Duration.fromSecs 30)]]

/-- The crash of the first child is announced once, before its successor. -/
theorem run_exits_alternate_crash :
    let run := execute 1 crashThenRespawn ⟨.heardWithin 5 (by decide), .initial .unix⟩
    ∃ status b, Stretch SupervisorEvent.isSpawned run.state.stream 0 b ∧
      some (ExitStatus.mk 256) = some status ∧ b.filter (·.isExited) = [.childExited status] :=
  (run_exits_alternate ⟨.heardWithin 5 (by decide), .initial .unix⟩
    (Sys.fresh_initial (.heardWithin 5 (by decide)) .unix rfl) (by decide) 1 crashThenRespawn
    (by decide +kernel) (by decide +kernel)).2 (by decide +kernel)
    (p := ⟨1, 0, some ⟨256⟩, true⟩) (by decide +kernel) rfl

/-- After SIGUSR1 two spawns stand in the stream without an exit, though the first child has
been reaped. -/
theorem run_renews_without_exit :
    let run := execute 1 [[.signal (.signalReceived .userDefined1)], [.exit 0 ⟨15⟩]]
      ⟨.heardWithin 5 (by decide), .initial .unix⟩
    run.state.world.inboxOpen = true ∧
      run.state.world.procs[0]? = some ⟨1, 0, some ⟨15⟩, true⟩ ∧
      run.state.stream =
        [.childSpawned 1, .signalReceived .userDefined1, .childSpawned 2, .childRespawned] ∧
      ¬ OneExitBetweenSpawns run.state.stream ∧
      ¬ OneExitPerReaped run.state.world run.state.stream := by
  have hstream : (execute 1 [[.signal (.signalReceived .userDefined1)], [.exit 0 ⟨15⟩]]
      ⟨.heardWithin 5 (by decide), .initial .unix⟩).state.stream =
        [.childSpawned 1, .signalReceived .userDefined1, .childSpawned 2, .childRespawned] := by
    decide +kernel
  refine ⟨by decide +kernel, by decide +kernel, hstream, fun h => ?_, fun h => ?_⟩
  · obtain ⟨status, hexit⟩ := h (a := []) (b := [.signalReceived .userDefined1])
      (c := [.childRespawned]) (p := 1) (q := 2) hstream rfl
    simp [SupervisorEvent.isExited] at hexit
  · obtain ⟨status, b, hstretch, -, hexit⟩ := h (i := 0) (p := ⟨1, 0, some ⟨15⟩, true⟩)
      (by decide +kernel) rfl
    obtain ⟨a, o, c, hsplit, -⟩ := hstretch.split
    have hmem : .childExited status ∈ b.filter (·.isExited) := by simp [hexit]
    have hin : .childExited status ∈ a ++ o :: (b ++ c) := by
      simp [List.mem_of_mem_filter hmem]
    rw [← hsplit, hstream] at hin
    simp at hin

end RustyAutossh
