import RustyAutossh.Loop.Growth
import RustyAutossh.Correctness.Lifetime
import RustyAutossh.Correctness.Result

/-!
# Natural exits and the heartbeat

The `select!` prefers the exit of the child to the probe timer, but once the timer has
won, the probe is awaited alone. A child that exits during a probe that then fails is
taken for one that the probe has lost, and its own status is not looked at.
-/

namespace RustyAutossh

open Async Runtime

/-- A line that logs a probe that has failed or timed out. -/
def Entry.IsFailedProbe (e : Entry) : Prop :=
  ∃ r, e.act = .probed r ∧ probeResult r ≠ .ok ()

instance : DecidablePred Entry.IsFailedProbe := fun e =>
  match hact : e.act with
  | .probed r => decidable_of_iff (probeResult r ≠ .ok ())
    ⟨fun hr => ⟨r, hact, hr⟩, fun ⟨_, hr, hne⟩ => Act.probed.inj (hact.symm.trans hr) ▸ hne⟩
  | .spawned _ _ _ | .killed _ _ | .emitted _ | .probing _ _ | .passed _ =>
    .isFalse fun ⟨_, hr, _⟩ => by simp [hr] at hact

/-- A line that blames the loss of a child on the probe: its outcome, its event, or the decision
on the synthetic status. -/
def Entry.BlamesProbe (e : Entry) : Prop :=
  e.act = .passed (.ticked .probeTimeout) ∨ e.act = .emitted .probeTimeout ∨
    ∃ status lifetime decision, e.act = .passed (.decided .probeTimeout status lifetime decision)

/-- Lines that neither log a failed probe nor blame one. -/
def Calm (es : List Entry) : Prop := ∀ e ∈ es, ¬ e.IsFailedProbe ∧ ¬ e.BlamesProbe

theorem Calm.append {es fs : List Entry} (h : Calm es) (h' : Calm fs) : Calm (es ++ fs) := by
  intro e he
  rcases List.mem_append.mp he with he | he
  · exact h e he
  · exact h' e he

theorem Calm.cons {e : Entry} {es : List Entry} (he : ¬ e.IsFailedProbe ∧ ¬ e.BlamesProbe)
    (h : Calm es) : Calm (e :: es) := by
  intro f hf
  rcases List.mem_cons.mp hf with rfl | hf
  · exact he
  · exact h f hf

/-- A point passed that does not blame the probe. -/
theorem Sys.calm_passed (s : Sys) {m : Mark} (htick : m ≠ .ticked .probeTimeout)
    (hdecided : ∀ status lifetime decision, m ≠ .decided .probeTimeout status lifetime decision) :
    ¬ (s.line (.passed m)).IsFailedProbe ∧ ¬ (s.line (.passed m)).BlamesProbe := by
  refine ⟨?_, ?_⟩
  · rintro ⟨r, hact, -⟩
    simp at hact
  · rintro (hact | hact | ⟨status, lifetime, decision, hact⟩)
    · exact htick (by simpa using hact)
    · simp at hact
    · exact hdecided _ _ _ (by simpa using hact)

theorem Emitted.calm {s t : Sys} {evs : List SupervisorEvent} {es : List Entry}
    (h : Emitted s evs es t) (hne : .probeTimeout ∉ evs) : Calm es := by
  intro e he
  obtain ⟨ev, hev, hact⟩ := List.mem_map.mp (h.acts.subset (List.mem_map_of_mem he))
  refine ⟨?_, ?_⟩
  · rintro ⟨r, hr, -⟩
    rw [hr] at hact
    cases hact
  · rintro (h' | h' | ⟨_, _, _, h'⟩) <;> rw [h'] at hact <;> cases hact
    exact hne hev

theorem Terminates.calm {s t : Sys} {c : Child} {es : List Entry} (h : Terminates s c es t) :
    Calm es := by
  intro e he
  obtain ⟨forced, hact⟩ := h.kills e he
  refine ⟨?_, ?_⟩
  · rintro ⟨r, hr, -⟩
    simp [hr] at hact
  · rintro (h' | h' | ⟨_, _, _, h'⟩) <;> simp [h'] at hact

theorem Launches.calm {s t : Sys} {announced : List SupervisorEvent} {es : List Entry}
    {out : End AutosshError Flow} (h : Launches s announced es out t)
    (hne : .probeTimeout ∉ announced) : Calm es := by
  have hspawn : ∀ result, ¬ (s.line (.spawned s.sup.sshPath s.sup.argv result)).IsFailedProbe ∧
      ¬ (s.line (.spawned s.sup.sshPath s.sup.argv result)).BlamesProbe := by
    refine fun result => ⟨?_, ?_⟩
    · rintro ⟨r, hact, -⟩
      simp at hact
    · rintro (hact | hact | ⟨_, _, _, hact⟩) <;> simp at hact
  cases h with
  | failed => exact .cons (hspawn _) (by simp [Calm])
  | looping _ hem => exact .cons (hspawn _) (hem.calm (by simp [hne]))
  | overflow _ hem => exact .cons (hspawn _) (hem.calm (by simp [hne]))

theorem Settles.calm {s t : Sys} {outcome : LoopOutcome} {decision : RespawnDecision}
    {es : List Entry} {out : End AutosshError Flow} (h : Settles s outcome decision es out t) :
    Calm es := by
  cases h with
  | respawn _ _ hl => exact hl.calm (by simp)
  | capped hem => exact hem.calm (by simp)
  | _ => simp [Calm]

/-- What a turn has to do with failed probes: nothing, or it made one, and then blames it before
it spawns. -/
private inductive ProbeTurn (out : End AutosshError Flow) : List Entry → Prop
  | calm {es : List Entry} : Calm es → ProbeTurn out es
  | failed {e f : Entry} {es fs : List Entry} : Calm [e] → f.IsFailedProbe →
      (∀ g ∈ es ++ fs, ¬ g.IsFailedProbe) → (∀ g ∈ es, ¬ g.IsSpawn) → Calm fs →
      ((marks (es ++ fs)).head? = some (.ticked .probeTimeout) ∨
        out = .abort ∧ marks (es ++ fs) = []) →
      ProbeTurn out (e :: f :: (es ++ fs))

/-- The line that begins a probe. -/
private theorem Sys.calm_probing (s : Sys) (port : UInt16) (payload : List UInt8) :
    Calm [s.line (.probing port payload)] := by
  refine .cons ⟨?_, ?_⟩ (by simp [Calm])
  · rintro ⟨r, hact, -⟩
    simp at hact
  · rintro (hact | hact | ⟨_, _, _, hact⟩) <;> simp at hact

/-- The line that ends a probe which has succeeded. -/
private theorem Sys.calm_probed (s : Sys) {r : Option (Except IoError (List UInt8))}
    (hr : probeResult r = .ok ()) : Calm [s.line (.probed r)] := by
  refine .cons ⟨?_, ?_⟩ (by simp [Calm])
  · rintro ⟨r', hact, hne⟩
    simp only [Sys.line_act, Act.probed.injEq] at hact
    exact hne (hact ▸ hr)
  · rintro (hact | hact | ⟨_, _, _, hact⟩) <;> simp at hact

/-- A tick that reports a failed probe logs its beginning and its failure. -/
private theorem Ticks.failed {s t : Sys} {next next' : Option Instant} {c : Child}
    {es : List Entry} (h : Ticks s next c es .probeTimeout next' t) :
    ∃ e f, es = [e, f] ∧ Calm [e] ∧ f.IsFailedProbe := by
  cases h with
  | probed _ _ _ _ _ _ hout =>
    refine ⟨_, _, rfl, Sys.calm_probing _ _ _, _, rfl, fun hok => ?_⟩
    rw [hok] at hout
    cases hout

/-- Emitted events log no probe. -/
private theorem Emitted.not_isFailedProbe {s t : Sys} {evs : List SupervisorEvent}
    {es : List Entry} (h : Emitted s evs es t) : ∀ e ∈ es, ¬ e.IsFailedProbe := by
  rintro e he ⟨r, hr, -⟩
  obtain ⟨ev, -, hact⟩ := List.mem_map.mp (h.acts.subset (List.mem_map_of_mem he))
  rw [hr] at hact
  cases hact

/-- A line that logs a point passed logs no probe. -/
private theorem Sys.not_isFailedProbe_passed (s : Sys) (m : Mark) :
    ¬ (s.line (.passed m)).IsFailedProbe := by
  rintro ⟨r, hact, -⟩
  simp at hact

/-- Winding a child down logs no probe. -/
private theorem not_isFailedProbe_winding {s t u v : Sys} {m : Mark} {c : Child}
    {evs : List SupervisorEvent} {es fs : List Entry} (hem : Emitted (s.mark m) evs es t)
    (hterm : Terminates u c fs v) :
    ∀ g ∈ s.line (.passed m) :: (es ++ fs), ¬ g.IsFailedProbe := by
  intro g hg
  rw [List.mem_cons, List.mem_append] at hg
  rcases hg with rfl | hg | hg
  · exact Sys.not_isFailedProbe_passed _ _
  · exact hem.not_isFailedProbe g hg
  · exact (hterm.calm g hg).1

/-- Nor does it blame one, if neither its point nor its events do. -/
private theorem calm_winding {s t u v : Sys} {m : Mark} {c : Child} {evs : List SupervisorEvent}
    {es fs : List Entry} (hem : Emitted (s.mark m) evs es t) (hterm : Terminates u c fs v)
    (htick : m ≠ .ticked .probeTimeout)
    (hdecided : ∀ status lifetime decision, m ≠ .decided .probeTimeout status lifetime decision)
    (hne : .probeTimeout ∉ evs) : Calm (s.line (.passed m) :: (es ++ fs)) :=
  .cons (Sys.calm_passed _ htick hdecided) ((hem.calm hne).append hterm.calm)

/-- The loss of a child to its own exit has nothing to do with a probe. -/
private theorem Lost.calm {s t : Sys} {next : Option Instant} {c : Child} {es : List Entry}
    {status status' : ExitStatus} {lifetime lifetime' : Duration}
    (h : Lost s next c es (.childExited status lifetime) status' lifetime' t) : Calm es := by
  cases h with
  | exited hticks hem =>
    exact .cons (Sys.calm_passed _ (by simp) (by simp)) (hem.calm (by simp))

/-- The loss of a child to a failed probe begins with the probe, and there is no other. -/
private theorem Lost.failed {s t : Sys} {next : Option Instant} {c : Child} {es : List Entry}
    {status : ExitStatus} {lifetime : Duration}
    (h : Lost s next c es .probeTimeout status lifetime t) :
    ∃ p f rest, es = p :: f :: rest ∧ Calm [p] ∧ f.IsFailedProbe ∧
      (marks rest).head? = some (.ticked .probeTimeout) ∧
      ∀ g ∈ rest, ¬ g.IsFailedProbe ∧ ¬ g.IsSpawn := by
  cases h with
  | @timedOut es fs gs hs a b d t next' real spawnedAt hticks hem hterm _ hem' =>
    obtain ⟨p, f, rfl, hp, hf⟩ := hticks.failed
    refine ⟨p, f, a.line (.passed (.ticked .probeTimeout)) :: (fs ++ gs) ++ hs, rfl, hp, hf,
      by simp, fun g hg => ?_⟩
    rcases List.mem_append.mp hg with hg | hg
    · exact ⟨not_isFailedProbe_winding hem hterm g hg, not_isSpawn_winding hem hterm g hg⟩
    · exact ⟨hem'.not_isFailedProbe g hg, (hem'.quiet g hg).1⟩

private theorem Turn.probeTurn {s t : Sys} {next : Option Instant} {c : Child} {es : List Entry}
    {out : End AutosshError Flow} (h : Turn s next c es out t) : ProbeTurn out es := by
  cases h with
  | expired _ hem hterm => exact .calm (calm_winding hem hterm (by simp) (by simp) (by simp))
  | waitFailed => exact .calm (by simp [Calm])
  | probeOverflow _ hfails =>
    cases hfails with
    | @overflow a t m r =>
      by_cases hr : probeResult r = .ok ()
      · exact .calm ((Sys.calm_probing _ _ _).append (Sys.calm_probed _ hr))
      · have hnil : ([] : List Entry) = [] ++ [] := rfl
        rw [hnil]
        exact .failed (Sys.calm_probing _ _ _) ⟨r, rfl, hr⟩ (by simp) (by simp) (by simp [Calm])
          (.inr ⟨rfl, rfl⟩)
  | probeOk _ hticks =>
    cases hticks with
    | @probed a t m r n _ _ _ _ _ _ _ hout =>
      have hr : probeResult r = .ok () := by
        cases hres : probeResult r with
        | ok u => rfl
        | error e => rw [hres] at hout; cases hout
      exact .calm (((Sys.calm_probing _ _ _).append (Sys.calm_probed _ hr)).append
        (.cons (Sys.calm_passed _ (by simp) (by simp)) (by simp [Calm])))
  | @terminateFailed es fs gs next' a b t e _ hticks hem hterm =>
    obtain ⟨p, f, rfl, hp, hf⟩ := hticks.failed
    have hsplit : [p, f] ++ a.line (.passed (.ticked .probeTimeout)) :: (fs ++ gs) =
        p :: f :: ((a.line (.passed (.ticked .probeTimeout)) :: (fs ++ gs)) ++ []) := by simp
    rw [hsplit]
    refine .failed hp hf (fun g hg => ?_) (not_isSpawn_winding hem hterm) (by simp [Calm])
      (.inl (by simp))
    rw [List.append_nil] at hg
    exact not_isFailedProbe_winding hem hterm g hg
  | @lost es us outcome status lifetime d t decision sup out _ hlost hdec hset =>
    rcases hlost.cause with rfl | ⟨rfl, -⟩
    · exact .calm (hlost.calm.append
        (.cons (Sys.calm_passed _ (by simp) (by simp)) hset.calm))
    · obtain ⟨p, f, rest, rfl, hp, hf, hhead, hrest⟩ := hlost.failed
      have hsplit : p :: f :: rest ++
          d.line (.passed (.decided .probeTimeout status lifetime decision)) :: us =
          p :: f :: ((rest ++
            [d.line (.passed (.decided .probeTimeout status lifetime decision))]) ++ us) := by simp
      rw [hsplit]
      refine .failed hp hf (fun g hg => ?_) (fun g hg => ?_) hset.calm (.inl ?_)
      · rcases List.mem_append.mp hg with hg | hg
        · rcases List.mem_append.mp hg with hg | hg
          · exact (hrest g hg).1
          · exact List.mem_singleton.mp hg ▸ Sys.not_isFailedProbe_passed _ _
        · exact (hset.calm g hg).1
      · rcases List.mem_append.mp hg with hg | hg
        · exact (hrest g hg).2
        · exact List.mem_singleton.mp hg ▸ Sys.not_isSpawn_passed _ _
      · simp [marks_append, List.head?_append, hhead]
  | stopped _ hticks _ hem hterm =>
    exact .calm (calm_winding hem hterm (by simp) (by simp) (by simp))
  | renewed _ hticks _ hem hterm hl =>
    exact .calm ((calm_winding hem hterm (by simp) (by simp) (by simp)).append (hl.calm (by simp)))

/-- A probe has failed since the last spawn of a stretch. -/
def ProbeFailed (es : List Entry) : Prop :=
  ∃ a f b, es = a ++ f :: b ∧ f.IsFailedProbe ∧ ∀ g ∈ b, ¬ g.IsSpawn

/-- Blame falls on the probe only after one has failed, and that is what the loop sees next. -/
private structure ProbeLog (out : End AutosshError Flow) (es : List Entry) : Prop where
  blamed : ∀ a e b, es = a ++ e :: b → e.BlamesProbe → ProbeFailed a
  failed : ∀ a e b, es = a ++ e :: b → e.IsFailedProbe →
    (marks b).head? = some (.ticked .probeTimeout) ∨ out = .abort ∧ marks b = []

private theorem Calm.probeLog {out : End AutosshError Flow} {es : List Entry} (h : Calm es) :
    ProbeLog out es where
  blamed a e b heq hblame := absurd hblame (h e (by simp [heq])).2
  failed a e b heq hfailed := absurd hfailed (h e (by simp [heq])).1

private theorem ProbeTurn.probeLog {out : End AutosshError Flow} {es : List Entry}
    (h : ProbeTurn out es) : ProbeLog out es := by
  cases h with
  | calm hcalm => exact hcalm.probeLog
  | @failed p f es fs hp hf hnone hspawn hfs hmarks =>
    have hnot : ¬ f.BlamesProbe := by
      obtain ⟨r, hr, -⟩ := hf
      rintro (hact | hact | ⟨_, _, _, hact⟩) <;> simp [hr] at hact
    refine ⟨fun a e b heq hblame => ?_, fun a e b heq hfailed => ?_⟩
    · have heq : [p, f] ++ (es ++ fs) = a ++ e :: b := heq
      rcases append_cons_cases heq with ⟨c, hpf, -⟩ | ⟨c, rfl, hrest⟩
      · have hmem : e ∈ [p, f] := by simp [hpf]
        simp only [List.mem_cons, List.not_mem_nil, or_false] at hmem
        rcases hmem with rfl | rfl
        · exact absurd hblame (hp _ (by simp)).2
        · exact absurd hblame hnot
      · refine ⟨[p], f, c, rfl, hf, fun g hg => ?_⟩
        rcases append_cons_cases hrest with ⟨d, rfl, -⟩ | ⟨d, -, rfl⟩
        · exact hspawn g (by simp [hg])
        · exact absurd hblame (hfs e (by simp)).2
    · have heq : [p, f] ++ (es ++ fs) = a ++ e :: b := heq
      rcases append_cons_cases heq with ⟨c, hpf, hb⟩ | ⟨c, -, hrest⟩
      · have hc : c = [] := by
          cases a with
          | nil =>
            simp only [List.nil_append, List.cons.injEq] at hpf
            exact absurd (hpf.1 ▸ hfailed) (hp p (by simp)).1
          | cons g a =>
            have hlen := congrArg List.length hpf
            simp only [List.length_append, List.length_cons, List.length_nil] at hlen
            exact List.length_eq_zero_iff.mp (by omega)
        subst hc
        rw [hb]
        exact hmarks
      · exact absurd hfailed (hnone e (by simp [hrest]))

/-- What holds of a run's log up to a top of the loop holds with the next turn's lines. -/
private theorem ProbeLog.append {next : Option Instant} {out : End AutosshError Flow}
    {es fs : List Entry} (h : ProbeLog (.ret (.looping next)) es) (h' : ProbeLog out fs) :
    ProbeLog out (es ++ fs) := by
  refine ⟨fun a e b heq hblame => ?_, fun a e b heq hfailed => ?_⟩
  · rcases append_cons_cases heq with ⟨c, hes, -⟩ | ⟨c, rfl, hfs⟩
    · exact h.blamed a e c hes hblame
    · obtain ⟨a', f, b', rfl, hf, hspawn⟩ := h'.blamed c e b hfs hblame
      exact ⟨es ++ a', f, b', by simp, hf, hspawn⟩
  · rcases append_cons_cases heq with ⟨c, hes, rfl⟩ | ⟨c, -, hfs⟩
    · rcases h.failed a e c hes hfailed with hhead | ⟨habort, -⟩
      · left
        rw [marks_append, List.head?_append, hhead]
        rfl
      · cases habort
    · exact h'.failed c e b hfs hfailed

private theorem RunEnd.probeLog {s₀ t : Sys} {n : Nat} {out : End AutosshError Flow}
    (h : RunEnd s₀ n out t) (hs : s₀.Fresh) : ProbeLog out t.world.history :=
  h.invariant (fun out _ es => ProbeLog out es) (fun hl => (hl.calm (by simp)).probeLog)
    (fun _ ih hturn => ih.append hturn.probeTurn.probeLog) hs

/-- A turn decides on the status with which its child has exited, or on a failed probe. -/
private theorem Turn.decided {s t : Sys} {next : Option Instant} {c : Child} {es : List Entry}
    {out : End AutosshError Flow} (h : Turn s next c es out t) {a b : List Entry} {e : Entry}
    {outcome : LoopOutcome} {status : ExitStatus} {lifetime : Duration}
    {decision : RespawnDecision} (heq : es = a ++ e :: b)
    (hact : e.act = .passed (.decided outcome status lifetime decision)) :
    spawned a = 0 ∧ (outcome = .childExited status lifetime ∧ t.world.ExitedWith c status ∨
      outcome = .probeTimeout) := by
  have hmem : Mark.decided outcome status lifetime decision ∈ marks es :=
    mem_marks (by simp [heq]) hact
  cases h with
  | @lost es fs outcome' status' lifetime' d t decision' sup out _ hlost hdec hset =>
    have hsame : a = es ∧ e = d.line (.passed (.decided outcome' status' lifetime' decision')) := by
      have hnot : ∀ {gs}, Mark.decided outcome status lifetime decision ∉ marks gs → e ∉ gs :=
        fun hgs he => hgs (mem_marks he hact)
      have hes : e ∉ es := hnot (by simp [hlost.marks_eq])
      have hfs : e ∉ fs := hnot (by simp [hset.marks_eq])
      obtain ⟨rfl, rfl, -⟩ := (List.append_cons_inj_of_notMem hes hfs).mp heq
      exact ⟨rfl, rfl⟩
    obtain ⟨rfl, rfl⟩ := hsame
    simp only [Sys.line_act, Act.passed.injEq, Mark.decided.injEq] at hact
    obtain ⟨rfl, rfl, rfl, rfl⟩ := hact
    refine ⟨spawned_eq_zero hlost.not_isSpawn, ?_⟩
    cases hlost with
    | exited hticks hem =>
      cases hticks with
      | exited hpass hex =>
        have hgrew := (Sys.grew_mark _ _).trans hem.grew
        exact .inl ⟨rfl, hset.grew.exitedWith (hgrew.exitedWith hex)⟩
    | timedOut => exact .inr rfl
  | expired _ hem hterm => simp [hem.marks_eq, hterm.marks_eq] at hmem
  | waitFailed => simp at hmem
  | probeOverflow _ hfails =>
    cases hfails with
    | overflow => cases hmem
  | probeOk _ hticks => simp [hticks.marks_eq] at hmem
  | terminateFailed _ hticks hem hterm =>
    simp [hticks.marks_eq, hem.marks_eq, hterm.marks_eq] at hmem
  | stopped _ _ _ hem hterm => simp [hem.marks_eq, hterm.marks_eq] at hmem
  | renewed _ _ _ hem hterm hl => simp [hem.marks_eq, hterm.marks_eq, hl.marks_eq] at hmem

/-- Every decision of a run was taken on the status with which the child spawned last had
exited, or on a failed probe. -/
private def DecidedByExit (es : List Entry) (t : Sys) : Prop :=
  ∀ a e b, es = a ++ e :: b → ∀ outcome status lifetime decision,
    e.act = .passed (.decided outcome status lifetime decision) →
    outcome = .childExited status lifetime ∧ t.world.ExitedWith ⟨spawned a - 1⟩ status ∨
      outcome = .probeTimeout

private theorem DecidedByExit.of_launch {s t : Sys} {announced : List SupervisorEvent}
    {es : List Entry} {out : End AutosshError Flow} (h : Launches s announced es out t) :
    DecidedByExit es t := by
  intro a e b heq outcome status lifetime decision hact
  have hmem : Mark.decided outcome status lifetime decision ∈ marks es :=
    mem_marks (by simp [heq]) hact
  simp [h.marks_eq] at hmem

private theorem DecidedByExit.append_turn {s t : Sys} {next : Option Instant} {c : Child}
    {es fs : List Entry} {out : End AutosshError Flow} (h : DecidedByExit es s)
    (hturn : Turn s next c fs out t) (htop : LoopTop s next c)
    (hcount : s.world.procs.length = spawned es) : DecidedByExit (es ++ fs) t := by
  intro a e b heq outcome status lifetime decision hact
  rcases append_cons_cases heq with ⟨d, hes, -⟩ | ⟨d, rfl, hfs⟩
  · rcases h a e d hes outcome status lifetime decision hact with ⟨hout, hex⟩ | hout
    · exact .inl ⟨hout, hturn.grew.exitedWith hex⟩
    · exact .inr hout
  · obtain ⟨hnone, hcases⟩ := hturn.decided hfs hact
    have hindex : (⟨spawned (es ++ d) - 1⟩ : Child) = c := by
      have hlast := htop.only.last
      rw [spawned_append, hnone, ← hcount]
      exact congrArg Child.mk (by omega)
    rw [hindex]
    exact hcases

private theorem RunEnd.decidedByExit {s₀ t : Sys} {n : Nat} {out : End AutosshError Flow}
    (h : RunEnd s₀ n out t) (hs : s₀.Fresh) : DecidedByExit t.world.history t := by
  -- the index of the child spawned last is carried along
  refine (h.invariant (fun _ t es => DecidedByExit es t ∧ t.world.procs.length = spawned es)
    (fun hl => ⟨.of_launch hl, ?_⟩) (fun hr ih hturn => ?_) hs).1
  · rw [hl.grew.length, hs.procs, List.length_nil, Nat.zero_add]
  · refine ⟨ih.1.append_turn hturn hr.loopTop ih.2, ?_⟩
    rw [hturn.grew.length, ih.2, spawned_append]

/-- A probe of a live child has failed since the last spawn of a stretch. -/
def ProbeFailedAlive (es : List Entry) : Prop :=
  ∃ a f b, es = a ++ f :: b ∧ f.IsFailedProbe ∧ f.alive ≠ 0 ∧ ∀ g ∈ b, ¬ g.IsSpawn

/-- The exit of a child dominates the probe: if the child is dead as the probe fails, the tick is
a child exit with its own status, which is the status decided on. Only the failed probe of
a live child is reported as a timeout or makes the loop decide on another status. -/
structure NaturalExitDominates (t : Sys) : Prop where
  exited : ∀ a e b, t.world.history = a ++ e :: b → e.IsFailedProbe → e.alive = 0 →
    ∃ status lifetime, (marks b).head? = some (.ticked (.childExited status lifetime)) ∧
      t.world.ExitedWith ⟨spawned a - 1⟩ status
  decided : ∀ a e b, t.world.history = a ++ e :: b → ∀ outcome status lifetime decision,
    e.act = .passed (.decided outcome status lifetime decision) →
    outcome = .childExited status lifetime ∧ t.world.ExitedWith ⟨spawned a - 1⟩ status ∨
      ProbeFailedAlive a
  blamed : ∀ a e b, t.world.history = a ++ e :: b → e.BlamesProbe → ProbeFailedAlive a

/-- The exit of the child dominates the probe in exactly those runs in which no child exits
during a probe that then fails. -/
theorem natural_exit_dominates_iff (s₀ : Sys) (hs : s₀.Fresh) (n : Nat)
    (script : List (List Event)) (hend : (execute n script s₀).out ≠ .pending) :
    NaturalExitDominates (execute n script s₀).state ↔
      ∀ e ∈ (execute n script s₀).state.world.history, e.IsFailedProbe → e.alive ≠ 0 := by
  have hrun := runEnd_of_execute hs.still hend
  have hlog := hrun.probeLog hs
  constructor
  · intro hdom e he hfailed hdead
    obtain ⟨a, b, heq⟩ := List.append_of_mem he
    obtain ⟨status, lifetime, hhead, -⟩ := hdom.exited a e b heq hfailed hdead
    rcases hlog.failed a e b heq hfailed with hblame | ⟨-, hnone⟩
    · simp [hblame] at hhead
    · simp [hnone] at hhead
  · intro halive
    have hblamed : ∀ a e b, (execute n script s₀).state.world.history = a ++ e :: b →
        e.BlamesProbe → ProbeFailedAlive a := by
      intro a e b heq hblame
      obtain ⟨c, f, d, rfl, hf, hspawn⟩ := hlog.blamed a e b heq hblame
      exact ⟨c, f, d, rfl, hf, halive f (by simp [heq]) hf, hspawn⟩
    refine ⟨fun a e b heq hfailed hdead => ?_, ?_, hblamed⟩
    · exact absurd hdead (halive e (by simp [heq]) hfailed)
    · intro a e b heq outcome status lifetime decision hact
      rcases hrun.decidedByExit hs a e b heq outcome status lifetime decision hact with
        hexit | rfl
      · exact .inl hexit
      · exact .inr (hblamed a e b heq (.inr (.inr ⟨_, _, _, hact⟩)))

/-- The probe of a live child times out, and the next child exits cleanly. -/
theorem natural_exit_dominates_iff_timeout_then_exit :
    NaturalExitDominates
      (execute 2 [[.elapse (Duration.fromSecs 600)], [.elapse (Duration.fromSecs 600)],
          [.exit 0 ⟨15⟩], [.elapse (Duration.fromSecs 30)], [.exit 1 ⟨0⟩],
          [.elapse (Duration.fromSecs 30)]]
        ⟨Supervisor.monitored, .initial .unix⟩).state :=
  (natural_exit_dominates_iff _ (Sys.fresh_initial _ _ rfl) 2 _ (by decide +kernel)).mpr
    (by decide +kernel)

/-- A child that exits with status zero during a probe that times out is counted as a failure,
reported as a probe timeout. -/
theorem probe_timeout_hides_exit :
    let t := execute 1 [[.elapse (Duration.fromSecs 600)], [.exit 0 ⟨0⟩],
        [.elapse (Duration.fromSecs 600)], [.elapse (Duration.fromSecs 3600)]]
      ⟨{ Supervisor.monitored with
        clock := { PollClock.default with gateTime := Duration.fromSecs 3600 }
        eventTx := some ⟨32, by decide⟩ }, .initial .unix⟩
    t.state.world.procs.head?.bind (·.status) = some ⟨0⟩ ∧
      (t.state.world.history.filterMap fun e =>
        match e.act with
        | .probed none => some e.alive
        | _ => none) = [0] ∧
      marks t.state.world.history = [.ticked .probeTimeout,
        .decided .probeTimeout (makeFailedStatus .unix) (Duration.fromSecs 1200) .respawn] ∧
      SupervisorEvent.probeTimeout ∈ t.state.world.inbox ∧ t.state.sup.retryCount = 1 := by
  decide +kernel

end RustyAutossh
