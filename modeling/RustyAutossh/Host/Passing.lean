import RustyAutossh.Host.Runtime

/-!
# What waiting leaves alone

While the supervisor waits, only its environment acts: time goes forward and
processes terminate, but the supervisor, the log and the set of processes stay
as they are. `Logs` says so of a stretch of a run that also wrote some lines to
the log; an uneventful stretch writes none.
-/

namespace RustyAutossh

open Async

/-- A process later on: the same process, which stays terminated once it is. -/
structure Proc.Ages (p q : Proc) : Prop where
  pid : q.pid = p.pid
  spawnedAt : q.spawnedAt = p.spawnedAt
  status : ∀ {status}, p.status = some status → q.status = some status

theorem Proc.Ages.refl (p : Proc) : p.Ages p := ⟨rfl, rfl, id⟩

theorem Proc.Ages.trans {p q r : Proc} (h : p.Ages q) (h' : q.Ages r) : p.Ages r :=
  ⟨h'.pid.trans h.pid, h'.spawnedAt.trans h.spawnedAt, fun hs => h'.status (h.status hs)⟩

/-- The world after a stretch without a spawn that logged the given lines. -/
structure World.Logs (w : World) (es : List Entry) (v : World) : Prop where
  target : v.target = w.target
  spawnResult : v.spawnResult = w.spawnResult
  spawns : v.spawns = w.spawns
  history : v.history = w.history ++ es
  now : w.now ≤ v.now
  length : v.procs.length = w.procs.length
  ages : ∀ {i : Nat} {p : Proc}, w.procs[i]? = some p → ∃ q, v.procs[i]? = some q ∧ p.Ages q
  inboxOpen : v.inboxOpen = true → w.inboxOpen = true
  times : ∀ {e : Entry}, e ∈ es → w.now ≤ e.time ∧ e.time ≤ v.now

/-- Two worlds that agree on everything a stretch protects. -/
theorem World.Logs.same {w v : World} (target : v.target = w.target)
    (spawnResult : v.spawnResult = w.spawnResult) (spawns : v.spawns = w.spawns)
    (history : v.history = w.history) (now : v.now = w.now) (procs : v.procs = w.procs)
    (inboxOpen : v.inboxOpen = true → w.inboxOpen = true) : w.Logs [] v where
  target := target
  spawnResult := spawnResult
  spawns := spawns
  history := by simp [history]
  now := by simp [now]
  length := by rw [procs]
  ages hp := ⟨_, procs ▸ hp, .refl _⟩
  inboxOpen := inboxOpen
  times he := by simp at he

theorem World.Logs.refl (w : World) : w.Logs [] w := .same rfl rfl rfl rfl rfl rfl id

/-- Consecutive stretches log their lines one after the other. -/
theorem World.Logs.trans {u v w : World} {es fs : List Entry} (h : u.Logs es v)
    (h' : v.Logs fs w) : u.Logs (es ++ fs) w where
  target := h'.target.trans h.target
  spawnResult := h'.spawnResult.trans h.spawnResult
  spawns := h'.spawns.trans h.spawns
  history := by rw [h'.history, h.history, List.append_assoc]
  now := le_trans h.now h'.now
  length := h'.length.trans h.length
  ages hp := by
    obtain ⟨q, hq, hpq⟩ := h.ages hp
    obtain ⟨r, hr, hqr⟩ := h'.ages hq
    exact ⟨r, hr, hpq.trans hqr⟩
  inboxOpen hw := h.inboxOpen (h'.inboxOpen hw)
  times he := by
    rcases List.mem_append.mp he with he | he
    · exact ⟨(h.times he).1, le_trans (h.times he).2 h'.now⟩
    · exact ⟨le_trans h.now (h'.times he).1, (h'.times he).2⟩

/-- Writing one line to the log. -/
theorem World.logs_log (w : World) (act : Act) : w.Logs [⟨w.now, w.alive, act⟩] (w.log act) where
  target := rfl
  spawnResult := rfl
  spawns := rfl
  history := rfl
  now := le_refl _
  length := rfl
  ages hp := ⟨_, hp, .refl _⟩
  inboxOpen := id
  times he := by
    rw [List.mem_singleton] at he
    subst he
    exact ⟨le_refl _, le_refl _⟩

/-- A process that exits has aged. -/
private theorem Proc.ages_exit (p : Proc) (status : ExitStatus) : p.Ages (p.exit status) := by
  unfold Proc.exit
  split
  · rename_i hp
    exact ⟨rfl, rfl, fun hs => by simp [hp] at hs⟩
  · exact .refl p

/-- Replacing processes by aged ones is an uneventful stretch. -/
private theorem World.logs_procs (w : World) (procs : List Proc) (waits : Nat)
    (hlen : procs.length = w.procs.length)
    (hages : ∀ {i : Nat} {p : Proc}, w.procs[i]? = some p → ∃ q, procs[i]? = some q ∧ p.Ages q) :
    w.Logs [] { w with procs := procs, waits := waits } where
  target := rfl
  spawnResult := rfl
  spawns := rfl
  history := by simp
  now := le_refl _
  length := hlen
  ages := hages
  inboxOpen := id
  times he := by simp at he

/-- The environment writes no log and spawns no process. -/
theorem World.logs_apply (w : World) (e : Event) : w.Logs [] (w.apply e) := by
  cases e with
  | elapse d =>
    exact { World.Logs.refl w with now := Nat.le_add_right _ _, times := by simp }
  | exit i status =>
    refine w.logs_procs _ w.waits (by simp) fun {j p} h => ?_
    by_cases hij : i = j
    · subst hij
      exact ⟨p.exit status, by simp [h], p.ages_exit status⟩
    · exact ⟨p, by simp [h, hij], .refl p⟩
  | signal ev =>
    simp only [World.apply]
    split <;> exact .same rfl rfl rfl rfl rfl rfl id
  | dropConsumer => exact .same rfl rfl rfl rfl rfl rfl (by simp [World.apply])
  | _ => exact .same rfl rfl rfl rfl rfl rfl id

/-- The system after a stretch in which the supervisor's record has not changed. -/
structure Sys.Logs (s : Sys) (es : List Entry) (t : Sys) : Prop where
  world : s.world.Logs es t.world
  sup : t.sup = s.sup

/-- An uneventful stretch. -/
abbrev Sys.Passes (s t : Sys) : Prop := s.Logs [] t

theorem Sys.Logs.refl (s : Sys) : s.Passes s := ⟨.refl _, rfl⟩

theorem Sys.Logs.trans {s t u : Sys} {es fs : List Entry} (h : s.Logs es t)
    (h' : t.Logs fs u) : s.Logs (es ++ fs) u :=
  ⟨h.world.trans h'.world, h'.sup.trans h.sup⟩

/-- Time that passes after a stretch adds no line to it. -/
theorem Sys.Logs.passes {s t u : Sys} {es : List Entry} (h : s.Logs es t) (h' : t.Passes u) :
    s.Logs es u :=
  List.append_nil es ▸ h.trans h'

/-- Any batch of environment actions is uneventful. -/
theorem Sys.passes_apply (s : Sys) (events : List Event) : s.Passes (s.apply events) := by
  refine ⟨?_, rfl⟩
  show s.world.Logs [] (events.foldl World.apply s.world)
  generalize s.world = w
  induction events generalizing w with
  | nil => exact .refl w
  | cons e events ih => exact (w.logs_apply e).trans (ih _)

/-- Reaping a process that has terminated is uneventful. -/
theorem World.logs_wait (w : World) (c : Child) : w.Logs [] (w.wait c).2 := by
  unfold World.wait
  split
  · exact .refl w
  · rename_i p hp
    split
    · exact .refl w
    · split
      · exact .refl w
      · split
        · exact .same rfl rfl rfl rfl rfl rfl id
        · refine w.logs_procs _ _ (by simp) fun {j q} h => ?_
          by_cases hij : c.index = j
          · subst hij
            rw [hp, Option.some.injEq] at h
            subst h
            have hlt : c.index < w.procs.length := (List.getElem?_eq_some_iff.mp hp).1
            exact ⟨{ p with reaped := true }, by simp [hlt], rfl, rfl, id⟩
          · exact ⟨q, by simp [hij, h], .refl q⟩

/-- A pending operation has at most accepted a connection. -/
theorem passes_of_pending {op : Op} {s t : Sys} (h : poll op s = (none, t)) : s.Passes t := by
  cases op with
  | wait c =>
    simp only [poll, Prod.mk.injEq] at h
    obtain ⟨-, rfl⟩ := h
    exact ⟨s.world.logs_wait c, rfl⟩
  | waitTimeout c deadline =>
    have hw := s.world.logs_wait c
    simp only [poll] at h
    split at h
    · simp at h
    · rename_i w heq
      rw [heq] at hw
      simp only [Prod.mk.injEq] at h
      obtain ⟨-, rfl⟩ := h
      exact ⟨hw, rfl⟩
  | send tx ev =>
    simp only [poll, World.send] at h
    split at h
    · simp at h
    · split at h
      · simp at h
      · simp only [Prod.mk.injEq, true_and] at h
        exact h ▸ .refl s
  | sleepUntil deadline =>
    simp only [poll, Prod.mk.injEq] at h
    exact h.2 ▸ .refl s
  | select c timer signals =>
    simp only [poll, World.select] at h
    split at h
    · simp at h
    · split at h
      · simp at h
      · split at h
        · split at h
          · simp at h
          · split at h
            · simp only [Prod.mk.injEq, true_and] at h
              exact h ▸ .refl s
            · simp at h
        · simp only [Prod.mk.injEq, true_and] at h
          exact h ▸ .refl s
  | roundtrip accepts len deadline =>
    simp only [poll, World.roundtrip] at h
    split at h
    · simp at h
    · split at h
      · simp at h
      · simp only [Prod.mk.injEq, true_and] at h
        subst h
        exact ⟨.same rfl rfl rfl rfl rfl rfl id, rfl⟩
  | _ => simp [poll] at h

/-- Waiting lets the system pass. -/
theorem passes_of_waits {op : Op} {s t : Sys} (h : host.Waits op s t) : s.Passes t := by
  induction h with
  | here s => exact .refl s
  | wake events hpend _ ih =>
    exact (passes_of_pending (Prod.ext hpend rfl)).trans ((Sys.passes_apply _ events).trans ih)

/-- An operation pending after a wait has let the system pass. -/
theorem passes_of_stalls {op : Op} {s t : Sys} (h : host.Stalls op s t) : s.Passes t := by
  obtain ⟨u, hu, hp⟩ := h
  exact (passes_of_waits hu).trans (passes_of_pending hp)

end RustyAutossh
