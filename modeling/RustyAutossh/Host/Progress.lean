import RustyAutossh.Host.Answers

/-!
# Progress of the host

The log only grows, and whatever the supervisor waits for can happen: a child can
exit, time can pass, a consumer can go away. So every suspended execution is the
beginning of a finished one.
-/

namespace RustyAutossh

open Async Runtime

/-- A line that logs a spawn attempt. -/
def Entry.IsSpawn (e : Entry) : Prop := ∃ path args result, e.act = .spawned path args result

/-- What an operation may write to the log: only a spawn writes a spawn, and only a
trace writes a point passed. -/
def Op.Writes (op : Op) (act : Act) : Prop :=
  (∀ path args result, act = .spawned path args result → op = .spawn path args) ∧
    ∀ m, act = .passed m → op = .trace m

/-- A stretch that writes lines of its own operation, with as many live children as before. -/
private def World.Quiet (op : Op) (w v : World) : Prop :=
  ∃ es, w.Logs es v ∧ ∀ e ∈ es, e.alive = w.alive ∧ op.Writes e.act

private theorem World.quiet_of_logs {op : Op} {w v : World} (h : w.Logs [] v) : w.Quiet op v :=
  ⟨[], h, by simp⟩

/-- A single line, followed by a change that a stretch does not protect. -/
private theorem World.quiet_log {op : Op} (w : World) {v : World} (act : Act)
    (hact : op.Writes act) (h : (w.log act).Logs [] v) : w.Quiet op v := by
  refine ⟨[⟨w.now, w.alive, act⟩], (w.logs_log act).trans h, fun e he => ?_⟩
  rw [List.mem_singleton] at he
  subst he
  exact ⟨rfl, hact⟩

/-- Every operation but a spawn appends lines of its own and lets processes only age. -/
private theorem quiet_poll (op : Op) (s : Sys) (hop : ∀ path args, op ≠ .spawn path args) :
    s.world.Quiet op (poll op s).2.world := by
  have hwait : ∀ c, s.world.Quiet op (s.world.wait c).2 := fun c =>
    World.quiet_of_logs (s.world.logs_wait c)
  cases op with
  | spawn path args => exact absurd rfl (hop path args)
  | trace m => exact s.world.quiet_log (.passed m) (by simp [Op.Writes]) (.refl _)
  | kill c => exact s.world.quiet_log (.killed c false) (by simp [Op.Writes]) (.refl _)
  | startProbe port payload =>
    exact s.world.quiet_log (.probing port payload) (by simp [Op.Writes])
      (.same rfl rfl rfl rfl rfl rfl id)
  | startKill c =>
    refine s.world.quiet_log (.killed c true) (by simp [Op.Writes]) ?_
    simp only [poll, World.startKill]
    split <;> exact .same rfl rfl rfl rfl rfl rfl id
  | wait c => exact hwait c
  | waitTimeout c deadline =>
    have hw := hwait c
    simp only [poll]
    split
    · rename_i heq
      rw [heq] at hw
      exact hw
    · rename_i heq
      rw [heq] at hw
      exact hw
  | send tx ev =>
    simp only [poll, World.send]
    split
    · exact World.quiet_of_logs (.refl _)
    · split
      · exact s.world.quiet_log (.emitted ev) (by simp [Op.Writes])
          (.same rfl rfl rfl rfl rfl rfl id)
      · exact World.quiet_of_logs (.refl _)
  | select c timer signals =>
    have hw := hwait c
    simp only [poll, World.select]
    split
    · rename_i heq
      rw [heq] at hw
      exact hw
    · split
      · exact World.quiet_of_logs (.refl _)
      · split
        · split
          · exact World.quiet_of_logs (.same rfl rfl rfl rfl rfl rfl id)
          · split <;> exact World.quiet_of_logs (.refl _)
        · exact World.quiet_of_logs (.refl _)
  | roundtrip accepts len deadline =>
    simp only [poll, World.roundtrip]
    split
    · exact s.world.quiet_log (.probed _) (by simp [Op.Writes]) (.same rfl rfl rfl rfl rfl rfl id)
    · split
      · exact s.world.quiet_log (.probed none) (by simp [Op.Writes])
          (.same rfl rfl rfl rfl rfl rfl id)
      · exact World.quiet_of_logs (.same rfl rfl rfl rfl rfl rfl id)
  | _ => exact World.quiet_of_logs (.refl _)

/-- Every operation appends lines of its own to the log. -/
theorem writes_poll (op : Op) (s : Sys) : ∃ es,
    (poll op s).2.world.history = s.world.history ++ es ∧ ∀ e ∈ es, op.Writes e.act := by
  by_cases hop : ∃ path args, op = .spawn path args
  · obtain ⟨path, args, rfl⟩ := hop
    refine ⟨[⟨s.world.now, s.world.alive,
      .spawned path args (s.world.spawnResult s.world.spawns)⟩], ?_, by simp [Op.Writes]⟩
    simp only [poll, World.spawn]
    split <;> rfl
  · obtain ⟨es, hlogs, hes⟩ := quiet_poll op s fun path args h => hop ⟨path, args, h⟩
    exact ⟨es, hlogs.history, fun e he => (hes e he).2⟩

/-- Polling takes no time, and a line is stamped with the time it is written at. -/
theorem stamps_poll (op : Op) (s : Sys) : (poll op s).2.world.now = s.world.now ∧
    ∃ es, (poll op s).2.world.history = s.world.history ++ es ∧ es.length ≤ 1 ∧
      ∀ e ∈ es, e.time = s.world.now := by
  have hnone : ∀ w : World, w.now = s.world.now → w.history = s.world.history →
      w.now = s.world.now ∧ ∃ es, w.history = s.world.history ++ es ∧ es.length ≤ 1 ∧
        ∀ e ∈ es, e.time = s.world.now :=
    fun w hnow hhist => ⟨hnow, [], by simp [hhist], by simp, by simp⟩
  have hline : ∀ (w : World) (act : Act), w.now = s.world.now →
      w.history = (s.world.log act).history →
      w.now = s.world.now ∧ ∃ es, w.history = s.world.history ++ es ∧ es.length ≤ 1 ∧
        ∀ e ∈ es, e.time = s.world.now :=
    fun w act hnow hhist => ⟨hnow, [⟨s.world.now, s.world.alive, act⟩], hhist, by simp, by simp⟩
  have hwait : ∀ c, (s.world.wait c).2.now = s.world.now ∧
      (s.world.wait c).2.history = s.world.history := by
    intro c
    unfold World.wait
    repeat' split
    all_goals exact ⟨rfl, rfl⟩
  cases op with
  | spawn path args =>
    simp only [poll, World.spawn]
    split <;> exact hline _ _ rfl rfl
  | trace m => exact hline _ _ rfl rfl
  | kill c => exact hline _ _ rfl rfl
  | startProbe port payload => exact hline _ _ rfl rfl
  | startKill c =>
    simp only [poll, World.startKill]
    split <;> exact hline _ _ rfl rfl
  | wait c => exact hnone _ (hwait c).1 (hwait c).2
  | waitTimeout c deadline =>
    have hw := hwait c
    simp only [poll]
    split
    · rename_i heq
      rw [heq] at hw
      exact hnone _ hw.1 hw.2
    · rename_i heq
      rw [heq] at hw
      exact hnone _ hw.1 hw.2
  | send tx ev =>
    simp only [poll, World.send]
    split
    · exact hnone _ rfl rfl
    · split
      · exact hline _ (.emitted ev) rfl rfl
      · exact hnone _ rfl rfl
  | select c timer signals =>
    have hw := hwait c
    simp only [poll, World.select]
    split
    · rename_i heq
      rw [heq] at hw
      exact hnone _ hw.1 hw.2
    · repeat' split
      all_goals exact hnone _ rfl rfl
  | roundtrip accepts len deadline =>
    simp only [poll, World.roundtrip]
    split
    · exact hline _ (.probed _) rfl rfl
    · split
      · exact hline _ (.probed none) rfl rfl
      · exact hnone _ rfl rfl
  | _ => exact hnone _ rfl rfl

/-- The log only grows. -/
def Sys.LogGrows (s t : Sys) : Prop := s.world.history <+: t.world.history

/-- The host never takes a line back. -/
theorem host_logGrows : host.Grows Sys.LogGrows where
  refl _ := List.prefix_refl _
  trans h h' := h.trans h'
  poll op s := by
    obtain ⟨es, hes, -⟩ := writes_poll op s
    exact ⟨es, hes.symm⟩
  act events s := ⟨_, (Sys.passes_apply s events).world.history.symm⟩

/-- A process that is alive can exit, after which `wait` answers. -/
private theorem wait_isSome_of_exit {w v : World} {c : Child} (h : w.IsAlive c) (hv : v = w) :
    ((v.apply (.exit c.index ⟨0⟩)).wait c).1.isSome := by
  subst hv
  obtain ⟨p, hp, hs⟩ := h
  have hexit : (v.apply (.exit c.index ⟨0⟩)).procs[c.index]? = some (p.exit ⟨0⟩) := by
    simp [World.apply, hp]
  simp only [World.wait, hexit, Proc.exit, hs]
  split
  · rfl
  · split <;> rfl

/-- A timed wait answers once its deadline has passed. -/
private theorem waitTimeout_isSome {c : Child} {deadline : Instant} {s : Sys}
    (h : deadline ≤ s.world.now) : (poll (.waitTimeout c deadline) s).1.isSome := by
  simp only [poll]
  split
  · rfl
  · rename_i w heq
    obtain ⟨-, rfl⟩ := World.wait_none heq
    rw [if_pos h]
    rfl

/-- A round trip answers once its deadline has passed. -/
private theorem roundtrip_isSome {accepts : Bool} {len : Nat} {deadline : Instant} {s : Sys}
    (h : deadline ≤ s.world.now) : (poll (.roundtrip accepts len deadline) s).1.isSome := by
  simp only [poll, World.roundtrip]
  split
  · rfl
  · rw [if_pos h]
    rfl

/-- A `select!` answers once its child can be waited for. -/
private theorem select_isSome {c : Child} {timer : Option Instant} {signals : Bool} {s : Sys}
    (h : (s.world.wait c).1.isSome) : (poll (.select c timer signals) s).1.isSome := by
  simp only [poll, World.select]
  split
  · rfl
  · rename_i heq
    simp [heq] at h

/-- A pending `select!` has left the world as it was, with its child alive and its timer ahead. -/
theorem select_pending {w : World} {c : Child} {timer : Option Instant} {signals : Bool}
    (h : (w.select c timer signals).1 = none) : w.IsAlive c ∧
      (w.select c timer signals).2 = w ∧ ∀ d, timer = some d → w.now < d := by
  unfold World.select at h ⊢
  split at h
  · simp at h
  · rename_i heq
    refine ⟨(World.wait_none heq).1, ?_⟩
    split at h
    · simp at h
    · rename_i hdue
      rw [if_neg hdue]
      refine ⟨?_, by rintro d rfl; simpa using hdue⟩
      split at h
      · rename_i hsig
        rw [if_pos hsig]
        split at h
        · simp at h
        · split at h
          · rename_i hq hopen
            rw [if_pos hopen]
          · simp at h
      · rename_i hsig
        rw [if_neg hsig]

/-- A consumer that receives as often as there are events empties its channel. -/
private theorem Sys.apply_consume (s : Sys) (n : Nat) :
    s.apply (List.replicate n .consume) =
      ⟨s.sup, { s.world with inbox := s.world.inbox.drop n }⟩ := by
  induction n generalizing s with
  | zero => rfl
  | succ n ih =>
    have hstep : s.apply (List.replicate (n + 1) .consume) =
        Sys.apply ⟨s.sup, s.world.apply .consume⟩ (List.replicate n .consume) := rfl
    rw [hstep, ih]
    simp [World.apply]

/-- Whatever the supervisor waits for can happen next, while the consumer keeps receiving. -/
private theorem wake_listening {op : Op} {s : Sys} (hpend : (poll op s).1 = none) :
    ∃ events, ((poll op s).2.apply events).world.inboxOpen = (poll op s).2.world.inboxOpen ∧
      (poll op ((poll op s).2.apply events)).1.isSome := by
  cases op with
  | wait c =>
    have hw : (s.world.wait c).1 = none := hpend
    obtain ⟨halive, heq⟩ := World.wait_none (Prod.ext hw rfl)
    exact ⟨[.exit c.index ⟨0⟩], rfl, wait_isSome_of_exit halive heq⟩
  | waitTimeout c deadline =>
    exact ⟨[.elapse deadline], rfl, waitTimeout_isSome (Nat.le_add_left _ _)⟩
  | send tx ev =>
    have hstays : (poll (.send tx ev) s).2 = s ∧ s.world.inboxOpen = true := by
      simp only [poll, World.send] at hpend ⊢
      split at hpend
      · simp at hpend
      · rename_i hopen
        rw [if_neg hopen]
        split at hpend
        · simp at hpend
        · rename_i hfull
          rw [if_neg hfull]
          exact ⟨rfl, by simpa using hopen⟩
    rw [hstays.1]
    refine ⟨List.replicate s.world.inbox.length .consume, ?_⟩
    rw [s.apply_consume]
    simp [poll, World.send, hstays.2, tx.pos]
  | sleepUntil deadline =>
    refine ⟨[.elapse deadline], rfl, ?_⟩
    show (if deadline ≤ s.world.now + deadline then some () else none).isSome = true
    rw [if_pos (Nat.le_add_left _ _)]
    rfl
  | select c timer signals =>
    obtain ⟨halive, heq, -⟩ := select_pending (w := s.world) hpend
    exact ⟨[.exit c.index ⟨0⟩], rfl, select_isSome (wait_isSome_of_exit halive heq)⟩
  | roundtrip accepts len deadline =>
    exact ⟨[.elapse deadline], rfl, roundtrip_isSome (Nat.le_add_left _ _)⟩
  | _ => simp [poll] at hpend

/-- Whatever the supervisor waits for can happen next. -/
theorem host_responsive : host.Responsive := by
  intro op s hpend
  obtain ⟨events, -, hsome⟩ := wake_listening hpend
  exact ⟨events, hsome⟩

/-- The supervisor does not close its channel. -/
private theorem poll_inboxOpen (op : Op) (s : Sys) :
    (poll op s).2.world.inboxOpen = s.world.inboxOpen := by
  have hwait : ∀ c, (s.world.wait c).2.inboxOpen = s.world.inboxOpen := by
    intro c
    simp only [World.wait]
    split
    · rfl
    · split
      · rfl
      · split
        · rfl
        · split <;> rfl
  cases op with
  | wait c => exact hwait c
  | waitTimeout c deadline =>
    have hw := hwait c
    simp only [poll]
    rcases hres : s.world.wait c with ⟨r | r, w⟩ <;> rw [hres] at hw <;> exact hw
  | spawn path args =>
    simp only [poll, World.spawn]
    cases s.world.spawnResult s.world.spawns <;> rfl
  | startKill c =>
    simp only [poll, World.startKill]
    cases s.world.killError s.world.kills <;> rfl
  | send tx ev =>
    simp only [poll, World.send]
    split
    · rfl
    · split <;> rfl
  | select c timer signals =>
    have hw := hwait c
    simp only [poll, World.select]
    rcases hres : s.world.wait c with ⟨r | r, w⟩
    · dsimp only
      split
      · rfl
      · split
        · split
          · rfl
          · split <;> rfl
        · rfl
    · rw [hres] at hw
      exact hw
  | roundtrip accepts len deadline =>
    simp only [poll, World.roundtrip]
    split
    · rfl
    · split <;> rfl
  | _ => rfl

/-- Whatever the supervisor waits for can happen while its consumer keeps receiving. -/
theorem host_listening : host.RespondsWithin fun s => s.world.inboxOpen = true where
  poll op s hopen := (poll_inboxOpen op s).trans hopen
  wake op s hpend hopen := by
    obtain ⟨events, hkeeps, hsome⟩ := wake_listening hpend
    exact ⟨events, hkeeps.trans hopen, hsome⟩

/-- Processes that age include no more that are alive. -/
private theorem countP_le_of_ages {ps qs : List Proc} (hlen : qs.length = ps.length)
    (hages : ∀ {i : Nat} {p : Proc}, ps[i]? = some p → ∃ q, qs[i]? = some q ∧ p.Ages q) :
    qs.countP (·.status.isNone) ≤ ps.countP (·.status.isNone) := by
  induction ps generalizing qs with
  | nil =>
    rw [List.length_nil, List.length_eq_zero_iff] at hlen
    rw [hlen]
  | cons p ps ih =>
    cases qs with
    | nil => simp at hlen
    | cons q qs =>
      have htail := ih (by simpa using hlen) fun {i r} hr => hages (i := i + 1) (by simpa using hr)
      obtain ⟨q', hq', hage⟩ := hages (i := 0) rfl
      rw [List.getElem?_cons_zero, Option.some.injEq] at hq'
      subst hq'
      have hhead : q.status.isNone = true → p.status.isNone = true := by
        intro hq
        cases hp : p.status with
        | none => rfl
        | some status => simp [hage.status hp] at hq
      rw [List.countP_cons, List.countP_cons]
      split
      · rw [if_pos (hhead ‹_›)]
        omega
      · omega

/-- A process that is alive is counted. -/
theorem World.IsAlive.alive_pos {w : World} {c : Child} (h : w.IsAlive c) : 0 < w.alive := by
  obtain ⟨p, hp, hs⟩ := h
  exact List.countP_pos_iff.mpr ⟨p, List.mem_of_getElem? hp, by simp [hs]⟩

/-- A stretch without a spawn adds no live process. -/
theorem World.Logs.alive_le {w v : World} {es : List Entry} (h : w.Logs es v) :
    v.alive ≤ w.alive :=
  countP_le_of_ages h.length h.ages

/-- A process that is alive after such a stretch was so before. -/
theorem World.Logs.wasAlive {w v : World} {es : List Entry} (h : w.Logs es v) {c : Child}
    (hc : v.IsAlive c) : w.IsAlive c := by
  obtain ⟨q, hq, hstatus⟩ := hc
  have hlt : c.index < w.procs.length := by
    rw [← h.length]
    exact (List.getElem?_eq_some_iff.mp hq).1
  obtain ⟨q', hq', hage⟩ := h.ages (List.getElem?_eq_getElem hlt)
  obtain rfl := Option.some.inj (hq'.symm.trans hq)
  refine ⟨_, List.getElem?_eq_getElem hlt, ?_⟩
  cases hp : w.procs[c.index].status with
  | none => rfl
  | some status => cases (hage.status hp).symm.trans hstatus

/-- If every spawn so far found no process alive, then at most one ever was, and one that is
now was spawned last. -/
structure World.Single (w : World) : Prop where
  now : w.alive ≤ 1
  past : ∀ e ∈ w.history, e.alive ≤ 1
  last : ∀ c, w.IsAlive c → c.index + 1 = w.procs.length

/-- Every spawn in the log was made with no process alive. -/
def World.SpawnsAlone (w : World) : Prop := ∀ e ∈ w.history, e.IsSpawn → e.alive = 0

private theorem World.Quiet.single {op : Op} {w v : World} (h : w.Quiet op v)
    (hw : w.Single) : v.Single := by
  obtain ⟨es, hlogs, hes⟩ := h
  refine ⟨le_trans hlogs.alive_le hw.now, fun e he => ?_,
    fun c hc => (hw.last c (hlogs.wasAlive hc)).trans hlogs.length.symm⟩
  rw [hlogs.history, List.mem_append] at he
  rcases he with he | he
  · exact hw.past e he
  · rw [(hes e he).1]
    exact hw.now

/-- Spawning when no process is alive leaves one. -/
private theorem single_spawn {w : World} {path : PathBuf} {args : List String}
    (hw : w.Single) (halone : (w.spawn path args).2.SpawnsAlone) :
    (w.spawn path args).2.Single := by
  have hline : (⟨w.now, w.alive, .spawned path args (w.spawnResult w.spawns)⟩ : Entry) ∈
      (w.spawn path args).2.history := by
    simp only [World.spawn]
    split <;> simp [World.log]
  have hzero : w.alive = 0 := halone _ hline ⟨_, _, _, rfl⟩
  have hpast : ∀ e ∈ (w.spawn path args).2.history, e.alive ≤ 1 := by
    intro e he
    have he : e ∈ w.history ++ [⟨w.now, w.alive, .spawned path args (w.spawnResult w.spawns)⟩] := by
      simp only [World.spawn] at he
      split at he <;> exact he
    rcases List.mem_append.mp he with he | he
    · exact hw.past e he
    · rw [List.mem_singleton.mp he]
      exact hw.now
  have hnone : ∀ c, ¬ w.IsAlive c := fun c hc => absurd hc.alive_pos (by omega)
  refine ⟨?_, hpast, ?_⟩
  · simp only [World.spawn]
    split
    · simp only [World.alive, List.countP_append] at hzero ⊢
      rw [hzero]
      simp
    · exact hw.now
  · simp only [World.spawn]
    split
    · rintro c ⟨p, hp, hstatus⟩
      -- an earlier process would have been alive before
      have hge : w.procs.length ≤ c.index := by
        by_contra hlt
        refine hnone c ⟨p, ?_, hstatus⟩
        rwa [List.getElem?_append_left (Nat.lt_of_not_le hlt)] at hp
      have hlt := (List.getElem?_eq_some_iff.mp hp).1
      simp only [List.length_append, List.length_singleton] at hlt ⊢
      omega
    · exact hw.last

/-- Whatever the program, a host on which every spawn was made alone has had at most one
process alive at any moment. -/
theorem host_single : host.Grows fun s t =>
    t.world.SpawnsAlone → s.world.SpawnsAlone ∧ (s.world.Single → t.world.Single) where
  refl _ h := ⟨h, id⟩
  trans h h' hu := ⟨(h (h' hu).1).1, fun hs => (h' hu).2 ((h (h' hu).1).2 hs)⟩
  poll op s halone := by
    refine ⟨fun e he => halone e ((host_logGrows.poll op s).subset he), fun hs => ?_⟩
    by_cases hop : ∃ path args, op = .spawn path args
    · obtain ⟨path, args, rfl⟩ := hop
      exact single_spawn hs halone
    · exact World.Quiet.single (quiet_poll op s fun path args h => hop ⟨path, args, h⟩) hs
  act events s halone := by
    have hlogs := (s.passes_apply events).world
    have hquiet : s.world.Quiet .now (s.apply events).world := World.quiet_of_logs hlogs
    refine ⟨fun e he => halone e ?_, hquiet.single⟩
    show e ∈ (s.apply events).world.history
    rw [hlogs.history]
    exact List.mem_append_left _ he

end RustyAutossh
