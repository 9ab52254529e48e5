import RustyAutossh.Async.Twin
import RustyAutossh.Correctness.Heartbeat
import RustyAutossh.Correctness.Result
import RustyAutossh.Loop.Runs
import RustyAutossh.Loop.Footprint

/-!
# The loop sees no contents

Of what comes back through the tunnel the supervisor counts the bytes, and of the wall clock
it only prints the timestamp of a heartbeat. Two executions that differ in the contents of
the bytes and in the settings of the wall clock alone therefore run alike: the far side of
the tunnel steers the loop by when and how much it sends, never by what.
-/

namespace RustyAutossh

open Async Runtime

/-- As many bytes, without their contents. -/
def blank (bytes : List UInt8) : List UInt8 := bytes.map fun _ => 0

/-- A wall clock whose reading fits in the sixteen digits of a heartbeat is not told from any
other such. -/
def blankClock (t : Option UInt64) : Option UInt64 :=
  if (t.getD 0).toNat < 10 ^ 16 then none else t

def Conn.blank (c : Conn) : Conn := { c with received := RustyAutossh.blank c.received }

def Net.blank (n : Net) : Net := { n with conns := n.conns.map Conn.blank, reply := n.reply.blank }

def Act.blank : Act → Act
  | .probing port payload => .probing port (RustyAutossh.blank payload)
  | .probed result => .probed (result.map (·.map RustyAutossh.blank))
  | act => act

def Entry.blank (e : Entry) : Entry := { e with act := e.act.blank }

def World.blank (w : World) : World :=
  { w with
    wallClock := blankClock w.wallClock
    net := w.net.blank
    history := w.history.map Entry.blank }

/-- A state of the system without the contents of the bytes and the reading of the clock. -/
def Sys.blank (s : Sys) : Sys := { s with world := s.world.blank }

/-- An action of the environment without its contents. -/
def Event.blank : Event → Event
  | .setWallClock t => .setWallClock (blankClock t)
  | .bytes conn bs => .bytes conn (RustyAutossh.blank bs)
  | .replyBytes bs => .replyBytes (RustyAutossh.blank bs)
  | e => e

theorem blank_eq_iff {bs bs' : List UInt8} : blank bs = blank bs' ↔ bs.length = bs'.length := by
  simp only [blank, List.map_const', List.replicate_inj, or_true, and_true]

/-- A line is logged as it is seen. -/
theorem World.blank_log (w : World) (act : Act) : (w.log act).blank = w.blank.log act.blank := by
  simp only [World.log, World.blank, List.map_append, List.map_cons, List.map_nil]
  rfl

section Sockets

/-- An answer of a round trip without its contents. -/
def blankReply (r : Except IoError (List UInt8)) : Except IoError (List UInt8) := r.map blank

theorem Conn.readExact_blank (c : Conn) (len : Nat) :
    c.blank.readExact len = (c.readExact len).map blankReply := by
  simp only [readExact, Conn.blank, RustyAutossh.blank, List.length_map]
  split
  · simp [blankReply, RustyAutossh.blank, Except.map]
  · cases c.ended <;> rfl

theorem Net.accept_blank (n : Net) : n.blank.accept = (n.accept.1, n.accept.2.blank) := by
  obtain ⟨conns, taken, acceptError, serving, written, reply⟩ := n
  cases serving with
  | some i => rfl
  | none =>
    cases acceptError with
    | some e => rfl
    | none =>
      simp only [accept, Net.blank, List.length_map]
      split <;> rfl

theorem Net.read_blank (n : Net) (accepts : Bool) (len : Nat) :
    n.blank.read accepts len = ((n.read accepts len).1.map blankReply,
      (n.read accepts len).2.blank) := by
  cases accepts with
  | false => simp only [read, Bool.false_eq_true, if_false, Net.blank, Conn.readExact_blank]
  | true =>
    simp only [read, if_true, Net.accept_blank]
    rcases n.accept with ⟨_ | e, n'⟩
    · have hserving : n'.blank.serving = n'.serving := rfl
      have hconns : ∀ i : Nat, n'.blank.conns[i]? = n'.conns[i]?.map Conn.blank :=
        fun i => List.getElem?_map
      simp only [hserving, hconns]
      rcases n'.serving with _ | i
      · rfl
      · simp only [Option.bind_some]
        rcases n'.conns[i]? with _ | c
        · rfl
        · simp only [Option.map_some, Option.bind_some, Conn.readExact_blank]
    · rfl

theorem Net.roundtrip_blank (n : Net) (accepts : Bool) (len : Nat) :
    n.blank.roundtrip accepts len = ((n.roundtrip accepts len).1.map blankReply,
      (n.roundtrip accepts len).2.blank) := by
  have hwritten : n.blank.written = n.written := rfl
  simp only [roundtrip, hwritten, Net.read_blank]
  rcases n.written with _ | ⟨e | u⟩
  · cases accepts with
    | false => rfl
    | true =>
      rcases n.read true len with ⟨_ | ⟨e | bytes⟩, n'⟩ <;> rfl
  · rfl
  · rfl

/-- A round trip without contents is answered when the full one is, with as many bytes. -/
theorem World.roundtrip_blank (w : World) (accepts : Bool) (len : Nat) (deadline : Instant) :
    w.blank.roundtrip accepts len deadline =
      ((w.roundtrip accepts len deadline).1.map (·.map blankReply),
        (w.roundtrip accepts len deadline).2.blank) := by
  have hnet : w.blank.net = w.net.blank := rfl
  have hnow : w.blank.now = w.now := rfl
  have hlog : ∀ r : Option (Except IoError (List UInt8)),
      w.blank.log (.probed (r.map blankReply)) = (w.log (.probed r)).blank :=
    fun r => (w.blank_log (.probed r)).symm
  simp only [roundtrip, hnet, hnow, Net.roundtrip_blank]
  rcases w.net.roundtrip accepts len with ⟨_ | r, n⟩
  · simp only [Option.map_none]
    split
    · exact Prod.ext rfl (congrArg (fun v : World => { v with net := n.blank }) (hlog none))
    · rfl
  · exact Prod.ext rfl (congrArg (fun v : World => { v with net := n.blank }) (hlog (some r)))

end Sockets

section Environment

theorem Conn.feed_blank (c : Conn) (bs : List UInt8) :
    c.blank.feed (RustyAutossh.blank bs) = (c.feed bs).blank := by
  obtain ⟨received, ended⟩ := c
  cases ended with
  | none => simp [feed, Conn.blank, RustyAutossh.blank]
  | some e => rfl

theorem Conn.close_blank (c : Conn) (e : IoError) : c.blank.close e = (c.close e).blank := by
  obtain ⟨received, ended⟩ := c
  cases ended <;> rfl

/-- Changing one connection as it is seen changes what is seen of it. -/
theorem Conn.map_modify {f g : Conn → Conn} (h : ∀ c : Conn, g c.blank = (f c).blank) (i : Nat)
    (cs : List Conn) : (cs.map Conn.blank).modify i g = (cs.modify i f).map Conn.blank := by
  refine List.ext_getElem? fun j => ?_
  simp only [List.getElem?_modify, List.getElem?_map]
  rcases cs[j]? with _ | c
  · rfl
  · simp only [Option.map_eq_map, Option.map_some, Option.some.injEq]
    split
    · exact h c
    · rfl

/-- The environment acts on what is seen as on the whole. -/
theorem World.apply_blank (w : World) (e : Event) : w.blank.apply e.blank = (w.apply e).blank := by
  have hconns : ∀ {cs cs' : List Conn}, cs = cs'.map Conn.blank →
      { w.blank with net := { w.blank.net with conns := cs } } =
        World.blank { w with net := { w.net with conns := cs' } } := fun h => by rw [h]; rfl
  have hreply : ∀ {c c' : Conn}, c = c'.blank →
      { w.blank with net := { w.blank.net with reply := c } } =
        World.blank { w with net := { w.net with reply := c' } } := fun h => by rw [h]; rfl
  cases e with
  | signal ev =>
    simp only [apply, apply_ite World.blank]
    rfl
  | connect => exact hconns (by rw [List.map_append]; rfl)
  | bytes i bs => exact hconns (Conn.map_modify (fun c => c.feed_blank bs) i _)
  | close i e => exact hconns (Conn.map_modify (fun c => c.close_blank e) i _)
  | replyBytes bs => exact hreply (w.net.reply.feed_blank bs)
  | replyClose e => exact hreply (w.net.reply.close_blank e)
  | _ => rfl

end Environment

section Polls

/-- A result with the state it leaves, as it is seen. -/
private def seen {α : Type} (r : α × World) : α × World := (r.1, r.2.blank)

private theorem World.wait_blank (w : World) (c : Child) : w.blank.wait c = seen (w.wait c) := by
  have hprocs : w.blank.procs = w.procs := rfl
  have herror : w.blank.waitError = w.waitError := rfl
  have hwaits : w.blank.waits = w.waits := rfl
  simp only [wait, hprocs, herror, hwaits]
  rcases w.procs[c.index]? with _ | ⟨pid, spawnedAt, _ | status, _ | _⟩
  · rfl
  · rfl
  · rfl
  · simp only [Bool.false_eq_true, if_false]
    cases w.waitError w.waits <;> rfl
  · rfl

/-- What is seen of a host changed after a line was logged. -/
private theorem World.log_seen (w : World) (act : Act) (f : World → World)
    (hf : ∀ v : World, f v.blank = (f v).blank) :
    f (w.blank.log act.blank) = (f (w.log act)).blank := by
  rw [← World.blank_log, hf]

private theorem World.spawn_blank (w : World) (path : PathBuf) (args : List String) :
    w.blank.spawn path args = seen (w.spawn path args) := by
  have hresult : w.blank.spawnResult w.blank.spawns = w.spawnResult w.spawns := rfl
  simp only [spawn, hresult]
  generalize w.spawnResult w.spawns = result
  cases result with
  | ok pid =>
    exact Prod.ext rfl (w.log_seen (.spawned path args (.ok pid)) (fun v =>
      { v with
        spawns := w.spawns + 1
        procs := w.procs ++ [{ pid := pid, spawnedAt := w.now }] }) fun _ => rfl)
  | error e =>
    exact Prod.ext rfl (w.log_seen (.spawned path args (.error e))
      (fun v => { v with spawns := w.spawns + 1 }) fun _ => rfl)

private theorem World.startKill_blank (w : World) (c : Child) :
    w.blank.startKill c = seen (w.startKill c) := by
  have herror : w.blank.killError w.blank.kills = w.killError w.kills := rfl
  have hlog := w.log_seen (.killed c true) (fun v => { v with kills := w.kills + 1 }) fun _ => rfl
  simp only [startKill, herror]
  cases w.killError w.kills with
  | some e => exact Prod.ext rfl hlog
  | none => exact Prod.ext rfl hlog

private theorem World.send_blank (w : World) (tx : Sender) (ev : SupervisorEvent) :
    w.blank.send tx ev = seen (w.send tx ev) := by
  have hopen : w.blank.inboxOpen = w.inboxOpen := rfl
  have hinbox : w.blank.inbox = w.inbox := rfl
  simp only [send, hopen, hinbox]
  split
  · rfl
  · split
    · exact Prod.ext rfl (w.log_seen (.emitted ev)
        (fun v => { v with inbox := w.inbox ++ [ev] }) fun _ => rfl)
    · rfl

private theorem World.select_blank (w : World) (c : Child) (timer : Option Instant)
    (signals : Bool) : w.blank.select c timer signals = seen (w.select c timer signals) := by
  have hnow : w.blank.now = w.now := rfl
  have hsignals : w.blank.signals = w.signals := rfl
  have hopen : w.blank.signalsOpen = w.signalsOpen := rfl
  simp only [select, World.wait_blank, hnow, hsignals, hopen]
  rcases w.wait c with ⟨_ | result, v⟩
  · simp only [seen]
    split
    · rfl
    · split
      · rcases w.signals with _ | ⟨ev, rest⟩
        · dsimp only
          split <;> rfl
        · rfl
      · rfl
  · rfl

/-- An operation that neither reads the wall clock nor works on the sockets of a probe. -/
def Op.Inland : Op → Prop
  | .wallClock | .startProbe _ _ | .roundtrip _ _ _ => False
  | _ => True

/-- Such an operation is answered from what is seen. -/
theorem poll_blank {op : Op} (hop : op.Inland) (s : Sys) :
    poll op s.blank = ((poll op s).1, (poll op s).2.blank) := by
  cases op with
  | wallClock => exact hop.elim
  | startProbe => exact hop.elim
  | roundtrip => exact hop.elim
  | trace mark =>
    simp only [poll, Sys.blank, World.blank_log]
    rfl
  | spawn path args => simp only [poll, Sys.blank, World.spawn_blank, seen]
  | kill c =>
    simp only [poll, Sys.blank, World.blank_log]
    rfl
  | startKill c => simp only [poll, Sys.blank, World.startKill_blank, seen]
  | wait c => simp only [poll, Sys.blank, World.wait_blank, seen]
  | waitTimeout c deadline =>
    simp only [poll, Sys.blank, World.wait_blank, seen]
    rcases s.world.wait c with ⟨_ | r, w⟩ <;> rfl
  | send tx ev => simp only [poll, Sys.blank, World.send_blank, seen]
  | select c timer signals => simp only [poll, Sys.blank, World.select_blank, seen]
  | _ => rfl

end Polls

/-- Two states that are seen alike. -/
def Sys.Alike (s s' : Sys) : Prop := s.blank = s'.blank

/-- Two stretches of the environment's actions that are seen alike. -/
def EventsAlike (es es' : List Event) : Prop := es.map Event.blank = es'.map Event.blank

section Rules

theorem Sys.apply_blank (s : Sys) (events : List Event) :
    s.blank.apply (events.map Event.blank) = (s.apply events).blank := by
  have hfold : ∀ w : World, (events.map Event.blank).foldl World.apply w.blank =
      (events.foldl World.apply w).blank := by
    induction events with
    | nil => exact fun _ => rfl
    | cons e events ih =>
      intro w
      simp only [List.map_cons, List.foldl_cons, World.apply_blank]
      exact ih _
  exact congrArg (fun v => { s with world := v }) (hfold s.world)

theorem actsAlike_host : host.ActsAlike Sys.Alike EventsAlike := by
  refine ⟨fun {es es' s s'} hevents hs => ?_⟩
  show (s.apply es).blank = (s'.apply es').blank
  rw [← Sys.apply_blank, ← Sys.apply_blank, hevents, show s.blank = s'.blank from hs]

theorem pollsAlike_of_inland {op : Op} (hop : op.Inland) :
    host.PollsAlike Sys.Alike op op Eq := by
  have heq : ∀ {s s' : Sys}, s.Alike s' →
      (poll op s).1 = (poll op s').1 ∧ (poll op s).2.blank = (poll op s').2.blank := by
    intro s s' hs
    have h : poll op s.blank = poll op s'.blank := congrArg (poll op) hs
    rwa [poll_blank hop, poll_blank hop, Prod.mk.injEq] at h
  refine ⟨fun {s s'} hs => ?_, fun hs => (heq hs).2⟩
  show Option.Rel Eq (poll op s).1 (poll op s').1
  rw [(heq hs).1]
  cases (poll op s').1 with
  | none => exact .none
  | some a => exact .some rfl

theorem pollsAlike_wallClock : host.PollsAlike Sys.Alike .wallClock .wallClock
    fun t t' => blankClock t = blankClock t' :=
  ⟨fun hs => .some (congrArg (fun s : Sys => s.world.wallClock) hs), id⟩

theorem World.startProbe_blank (w : World) (port : UInt16) (bytes : List UInt8) :
    w.blank.startProbe port (RustyAutossh.blank bytes) = (w.startProbe port bytes).blank :=
  w.log_seen (.probing port bytes)
    (fun v => { v with net := { v.net with serving := none, written := none, reply := {} } })
    fun _ => rfl

/-- Probes with as many bytes begin alike. -/
theorem pollsAlike_startProbe (port : UInt16) {bs bs' : List UInt8}
    (h : bs.length = bs'.length) :
    host.PollsAlike Sys.Alike (.startProbe port bs) (.startProbe port bs') fun _ _ => True := by
  refine ⟨fun _ => .some trivial, fun {s s'} hs => ?_⟩
  show Sys.mk s.sup (s.world.startProbe port bs).blank =
    Sys.mk s'.sup (s'.world.startProbe port bs').blank
  rw [← World.startProbe_blank, ← World.startProbe_blank, blank_eq_iff.mpr h]
  exact congrArg (fun t : Sys => { t with world := t.world.startProbe port (blank bs') }) hs

/-- Round trips are answered alike, with as many bytes or the same error. -/
theorem pollsAlike_roundtrip (accepts : Bool) (len : Nat) (deadline : Instant) :
    host.PollsAlike Sys.Alike (.roundtrip accepts len deadline) (.roundtrip accepts len deadline)
      fun r r' => r.map blankReply = r'.map blankReply := by
  have heq : ∀ {s s' : Sys}, s.Alike s' → s.world.blank.roundtrip accepts len deadline =
      s'.world.blank.roundtrip accepts len deadline := fun hs =>
    congrArg (fun s : Sys => s.world.roundtrip accepts len deadline) hs
  simp only [World.roundtrip_blank, Prod.mk.injEq] at heq
  constructor
  · intro s s' hs
    show Option.Rel _ (s.world.roundtrip accepts len deadline).1
      (s'.world.roundtrip accepts len deadline).1
    have hanswer := (heq hs).1
    generalize (s.world.roundtrip accepts len deadline).1 = r at hanswer
    generalize (s'.world.roundtrip accepts len deadline).1 = r' at hanswer
    rcases r with _ | r <;> rcases r' with _ | r'
    · exact .none
    · cases hanswer
    · cases hanswer
    · exact .some (Option.some.inj hanswer)
  · intro s s' hs
    have hsup := congrArg Sys.sup (show s.blank = s'.blank from hs)
    show Sys.mk s.sup (s.world.roundtrip accepts len deadline).2.blank =
      Sys.mk s'.sup (s'.world.roundtrip accepts len deadline).2.blank
    rw [(heq hs).2, show s.sup = s'.sup from hsup]

end Rules

section Loop

/-- Readings of the wall clock that are seen alike are written with as many digits. -/
theorem length_probePayload_blankClock {t t' : Option UInt64} (h : blankClock t = blankClock t')
    (message : Option String) :
    (probePayload (t.getD 0) message).length = (probePayload (t'.getD 0) message).length := by
  have hwidth : ∀ n : UInt64, n.toNat < 10 ^ 16 → (zeroPadded 16 n.toNat).length = 16 :=
    fun n hn => (length_zeroPadded_eq_iff (by decide) n.toNat).mpr hn
  have hlength : (zeroPadded 16 (t.getD 0).toNat).length =
      (zeroPadded 16 (t'.getD 0).toNat).length := by
    unfold blankClock at h
    by_cases ht : (t.getD 0).toNat < 10 ^ 16 <;> by_cases ht' : (t'.getD 0).toNat < 10 ^ 16
    · rw [hwidth _ ht, hwidth _ ht']
    · rw [if_pos ht, if_neg ht'] at h
      exact absurd (by rw [← h]; decide) ht'
    · rw [if_neg ht, if_pos ht'] at h
      exact absurd (by rw [h]; decide) ht
    · rw [if_neg ht, if_neg ht'] at h
      rw [h]
  simp only [probePayload_eq, List.length_append, intoBytes_zeroPad16, hlength]

/-- A program of the supervisor that runs alike where it is seen alike. -/
private abbrev SeesNoContents {α : Type} (p : Future α) : Prop :=
  host.RunAlike Sys.Alike EventsAlike p p

private theorem sees_local {α : Type} {p : Future α} (hp : p.Only Op.Local) : SeesNoContents p := by
  refine runAlike_of_only actsAlike_host (fun op hop => pollsAlike_of_inland ?_) hp
  cases op with
  | wallClock | startProbe | roundtrip => exact hop.elim
  | _ => trivial

/-- Awaiting operations that are polled alike. -/
private theorem sees_await {α : Type} {op op' : Op} {A : op.Answer → op'.Answer → Prop}
    (hop : host.PollsAlike Sys.Alike op op' A)
    {f : op.Answer → Future α} {f' : op'.Answer → Future α}
    (hf : ∀ r r', A r r' → host.RunAlike Sys.Alike EventsAlike (f r) (f' r')) :
    host.RunAlike Sys.Alike EventsAlike (await op >>= f) (await op' >>= f') :=
  runAlike_call actsAlike_host hop hf

private theorem sees_inland {α : Type} (op : Op) (hop : op.Inland)
    {f f' : op.Answer → Future α} (hf : ∀ r, host.RunAlike Sys.Alike EventsAlike (f r) (f' r)) :
    host.RunAlike Sys.Alike EventsAlike (await op >>= f) (await op >>= f') := by
  refine sees_await (pollsAlike_of_inland hop) fun r r' heq => ?_
  subst heq
  exact hf r

/-- A probe is as long whatever time it is, and looks only for as many bytes. -/
private theorem sees_probe (loop : ProbeLoop) (poll : Duration) :
    SeesNoContents (loop.probe poll) := by
  refine sees_await pollsAlike_wallClock fun t t' hclock => ?_
  have hlength := length_probePayload_blankClock hclock loop.messageSuffix
  refine sees_await (pollsAlike_startProbe _ hlength) fun _ _ _ => ?_
  refine sees_inland .now trivial fun now => sees_inland .target trivial fun os => ?_
  rw [hlength]
  refine sees_await (pollsAlike_roundtrip _ _ _) fun r r' hreply => ?_
  rcases r with _ | r <;> rcases r' with _ | r'
  · exact runAlike_ret _
  · cases hreply
  · cases hreply
  · have hreply : blankReply r = blankReply r' := Option.some.inj hreply
    rcases r with e | bytes <;> rcases r' with e' | bytes'
    · cases hreply
      exact runAlike_ret _
    · cases hreply
    · cases hreply
    · exact runAlike_ret _

private theorem sees_probeBranch : SeesNoContents probeBranch := by
  refine sees_inland .this trivial fun self => ?_
  split
  · exact runAlike_ret _
  · refine RunAlike.bind (sees_probe _ _) fun r => ?_
    cases r <;> exact sees_local ((local_of_calm (nowPlus_calm _)).bind fun _ => trivial)

private theorem sees_selectOneTick (next : Option Instant) :
    SeesNoContents (selectOneTick next) := by
  refine sees_inland .this trivial fun self => sees_inland .now trivial fun now => ?_
  split
  · exact sees_local trivial
  · refine sees_inland .target trivial fun os =>
      sees_inland (.select _ _ _) trivial fun wakeup => ?_
    split
    · exact sees_local ((only_liftIo _).bind fun _ =>
        (local_of_calm childLifetime_calm).bind fun _ => trivial)
    · exact sees_probeBranch
    · exact runAlike_ret _
    · exact runAlike_ret _

private theorem sees_turn (next : Option Instant) : SeesNoContents (turn next) := by
  refine sees_inland .this trivial fun self => sees_inland .now trivial fun now => ?_
  split
  · exact sees_local onExpired_local
  · refine (sees_selectOneTick next).bind fun tick => sees_inland (.trace _) trivial fun _ => ?_
    exact sees_local (onOutcome_local tick.2 tick.1)

/-- The run cut after any number of turns, by induction on the turns. -/
private theorem sees_runFor (n : Nat) : SeesNoContents (runFor n) := by
  induction n with
  | zero => exact sees_local (local_of_calm startUp_calm)
  | succ n ih =>
    refine ih.bind fun flow => ?_
    cases flow with
    | looping next => exact sees_turn next
    | returned => exact runAlike_ret _

/-- The supervisor does not look at what comes back through the tunnel, nor at the wall clock
but for the text of a heartbeat: two executions whose hosts and scripts differ only in the
contents of the bytes that arrive and in the settings of the wall clock (as long as they are
written with sixteen digits) come to the same end after as much of the script, and leave
states that differ in as little. -/
theorem run_sees_no_contents (n : Nat) {s s' : Sys} {script script' : List (List Event)}
    (hs : s.Alike s') (hscript : List.Forall₂ EventsAlike script script') :
    (execute n script s).out = (execute n script' s').out ∧
      (execute n script s).state.Alike (execute n script' s').state ∧
      List.Forall₂ EventsAlike (execute n script s).rest (execute n script' s').rest := by
  have halike := (sees_runFor n).drive hscript hs
  exact ⟨halike.out, halike.state, halike.rest⟩

/-- Two heartbeats of different seconds, answered with different bytes: both probes succeed. -/
theorem run_sees_no_contents_heartbeats :
    let script : UInt64 → UInt8 → List (List Event) := fun t b =>
      [[.setWallClock (some t), .elapse (Duration.fromSecs 600)],
        [.connect, .bytes 0 (List.replicate 17 b), .written (.ok ())]]
    let first := execute 1 (script 1779000000 65) ⟨.monitored, .initial .unix⟩
    let second := execute 1 (script 1779000600 66) ⟨.monitored, .initial .unix⟩
    first.out = second.out ∧ first.state.Alike second.state ∧
      (loopEvents first.state.world.history).getLast? = some (.ticked .probeOk) := by
  intro script first second
  have hscript : List.Forall₂ EventsAlike (script 1779000000 65) (script 1779000600 66) :=
    .cons rfl (.cons rfl .nil)
  have hs : Sys.Alike ⟨.monitored, .initial .unix⟩ ⟨.monitored, .initial .unix⟩ := rfl
  obtain ⟨hout, hstate, -⟩ := run_sees_no_contents 1 hs hscript
  exact ⟨hout, hstate, by decide +kernel⟩

end Loop

end RustyAutossh
