import RustyAutossh.Loop.Runs

/-!
# Whose echo a probe accepts

A probe reads as many bytes as it wrote, from the oldest connection in the accept
queue or, in echo mode, from its own stream, and never looks at them. It is healthy
for its own echo exactly as long as the stream it reads begins with its payload.
-/

namespace RustyAutossh

open Async Runtime

/-- What accepting has done since a probe began with the first `taken` connections
accepted: nothing yet, or it has taken the next one. -/
def Net.Serves (n : Net) (taken : Nat) : Prop :=
  n.serving = none ∧ n.taken = taken ∨ n.serving = some taken ∧ n.taken = taken + 1

/-- What has come on the stream a probe reads, begun with the first `taken` connections
accepted: the next connection, once accepted, or in echo mode its own. -/
def Net.stream (n : Net) (accepts : Bool) (taken : Nat) : Option (List UInt8) :=
  if accepts then
    if taken < n.taken then (n.conns[taken]?).map Conn.received else none
  else some n.reply.received

section Net

variable {n : Net} {accepts : Bool} {taken len : Nat} {bytes : List UInt8}

/-- A read succeeds exactly when enough bytes have come, with the first of them. -/
theorem Conn.readExact_ok_iff {c : Conn} : c.readExact len = some (.ok bytes) ↔
    len ≤ c.received.length ∧ bytes = c.received.take len := by
  unfold Conn.readExact
  split
  · rename_i hlen
    simp [hlen, eq_comm]
  · rename_i hlen
    cases c.ended <;> simp [hlen]

/-- Accepting takes the next connection, at most once. -/
theorem Net.Serves.accept (h : n.Serves taken) : n.accept.2.Serves taken := by
  unfold Net.accept
  rcases h with ⟨hs, ht⟩ | ⟨hs, ht⟩
  · rw [hs]
    dsimp only
    split
    · exact .inl ⟨rfl, ht⟩
    · split
      · exact .inr ⟨congrArg some ht, congrArg (· + 1) ht⟩
      · exact .inl ⟨hs, ht⟩
  · rw [hs]
    exact .inr ⟨hs, ht⟩

/-- An error of accepting leaves the probe without a connection. -/
private theorem Net.Serves.accept_error (h : n.Serves taken) {e : IoError} {n' : Net}
    (ha : n.accept = (some e, n')) : n'.stream true taken = none := by
  unfold Net.accept at ha
  rcases h with ⟨hs, ht⟩ | ⟨hs, ht⟩
  · rw [hs] at ha
    dsimp only at ha
    split at ha
    · simp only [Prod.mk.injEq] at ha
      simp [← ha.2, Net.stream, ht]
    · split at ha <;> simp at ha
  · simp [hs] at ha

/-- A read succeeds exactly when the stream of the probe has brought enough bytes. -/
theorem Net.read_ok_iff (h : n.Serves taken) :
    (n.read accepts len).1 = some (.ok bytes) ↔
      ∃ st, (n.read accepts len).2.stream accepts taken = some st ∧ len ≤ st.length ∧
        bytes = st.take len := by
  cases accepts with
  | false => simp [Net.read, Net.stream, Conn.readExact_ok_iff]
  | true =>
    simp only [Net.read, if_true]
    cases ha : n.accept with
    | mk r n' =>
      have hserves : n'.Serves taken := by
        have hsnd := h.accept
        rwa [ha] at hsnd
      cases r with
      | some e => simp [h.accept_error ha]
      | none =>
        rcases hserves with ⟨hs, ht⟩ | ⟨hs, ht⟩
        · simp [Net.stream, hs, ht]
        · cases hc : n'.conns[taken]? with
          | none => simp [Net.stream, hs, ht, hc]
          | some c => simp [Net.stream, hs, ht, hc, Conn.readExact_ok_iff]

/-- Accepting leaves the outcome of the write. -/
private theorem Net.accept_written : n.accept.2.written = n.written := by
  unfold Net.accept
  split
  · rfl
  · split
    · rfl
    · split <;> rfl

/-- Reading accepts at most one connection and leaves the outcome of the write. -/
private theorem Net.Serves.read (h : n.Serves taken) :
    (n.read accepts len).2.Serves taken ∧ (n.read accepts len).2.written = n.written := by
  have haccept := h.accept
  have hwritten := n.accept_written
  unfold Net.read
  split
  · split
    · rename_i e n' ha
      rw [ha] at haccept hwritten
      exact ⟨haccept, hwritten⟩
    · rename_i n' ha
      rw [ha] at haccept hwritten
      exact ⟨haccept, hwritten⟩
  · exact ⟨h, rfl⟩

/-- Polling a round trip accepts at most one connection. -/
theorem Net.Serves.roundtrip (h : n.Serves taken) : (n.roundtrip accepts len).2.Serves taken := by
  have hread : (n.read accepts len).2.Serves taken := h.read.1
  unfold Net.roundtrip
  split
  · exact h
  · exact hread
  · split
    · split
      · rename_i e n' hr
        rwa [hr] at hread
      · rename_i r n' _ hr
        rwa [hr] at hread
    · exact h

/-- A round trip succeeds exactly when the write has succeeded and the stream of the probe
has brought enough bytes. -/
theorem Net.roundtrip_ok_iff (h : n.Serves taken) :
    (n.roundtrip accepts len).1 = some (.ok bytes) ↔
      (n.roundtrip accepts len).2.written = some (.ok ()) ∧
      ∃ st, (n.roundtrip accepts len).2.stream accepts taken = some st ∧ len ≤ st.length ∧
        bytes = st.take len := by
  have hwritten : (n.read accepts len).2.written = n.written := h.read.2
  cases hw : n.written with
  | none =>
    have hnone : (n.roundtrip accepts len).2.written = none := by
      simp only [Net.roundtrip, hw]
      split
      · split
        · rename_i e n' hr
          rw [hr] at hwritten
          exact hwritten.trans hw
        · rename_i r n' _ hr
          rw [hr] at hwritten
          exact hwritten.trans hw
      · exact hw
    constructor
    · intro hok
      exfalso
      simp only [Net.roundtrip, hw] at hok
      split at hok
      · split at hok <;> simp at hok
      · simp at hok
    · rintro ⟨hok, -⟩
      rw [hnone] at hok
      cases hok
  | some r =>
    cases r with
    | error e => simp [Net.roundtrip, hw]
    | ok u =>
      simp only [Net.roundtrip, hw, hwritten, true_and]
      exact Net.read_ok_iff h

end Net

/-- The payload of a probe begun in a state. -/
def ProbeLoop.payload (loop : ProbeLoop) (s : Sys) : List UInt8 :=
  probePayload (s.world.wallClock.getD 0) loop.messageSuffix

/-- The bytes the last round trip has read. -/
def Sys.readBack (s : Sys) : Option (List UInt8) :=
  match s.world.history.getLast? with
  | some ⟨_, _, .probed (some (.ok bytes))⟩ => some bytes
  | _ => none

/-- Unless the write of a probe begun in `s` has failed or fewer bytes have come by `t` than it
wrote, what has come on its stream begins with its payload. -/
def ProbeLoop.EchoFirst (loop : ProbeLoop) (s t : Sys) : Prop :=
  t.world.net.written = some (.ok ()) →
    ∀ st, t.world.net.stream loop.listenerOut.isSome s.world.net.taken = some st →
      (loop.payload s).length ≤ st.length → loop.payload s <+: st

/-- What a successful round trip has read, in terms of the sockets it leaves. -/
private def Net.Delivers (n : Net) (accepts : Bool) (taken len : Nat) (bytes : List UInt8) :
    Prop :=
  n.written = some (.ok ()) ∧
    ∃ st, n.stream accepts taken = some st ∧ len ≤ st.length ∧ bytes = st.take len

/-- The environment neither accepts a connection nor picks the one that is read. -/
private theorem World.serves_apply {w : World} {taken : Nat} (h : w.net.Serves taken)
    (e : Event) : (w.apply e).net.Serves taken := by
  cases e with
  | signal ev =>
    simp only [World.apply]
    split <;> exact h
  | _ => exact h

/-- A probe reads from at most one connection, the next in the queue. -/
private theorem keeps_serves (accepts : Bool) (len : Nat) (deadline : Instant) (taken : Nat) :
    host.Keeps (· = .roundtrip accepts len deadline) (·.world.net.Serves taken) where
  poll {op s} hop hs := by
    subst hop
    have hserves : (s.world.net.roundtrip accepts len).2.Serves taken := hs.roundtrip
    show (s.world.roundtrip accepts len deadline).2.net.Serves taken
    unfold World.roundtrip
    split
    · rename_i r n heq
      rwa [heq] at hserves
    · rename_i n heq
      rw [heq] at hserves
      split <;> exact hserves
  act {s} events hs := by
    show (events.foldl World.apply s.world).net.Serves taken
    have hs : s.world.net.Serves taken := hs
    generalize s.world = w at hs
    induction events generalizing w with
    | nil => exact hs
    | cons e events ih => exact ih _ (World.serves_apply hs e)

section Roundtrip

variable {accepts : Bool} {len taken : Nat} {deadline : Instant} {s t : Sys}

/-- A round trip that is answered has read the first bytes of its stream, or its write has
failed or too few bytes have come. -/
private theorem roundtrip_answered (hs : s.world.net.Serves taken)
    {r : Option (Except IoError (List UInt8))}
    (h : host.Answers (.roundtrip accepts len deadline) s r t) :
    (∀ bytes, r = some (.ok bytes) ↔ t.world.net.Delivers accepts taken len bytes) ∧
      ∃ now alive, t.world.history.getLast? = some ⟨now, alive, .probed r⟩ := by
  obtain ⟨u, hw, hp⟩ := h
  have hu : u.world.net.Serves taken := (keeps_serves accepts len deadline taken).waits rfl hs hw
  have hiff : ∀ bytes, (u.world.net.roundtrip accepts len).1 = some (.ok bytes) ↔
      (u.world.net.roundtrip accepts len).2.Delivers accepts taken len bytes :=
    fun _ => Net.roundtrip_ok_iff hu
  simp only [host, poll, World.roundtrip] at hp
  split at hp
  · rename_i q n heq
    simp only [Prod.mk.injEq, Option.some.injEq] at hp
    obtain ⟨rfl, rfl⟩ := hp
    rw [heq] at hiff
    refine ⟨fun bytes => ?_, _, _, List.getLast?_concat ..⟩
    exact hiff bytes
  · rename_i n heq
    split at hp
    · simp only [Prod.mk.injEq, Option.some.injEq] at hp
      obtain ⟨rfl, rfl⟩ := hp
      rw [heq] at hiff
      refine ⟨fun bytes => ?_, _, _, List.getLast?_concat ..⟩
      exact hiff bytes
    · simp at hp

/-- A pending round trip has not been delivered its bytes. -/
private theorem roundtrip_pending (hs : s.world.net.Serves taken)
    (h : host.Stalls (.roundtrip accepts len deadline) s t) (bytes : List UInt8) :
    ¬ t.world.net.Delivers accepts taken len bytes := by
  obtain ⟨u, hw, hp⟩ := h
  have hu : u.world.net.Serves taken := (keeps_serves accepts len deadline taken).waits rfl hs hw
  have hiff : (u.world.net.roundtrip accepts len).1 = some (.ok bytes) ↔
      (u.world.net.roundtrip accepts len).2.Delivers accepts taken len bytes :=
    Net.roundtrip_ok_iff hu
  simp only [host, poll, World.roundtrip] at hp
  split at hp
  · simp at hp
  · rename_i n heq
    split at hp
    · simp at hp
    · simp only [Prod.mk.injEq, true_and] at hp
      subst hp
      rw [heq] at hiff
      exact fun hd => by simpa using hiff.mpr hd

end Roundtrip

/-- The state in which the round trip of a probe begins. -/
private def ProbeLoop.probing (loop : ProbeLoop) (s : Sys) : Sys :=
  { s with world := s.world.startProbe loop.ports.portIn (loop.payload s) }

/-- A probe reports what its round trip answers. -/
private theorem ProbeLoop.drive_probe (loop : ProbeLoop) (poll : Duration)
    (script : List (List Event)) (s : Sys) :
    host.drive (loop.probe poll) script s =
      match host.await (.roundtrip loop.listenerOut.isSome (loop.payload s).length
        (deadlineAfter s.world.target s.world.now poll)) script (loop.probing s) with
      | (some r, t, rest) => ⟨.ret (probeResult r), t, rest⟩
      | (none, t, rest) => ⟨.pending, t, rest⟩ := by
  rw [ProbeLoop.probe]
  refine (drive_call_of_ready rfl script).trans ((drive_call_of_ready rfl script).trans
    ((drive_call_of_ready rfl script).trans ((drive_call_of_ready rfl script).trans ?_)))
  show host.drive (.call (.roundtrip loop.listenerOut.isSome (loop.payload s).length
    (deadlineAfter s.world.target s.world.now poll)) _) script (loop.probing s) = _
  simp only [Runtime.drive]
  split
  · rename_i r t rest heq
    rw [heq]
    rcases r with - | (e | bytes) <;> rfl
  · rename_i heq
    rw [heq]

/-- By `t` the write of a probe begun in `s` has succeeded, and as many bytes as it wrote have
come on its stream. -/
def ProbeLoop.Echoed (loop : ProbeLoop) (s t : Sys) : Prop :=
  t.world.net.written = some (.ok ()) ∧
    ∃ st, t.world.net.stream loop.listenerOut.isSome s.world.net.taken = some st ∧
      (loop.payload s).length ≤ st.length

/-- Such a stream delivers some bytes. -/
private theorem ProbeLoop.echoed_iff {loop : ProbeLoop} {s t : Sys} :
    loop.Echoed s t ↔ ∃ bytes, t.world.net.Delivers loop.listenerOut.isSome s.world.net.taken
      (loop.payload s).length bytes := by
  constructor
  · rintro ⟨hw, st, hst, hlen⟩
    exact ⟨_, hw, st, hst, hlen, rfl⟩
  · rintro ⟨bytes, hw, st, hst, hlen, -⟩
    exact ⟨hw, st, hst, hlen⟩

/-- A round trip waits only before its deadline. -/
private theorem roundtrip_early {accepts : Bool} {len : Nat} {deadline : Instant} {s t : Sys}
    (h : host.Stalls (.roundtrip accepts len deadline) s t) : t.world.now < deadline := by
  obtain ⟨u, -, hp⟩ := h
  simp only [host, poll, World.roundtrip] at hp
  split at hp
  · simp at hp
  · split at hp
    · simp at hp
    · rename_i hlate
      simp only [Prod.mk.injEq, true_and] at hp
      subst hp
      exact Nat.lt_of_not_le hlate

/-- What a probe has come to, over every script: it is healthy exactly if its echo has come, it
has timed out only past its deadline, and it is under way only before that. So an echo that
comes in time is no alarm. -/
theorem ProbeLoop.probe_healthy_iff (loop : ProbeLoop) (poll : Duration)
    (script : List (List Event)) (s : Sys) :
    let outcome := host.drive (loop.probe poll) script s
    let deadline := deadlineAfter s.world.target s.world.now poll
    (outcome.out = .ret (.ok ()) ↔ loop.Echoed s outcome.state) ∧
    (outcome.out = .ret (.error .timeout) → deadline ≤ outcome.state.world.now) ∧
    (outcome.out = .pending → outcome.state.world.now < deadline) ∧
    (outcome.out = .pending ∨ ∃ r, outcome.out = .ret r) := by
  have hserves : (loop.probing s).world.net.Serves s.world.net.taken := .inl ⟨rfl, rfl⟩
  dsimp only
  rw [loop.drive_probe, ProbeLoop.echoed_iff]
  split
  · rename_i r t rest heq
    have hanswer := answers_of_await heq
    obtain ⟨hiff, -⟩ := roundtrip_answered hserves hanswer
    refine ⟨?_, fun htimeout => ?_, fun hpend => (by cases hpend), .inr ⟨_, rfl⟩⟩
    · rcases r with - | (e | bytes)
      · exact ⟨fun hok => by simp [probeResult] at hok,
          fun ⟨bytes, hd⟩ => by simpa using (hiff bytes).mpr hd⟩
      · exact ⟨fun hok => by simp [probeResult] at hok,
          fun ⟨bytes, hd⟩ => by simpa using (hiff bytes).mpr hd⟩
      · exact ⟨fun _ => ⟨bytes, (hiff bytes).mp rfl⟩, fun _ => rfl⟩
    · rcases r with - | (e | bytes)
      · exact (answers_roundtrip hanswer).2 rfl
      · simp [probeResult] at htimeout
      · simp [probeResult] at htimeout
  · rename_i t rest heq
    obtain ⟨hstalls, -⟩ := stalls_of_await heq
    refine ⟨⟨fun hok => (by cases hok), ?_⟩, fun htimeout => (by cases htimeout),
      fun _ => roundtrip_early hstalls, .inl rfl⟩
    rintro ⟨bytes, hd⟩
    exact absurd hd (roundtrip_pending hserves hstalls bytes)

/-- The stream of a probe begins with its payload exactly if what it can read is its payload. -/
private theorem ProbeLoop.echoFirst_iff {loop : ProbeLoop} {s t : Sys} :
    loop.EchoFirst s t ↔ ∀ bytes, t.world.net.Delivers loop.listenerOut.isSome s.world.net.taken
      (loop.payload s).length bytes → bytes = loop.payload s := by
  constructor
  · rintro h bytes ⟨hw, st, hst, hlen, rfl⟩
    exact (List.prefix_iff_eq_take.mp (h hw st hst hlen)).symm
  · intro h hw st hst hlen
    exact List.prefix_iff_eq_take.mpr (h _ ⟨hw, st, hst, hlen, rfl⟩).symm

/-- A probe is healthy only for its own echo exactly if the stream it reads, once it has
brought enough bytes, begins with its payload. -/
theorem ProbeLoop.probe_echo_iff (loop : ProbeLoop) (poll : Duration)
    (script : List (List Event)) (s : Sys) :
    ((host.drive (loop.probe poll) script s).out = .ret (.ok ()) →
        (host.drive (loop.probe poll) script s).state.readBack = some (loop.payload s)) ↔
      loop.EchoFirst s (host.drive (loop.probe poll) script s).state := by
  have hserves : (loop.probing s).world.net.Serves s.world.net.taken := .inl ⟨rfl, rfl⟩
  rw [loop.drive_probe, ProbeLoop.echoFirst_iff]
  split
  · rename_i r t rest heq
    obtain ⟨hiff, now, alive, hlast⟩ := roundtrip_answered hserves (answers_of_await heq)
    dsimp only
    rcases r with - | (e | bytes)
    · constructor
      · exact fun _ bytes hd => by simpa using (hiff bytes).mpr hd
      · exact fun _ hok => by simp [probeResult] at hok
    · constructor
      · exact fun _ bytes hd => by simpa using (hiff bytes).mpr hd
      · exact fun _ hok => by simp [probeResult] at hok
    · have hread : t.readBack = some bytes := by simp only [Sys.readBack, hlast]
      have hdelivered := (hiff bytes).mp rfl
      constructor
      · intro h bytes' hd
        have hsame := (hiff bytes').mpr hd
        have hown := h rfl
        simp only [Option.some.injEq, Except.ok.injEq] at hsame
        rw [hread, Option.some.injEq] at hown
        rw [← hsame, hown]
      · intro h _
        rw [hread, h bytes hdelivered]
  · rename_i t rest heq
    have hpend := roundtrip_pending hserves (stalls_of_await heq).1
    constructor
    · exact fun _ bytes hd => absurd hd (hpend bytes)
    · exact fun _ hok => by simp at hok

/-- One probe of a sequence: what happens before it, its time limit, and what happens
while it runs. -/
structure ProbeCall where
  before : List Event
  poll : Duration
  script : List (List Event)

/-- A sequence of probes on one loop: the state in which each begins, and its outcome. -/
def ProbeLoop.calls (loop : ProbeLoop) : Sys → List ProbeCall →
    List (Sys × Outcome AutosshError (Except ProbeError Unit) Sys (List Event))
  | _, [] => []
  | s, call :: rest =>
    let begun := s.apply call.before
    let outcome := host.drive (loop.probe call.poll) call.script begun
    (begun, outcome) :: loop.calls outcome.state rest

/-- Every probe of a sequence of which it holds that it is healthy only for its own echo. -/
theorem probes_healthy_for_own_echo_iff (loop : ProbeLoop) (s : Sys) (calls : List ProbeCall) :
    (∀ p ∈ loop.calls s calls,
        p.2.out = .ret (.ok ()) → p.2.state.readBack = some (loop.payload p.1)) ↔
      ∀ p ∈ loop.calls s calls, loop.EchoFirst p.1 p.2.state := by
  induction calls generalizing s with
  | nil => simp [ProbeLoop.calls]
  | cons call rest ih =>
    simp only [ProbeLoop.calls, List.forall_mem_cons]
    exact and_congr (loop.probe_echo_iff call.poll call.script _) (ih _)

/-- A stale connection full of foreign bytes makes a probe healthy. -/
theorem probe_healthy_for_stale_connection :
    let loop : ProbeLoop := ⟨⟨20000⟩, some ⟨20001⟩, none, ⟨20000, 20001⟩⟩
    let s : Sys := (Sys.mk .initial (.initial .unix)).apply
      [.connect, .bytes 0 (List.replicate 17 0)]
    let outcome := host.drive (loop.probe (Duration.fromSecs 600)) [[.written (.ok ())]] s
    outcome.out = .ret (.ok ()) ∧ outcome.state.readBack = some (List.replicate 17 0) ∧
      outcome.state.readBack ≠ some (loop.payload s) := by
  decide +kernel

end RustyAutossh
