import RustyAutossh.Source.SshSupervisor
import RustyAutossh.Correctness.Tunnel
import RustyAutossh.Loop.Relaunch

/-!
# The ports ssh is told and the ports that were bound

Every spawn of a run passes ssh the same forwards. They are built from the port the
input listener got and, without an echo port, from the number after it, whatever port
the output listener got.
-/

namespace RustyAutossh

open Async Runtime

/-- The forwards among the injected options are those of the bound ports; with two
listeners the second one's port is the output port, and differs from the input port. -/
structure ForwardsBound (loop : ProbeLoop) (echo : Option UInt16) (injected : List String) :
    Prop where
  forwards : sshForwards injected =
    ⟨.near, loop.ports.portIn, "127.0.0.1", loop.ports.portOut⟩ ::
      if echo = none then [⟨.far, loop.ports.portIn, "127.0.0.1", loop.ports.portOut⟩] else []
  listeners : echo = none → ∃ out, loop.listenerOut = some out ∧
    loop.ports.portOut = out.port ∧ out.port ≠ loop.ports.portIn

/-- The system assigns the output listener of port zero the port after the input one's. -/
def AssignsConsecutive (tcp : TcpStack) (held : List UInt16) : Prop :=
  ∀ portIn portOut, tcp.listen held 0 = .ok portIn →
    tcp.listen (portIn :: held) 0 = .ok portOut → portOut = saturatingAddU16 portIn 1

/-- Every spawn of an execution is given the arguments of the record it starts from. -/
theorem execute_spawn_args {s₀ : Sys} (hs : s₀.Fresh) {n : Nat} {script : List (List Event)}
    {e : Entry} (he : e ∈ (execute n script s₀).state.world.history) {path : PathBuf}
    {args : List String} {result : Except IoError UInt32}
    (hact : e.act = .spawned path args result) : args = s₀.sup.argv := by
  obtain ⟨out, t, hrun, hgrows⟩ := execute_logGrows hs.still n script
  exact (hrun.spawn_line hs e (hgrows.subset he) path args result hact).2

/-- The forward ssh makes of an echo port's injected option. -/
theorem sshForwards_echo (port echo : UInt16) :
    sshForwards ["-L", forwardPair port echo] = [⟨.near, port, "127.0.0.1", echo⟩] := by
  simp [sshForwards, parse_forwardPair]

/-- With an echo port the forward is that of the bound ports. -/
theorem forwardsBound_echo {tcp : TcpStack} {held : List UInt16} {port echo : UInt16}
    {message : Option String} {loop : ProbeLoop}
    (h : ProbeLoop.bind tcp held (.active port (some echo)) message = .ok loop) :
    ForwardsBound loop (some echo) ["-L", forwardPair loop.ports.portIn echo] := by
  obtain ⟨portIn, rfl, -⟩ := ProbeLoop.bind_echo h
  exact ⟨by simp [sshForwards_echo], by simp⟩

/-- Without one the forwards are those of the bound ports exactly if the output listener
got the port after the input listener's. -/
theorem forwardsBound_active_iff {tcp : TcpStack} {held : List UInt16} {port : UInt16}
    {message : Option String} {loop : ProbeLoop} {sshArgs injected : List String}
    (h : ProbeLoop.bind tcp held (.active port none) message = .ok loop)
    (hinject : injectMonitorForwards (.active loop.ports.portIn none) sshArgs =
      injected ++ sshArgs) :
    ForwardsBound loop none injected ↔
      loop.ports.portOut = saturatingAddU16 loop.ports.portIn 1 := by
  have hforwards := sshForwards_injected hinject
  obtain ⟨portIn, portOut, rfl, -, hout, -⟩ := ProbeLoop.bind_active h
  constructor
  · intro hbound
    have hsame := hbound.forwards
    rw [hforwards] at hsame
    simp only [if_true, List.cons.injEq, Forward.mk.injEq, true_and] at hsame
    exact hsame.1.symm
  · intro heq
    have heq : portOut = saturatingAddU16 portIn 1 := heq
    subst heq
    have hfresh : saturatingAddU16 portIn 1 ≠ portIn := by
      intro hsame
      have hnot := tcp.listen_fresh hout
      rw [hsame] at hnot
      exact hnot List.mem_cons_self
    exact ⟨by rw [hforwards]; rfl, fun _ => ⟨_, rfl, rfl, hfresh⟩⟩

/-- A port other than zero is bound as asked, and the one after it as well. -/
theorem portOut_of_ne_zero {tcp : TcpStack} {held : List UInt16} {port : UInt16}
    {message : Option String} {loop : ProbeLoop} (hport : port ≠ 0)
    (h : ProbeLoop.bind tcp held (.active port none) message = .ok loop) :
    loop.ports.portOut = saturatingAddU16 loop.ports.portIn 1 := by
  obtain ⟨portIn, portOut, rfl, hin, hout, -⟩ := ProbeLoop.bind_active h
  rw [if_neg hport] at hout
  have hne : saturatingAddU16 port 1 ≠ 0 := by
    intro hzero
    have hnat := congrArg UInt16.toNat hzero
    rw [toNat_saturatingAddU16, UInt16.toNat_one, UInt16.toNat_zero] at hnat
    omega
  have hpin := tcp.listen_port hin hport
  have hpout := tcp.listen_port hout hne
  simp only [hpin, hpout]

/-- Port zero gets whatever two ports the system assigns. -/
theorem portOut_of_zero {tcp : TcpStack} {held : List UInt16} {message : Option String}
    {loop : ProbeLoop} (h : ProbeLoop.bind tcp held (.active 0 none) message = .ok loop) :
    loop.ports.portOut = saturatingAddU16 loop.ports.portIn 1 ↔ AssignsConsecutive tcp held := by
  obtain ⟨portIn, portOut, rfl, hin, hout, -⟩ := ProbeLoop.bind_active h
  rw [if_pos rfl] at hout
  constructor
  · intro heq pin pout hpin hpout
    rw [hin, Except.ok.injEq] at hpin
    subst hpin
    rw [hout, Except.ok.injEq] at hpout
    exact hpout ▸ heq
  · intro hassigns
    exact hassigns _ _ hin hout

/-- The forwards every spawn of a run passes to ssh are those of the bound ports exactly
if there is an echo port, the port asked for is not zero, or the system happens to assign
the output listener the port after the input listener's. -/
theorem spawned_forwards_bound_iff (self : SshSupervisor) (tcp : TcpStack) (held : List UInt16)
    (port : UInt16) (echo : Option UInt16) (loop : ProbeLoop) (sshPath : PathBuf) (w : World)
    (hmode : self.monitorMode = .active port echo)
    (hbind : ProbeLoop.bind tcp held self.monitorMode self.message = .ok loop)
    (hprocs : w.procs = []) (hhistory : w.history = []) (n : Nat) (script : List (List Event))
    (e : Entry) (path : PathBuf) (args : List String) (result : Except IoError UInt32)
    (he : e ∈ (execute n script
      ⟨self.supervisor sshPath (some loop) w.now, w⟩).state.world.history)
    (hact : e.act = .spawned path args result) :
    ∃ injected, args = injected ++ self.sshArgs ∧ (ForwardsBound loop echo injected ↔
      echo ≠ none ∨ port ≠ 0 ∨ AssignsConsecutive tcp held) := by
  have hfresh : Sys.Fresh ⟨self.supervisor sshPath (some loop) w.now, w⟩ :=
    ⟨rfl, hprocs, hhistory⟩
  have hargs := execute_spawn_args hfresh he hact
  have hargv : args = injectMonitorForwards (.active loop.ports.portIn echo) self.sshArgs := by
    rw [hargs, ← SshSupervisor.boundMode_active hmode loop]
    rfl
  obtain ⟨injected, hinjected⟩ :=
    injectMonitorForwards_suffix (.active loop.ports.portIn echo) self.sshArgs
  refine ⟨injected, by rw [hargv, hinjected], ?_⟩
  rw [hmode] at hbind
  cases echo with
  | some echo =>
    have hopts : injected = ["-L", forwardPair loop.ports.portIn echo] :=
      List.append_cancel_right hinjected
    rw [hopts]
    exact iff_of_true (forwardsBound_echo hbind) (.inl (by simp))
  | none =>
    rw [forwardsBound_active_iff hbind hinjected.symm]
    by_cases hport : port = 0
    · subst hport
      rw [portOut_of_zero hbind]
      simp
    · exact iff_of_true (portOut_of_ne_zero hport hbind) (.inr (.inl hport))

/-- A supervisor with the defaults of the builder, a given ssh binary and a monitor port. -/
def SshSupervisor.onPort (port : UInt16) : SshSupervisor where
  sshArgs := ["host"]
  monitorMode := .active port none
  sshPath := some (.utf8 "ssh")
  poll := Duration.fromSecs 600
  firstPoll := none
  gateTime := Duration.fromSecs 30
  maxStart := none
  maxLifetime := none
  eventSender := none
  message := none
  compatibilityMode := .default
  oneShot := false
  pidfilePath := none
  logfilePath := none

/-- The forwards of monitor port 20000 are those of the bound ports. -/
theorem spawned_forwards_bound_twenty_thousand :
    ∃ injected, injectMonitorForwards (.active 20000 none) ["host"] = injected ++ ["host"] ∧
      ForwardsBound ⟨⟨20000⟩, some ⟨20001⟩, none, ⟨20000, 20001⟩⟩ none injected := by
  obtain ⟨injected, hargs, hbound⟩ := spawned_forwards_bound_iff (.onPort 20000) .vacant [] 20000
    none ⟨⟨20000⟩, some ⟨20001⟩, none, ⟨20000, 20001⟩⟩ (.utf8 "ssh") (.initial .unix)
    rfl rfl rfl rfl 0 []
    ⟨0, 0, .spawned (.utf8 "ssh") (injectMonitorForwards (.active 20000 none) ["host"]) (.ok 1)⟩
    _ _ _ (List.mem_of_getElem? (i := 0) rfl) rfl
  exact ⟨injected, hargs, hbound.mpr (.inr (.inl (by decide)))⟩

/-- The port asked for, or for port zero 40000 first and 50000 next. -/
def scatteredPort (held : List UInt16) (asked : UInt16) : UInt16 :=
  if asked ≠ 0 then asked else if 40000 ∈ held then 50000 else 40000

/-- A local stack that assigns ports far apart. -/
def TcpStack.scattered : TcpStack where
  listen held asked :=
    if scatteredPort held asked ∈ held then .error ⟨98⟩ else .ok (scatteredPort held asked)
  localAddrError _ := none
  listen_port h hne := by
    split at h
    · cases h
    · rw [← Except.ok.inj h, scatteredPort, if_pos hne]
  listen_ne_zero h := by
    split at h
    · cases h
    · rw [← Except.ok.inj h]
      unfold scatteredPort
      split
      · assumption
      · split <;> decide
  listen_fresh h := by
    split at h
    · cases h
    · rw [← Except.ok.inj h]
      assumption

/-- Port zero on that stack: the probes come back to port 50000, and ssh is told 40001. -/
theorem spawned_forwards_miss_listener :
    ∃ loop, ProbeLoop.bind .scattered [] (.active 0 none) none = .ok loop ∧
      (∃ e ∈ (execute 0 [] ⟨(SshSupervisor.onPort 0).supervisor (.utf8 "ssh") (some loop) 0,
          .initial .unix⟩).state.world.history,
        e.act = .spawned (.utf8 "ssh") (["-L", forwardPair 40000 40001, "-R",
          forwardPair 40000 40001] ++ ["host"]) (.ok 1)) ∧
      loop.listenerOut = some ⟨50000⟩ ∧
      ¬ ForwardsBound loop none
        ["-L", forwardPair 40000 40001, "-R", forwardPair 40000 40001] := by
  refine ⟨⟨⟨40000⟩, some ⟨50000⟩, none, ⟨40000, 50000⟩⟩, rfl,
    ⟨_, List.mem_of_getElem? (i := 0) rfl, rfl⟩, rfl, fun hbound => ?_⟩
  have hforwards := hbound.forwards
  simp [sshForwards, parse_forwardPair] at hforwards

end RustyAutossh
