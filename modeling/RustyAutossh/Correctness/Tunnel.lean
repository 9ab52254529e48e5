import RustyAutossh.Host.Ssh

/-!
# The heartbeat path through the tunnel

A heartbeat is written to a local port on which ssh listens, crosses to the remote
side, and comes back through a remote listener. The supervisor itself listens on the
port it writes to, and the two injected forwards never meet on the remote side.
-/

namespace RustyAutossh

/-- The local port a probe connects to is one ssh can open its listener on. -/
def ProbeLoop.LeavesPortToSsh (loop : ProbeLoop) : Prop := loop.ports.portIn ∉ loop.held

instance (loop : ProbeLoop) : Decidable loop.LeavesPortToSsh :=
  inferInstanceAs (Decidable (_ ∉ _))

/-- A local forward leads to the remote port on which a remote forward listens. -/
def MeetsFarSide (forwards : List Forward) : Prop :=
  ∃ l ∈ forwards, ∃ r ∈ forwards, l.side = .near ∧ r.side = .far ∧ l.target = r.listen

/-- A bound loop listens on the port its probes connect to. -/
theorem ProbeLoop.bind_portIn {tcp : TcpStack} {held : List UInt16} {mode : MonitorMode}
    {message : Option String} {loop : ProbeLoop}
    (h : ProbeLoop.bind tcp held mode message = .ok loop) :
    loop.listenerIn.port = loop.ports.portIn := by
  cases mode with
  | none =>
    unfold ProbeLoop.bind at h
    split at h <;> cases h
  | active port echo =>
    cases echo with
    | none =>
      obtain ⟨portIn, portOut, rfl, -⟩ := ProbeLoop.bind_active h
      rfl
    | some e =>
      obtain ⟨portIn, rfl, -⟩ := ProbeLoop.bind_echo h
      rfl

/-- No bound loop leaves ssh the port its probes connect to. -/
theorem ProbeLoop.not_leavesPortToSsh {tcp : TcpStack} {held : List UInt16} {mode : MonitorMode}
    {message : Option String} {loop : ProbeLoop}
    (h : ProbeLoop.bind tcp held mode message = .ok loop) : ¬ loop.LeavesPortToSsh := by
  have hin : loop.ports.portIn ∈ loop.held := by
    rw [← ProbeLoop.bind_portIn h]
    exact List.mem_cons_self
  exact not_not_intro hin

/-- Below the largest port, the port after it is another one. -/
private theorem saturatingAddU16_one_ne {port : UInt16} (h : port.toNat < 65535) :
    saturatingAddU16 port 1 ≠ port := by
  intro heq
  have hnat := congrArg UInt16.toNat heq
  rw [toNat_saturatingAddU16, UInt16.toNat_one] at hnat
  omega

/-- The injected forwards never meet on the remote side. -/
theorem not_meetsFarSide {port : UInt16} {sshArgs injected : List String}
    (hlt : port.toNat < 65535)
    (h : injectMonitorForwards (.active port none) sshArgs = injected ++ sshArgs) :
    ¬ MeetsFarSide (sshForwards injected) := by
  rintro ⟨l, hl, r, hr, hnear, hfar, heq⟩
  rw [sshForwards_injected h] at hl hr
  simp only [List.mem_cons, List.not_mem_nil, or_false] at hl hr
  have hl : l = ⟨.near, port, "127.0.0.1", saturatingAddU16 port 1⟩ := by
    rcases hl with rfl | rfl
    · rfl
    · cases hnear
  have hr : r = ⟨.far, port, "127.0.0.1", saturatingAddU16 port 1⟩ := by
    rcases hr with rfl | rfl
    · cases hfar
    · rfl
  rw [hl, hr] at heq
  exact saturatingAddU16_one_ne hlt heq

/-- On no port and with no arguments is the heartbeat path closed: the supervisor holds the
port its own probes connect to, with and without an echo port, and the injected local forward
leads to another remote port than the one the injected remote forward listens on. -/
theorem heartbeat_path_never_closed (tcp : TcpStack) (held : List UInt16) (port : UInt16)
    (message : Option String) (loop : ProbeLoop) (sshArgs injected : List String)
    (hlt : port.toNat < 65535) :
    (ProbeLoop.bind tcp held (.active port none) message = .ok loop →
      injectMonitorForwards (.active port none) sshArgs = injected ++ sshArgs →
      ¬ loop.LeavesPortToSsh ∧ ¬ MeetsFarSide (sshForwards injected)) ∧
    ∀ echo, ProbeLoop.bind tcp held (.active port (some echo)) message = .ok loop →
      ¬ loop.LeavesPortToSsh :=
  ⟨fun hbind hargs => ⟨ProbeLoop.not_leavesPortToSsh hbind, not_meetsFarSide hlt hargs⟩,
    fun _ hbind => ProbeLoop.not_leavesPortToSsh hbind⟩

/-- A local stack on which a port can be listened on if and only if nobody does. -/
def TcpStack.vacant : TcpStack where
  listen held asked := if asked = 0 ∨ asked ∈ held then .error ⟨98⟩ else .ok asked
  localAddrError _ := none
  listen_port h _ := by split at h <;> cases h; rfl
  listen_ne_zero h := by split at h <;> cases h; exact fun h0 => by simp_all
  listen_fresh h := by split at h <;> cases h; simp_all

/-- On the stack above, monitor port 20000 leaves both gaps. -/
theorem heartbeat_path_never_closed_twenty_thousand :
    ¬ (ProbeLoop.mk ⟨20000⟩ (some ⟨20001⟩) none ⟨20000, 20001⟩).LeavesPortToSsh ∧
      ¬ MeetsFarSide (sshForwards
        ["-L", forwardPair 20000 20001, "-R", forwardPair 20000 20001]) :=
  (heartbeat_path_never_closed .vacant [] 20000 none _ ["host"] _ (by decide)).1 rfl rfl

/-- Monitor port 20000: the supervisor listens on the port its probes connect to. -/
theorem heartbeat_path_open_at_twenty_thousand :
    injectMonitorForwards (.active 20000 none) ["host"] =
        ["-L", forwardPair 20000 20001, "-R", forwardPair 20000 20001] ++ ["host"] ∧
      ∃ loop, ProbeLoop.bind .vacant [] (.active 20000 none) none = .ok loop ∧
        ¬ (loop.LeavesPortToSsh ∧ MeetsFarSide (sshForwards
          ["-L", forwardPair 20000 20001, "-R", forwardPair 20000 20001])) :=
  ⟨rfl, _, rfl, fun h => h.1 (by decide)⟩

end RustyAutossh
