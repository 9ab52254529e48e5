import RustyAutossh.Source.Types

/-!
# The monitor-port listeners and the heartbeat payload

`ProbeLoop.bind` opens the listeners of a monitor mode on the local TCP stack.
The stack decides whether a request to listen succeeds and, for port zero, where;
two live listeners never share a port.
-/

namespace RustyAutossh

/-- A listening TCP socket on `127.0.0.1`. -/
structure TcpListener where
  port : UInt16
  deriving DecidableEq, Repr

/-- The local TCP stack as a socket asking to listen sees it. -/
structure TcpStack where
  /-- The port on which a listener opens, from the ports already listened on and the one asked. -/
  listen : List UInt16 → UInt16 → Except IoError UInt16
  /-- The error of `local_addr` on a listener, where it has one. -/
  localAddrError : UInt16 → Option IoError
  listen_port : ∀ {held asked port}, listen held asked = .ok port → asked ≠ 0 → port = asked
  listen_ne_zero : ∀ {held asked port}, listen held asked = .ok port → port ≠ 0
  listen_fresh : ∀ {held asked port}, listen held asked = .ok port → port ∉ held

/-- `MonitorPortPair`. -/
structure MonitorPortPair where
  portIn : UInt16
  portOut : UInt16
  deriving DecidableEq, Repr

/-- `ProbeLoop`. -/
structure ProbeLoop where
  listenerIn : TcpListener
  listenerOut : Option TcpListener
  messageSuffix : Option String
  ports : MonitorPortPair
  deriving DecidableEq, Repr

/-- The local ports on which the supervisor itself listens. -/
def ProbeLoop.held (loop : ProbeLoop) : List UInt16 :=
  loop.listenerIn.port :: (loop.listenerOut.map TcpListener.port).toList

/-- `bind_reuseaddr`. -/
def bindReuseaddr (tcp : TcpStack) (held : List UInt16) (port : UInt16) :
    Except AutosshError TcpListener :=
  match tcp.listen held port with
  | .ok assigned => .ok ⟨assigned⟩
  | .error source => .error (.monitorBindFailed port source)

/-- `local_addr().port()`, with the failure reported against the port asked for. -/
def localPort (tcp : TcpStack) (listener : TcpListener) (asked : UInt16) :
    Except AutosshError UInt16 :=
  match tcp.localAddrError listener.port with
  | none => .ok listener.port
  | some source => .error (.monitorBindFailed asked source)

/-- `ProbeLoop::bind`. -/
def ProbeLoop.bind (tcp : TcpStack) (held : List UInt16) (mode : MonitorMode)
    (message : Option String) : Except AutosshError ProbeLoop :=
  if message.any (·.contains '\n') then
    .error (.internal "AUTOSSH_MESSAGE contains embedded newline")
  else match mode with
    | .none => .error (.internal "ProbeLoop::bind called with MonitorMode::None")
    | .active port none => do
      let listenerIn ← bindReuseaddr tcp held port
      let inPort ← localPort tcp listenerIn port
      let outTarget := if port = 0 then 0 else saturatingAddU16 port 1
      let listenerOut ← bindReuseaddr tcp (listenerIn.port :: held) outTarget
      let outPort ← localPort tcp listenerOut outTarget
      return ⟨listenerIn, some listenerOut, message, ⟨inPort, outPort⟩⟩
    | .active port (some echo) => do
      let listenerIn ← bindReuseaddr tcp held port
      let inPort ← localPort tcp listenerIn port
      return ⟨listenerIn, none, message, ⟨inPort, echo⟩⟩

/-- A number as `{:016}` prints it. -/
def zeroPad16 (n : UInt64) : String :=
  let digits := Nat.toDigits 10 n.toNat
  String.ofList (List.replicate (16 - digits.length) '0' ++ digits)

/-- `String::into_bytes`. -/
def intoBytes (s : String) : List UInt8 := s.toList.flatMap String.utf8EncodeChar

/-- `probe_payload`. -/
def probePayload (unixTs : UInt64) (message : Option String) : List UInt8 :=
  match message with
  | none => intoBytes (zeroPad16 unixTs ++ "\n")
  | some msg => intoBytes (zeroPad16 unixTs ++ " " ++ msg ++ "\n")

theorem bindReuseaddr_eq_ok {tcp : TcpStack} {held : List UInt16} {port : UInt16}
    {l : TcpListener} (h : bindReuseaddr tcp held port = .ok l) :
    tcp.listen held port = .ok l.port := by
  unfold bindReuseaddr at h
  split at h
  · rename_i heq
    cases h
    exact heq
  · cases h

theorem localPort_eq_ok {tcp : TcpStack} {l : TcpListener} {asked port : UInt16}
    (h : localPort tcp l asked = .ok port) : port = l.port := by
  unfold localPort at h
  split at h
  · exact (Except.ok.inj h).symm
  · cases h

/-- A composition succeeds when its first part does and the rest does on its value. -/
private theorem except_bind_eq_ok {ε α β : Type} {x : Except ε α} {f : α → Except ε β} {b : β} :
    (x >>= f) = .ok b ↔ ∃ a, x = .ok a ∧ f a = .ok b := by
  cases x with
  | error e => simp [Bind.bind, Except.bind]
  | ok a => simp [Bind.bind, Except.bind]

/-- What a successful bind for two listeners has opened and recorded. -/
theorem ProbeLoop.bind_active {tcp : TcpStack} {held : List UInt16} {port : UInt16}
    {message : Option String} {loop : ProbeLoop}
    (h : ProbeLoop.bind tcp held (.active port none) message = .ok loop) :
    ∃ portIn portOut, loop = ⟨⟨portIn⟩, some ⟨portOut⟩, message, ⟨portIn, portOut⟩⟩ ∧
      tcp.listen held port = .ok portIn ∧
      tcp.listen (portIn :: held) (if port = 0 then 0 else saturatingAddU16 port 1) =
        .ok portOut ∧
      message.any (·.contains '\n') = false := by
  unfold ProbeLoop.bind at h
  split at h
  · cases h
  · rename_i hm
    simp only [except_bind_eq_ok] at h
    obtain ⟨lin, hin, inPort, hinPort, lout, hout, outPort, houtPort, heq⟩ := h
    cases localPort_eq_ok hinPort
    cases localPort_eq_ok houtPort
    exact ⟨lin.port, lout.port, (Except.ok.inj heq).symm, bindReuseaddr_eq_ok hin,
      bindReuseaddr_eq_ok hout, Bool.eq_false_of_not_eq_true hm⟩

/-- What a successful bind in echo mode has opened and recorded. -/
theorem ProbeLoop.bind_echo {tcp : TcpStack} {held : List UInt16} {port echo : UInt16}
    {message : Option String} {loop : ProbeLoop}
    (h : ProbeLoop.bind tcp held (.active port (some echo)) message = .ok loop) :
    ∃ portIn, loop = ⟨⟨portIn⟩, none, message, ⟨portIn, echo⟩⟩ ∧
      tcp.listen held port = .ok portIn ∧ message.any (·.contains '\n') = false := by
  unfold ProbeLoop.bind at h
  split at h
  · cases h
  · rename_i hm
    simp only [except_bind_eq_ok] at h
    obtain ⟨lin, hin, inPort, hinPort, heq⟩ := h
    cases localPort_eq_ok hinPort
    exact ⟨lin.port, (Except.ok.inj heq).symm, bindReuseaddr_eq_ok hin,
      Bool.eq_false_of_not_eq_true hm⟩

end RustyAutossh
