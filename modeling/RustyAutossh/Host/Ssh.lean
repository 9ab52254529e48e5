import RustyAutossh.Source.Clock
import RustyAutossh.Source.Monitor
import RustyAutossh.Source.Spawner

/-!
# The forwards ssh makes of its options

`-L a:h:b` listens on the local port `a` and connects from the remote side to `h:b`;
`-R a:h:b` listens on the remote port `a` and connects from the local side to `h:b`.
A local listener opens only on a port nothing listens on yet.
-/

namespace RustyAutossh

/-- The end of the ssh connection on which a forward listens. -/
inductive Side where
  | near
  | far
  deriving DecidableEq, Repr

/-- A forward: it listens on one side and connects to its target from the other. -/
structure Forward where
  side : Side
  listen : UInt16
  host : String
  target : UInt16
  deriving DecidableEq, Repr

/-- A port number of a forward. -/
def parsePort (cs : List Char) : Option UInt16 :=
  ((parseDigits cs).filter (· < 2 ^ 16)).map UInt16.ofNat

/-- The argument `listen:host:target` of a forward. -/
def Forward.parse (side : Side) (spec : String) : Option Forward :=
  match spec.toList.splitOn ':' with
  | [listen, host, target] => do
    let listen ← parsePort listen
    let target ← parsePort target
    return ⟨side, listen, String.ofList host, target⟩
  | _ => none

/-- The forwards of a list of options. -/
def sshForwards : List String → List Forward
  | "-L" :: spec :: rest => (Forward.parse .near spec).toList ++ sshForwards rest
  | "-R" :: spec :: rest => (Forward.parse .far spec).toList ++ sshForwards rest
  | _ :: rest => sshForwards rest
  | [] => []

/-- The text of a port reads back as the port. -/
theorem parsePort_portText (port : UInt16) : parsePort (portText port).toList = some port := by
  have hne : (portText port).toList ≠ [] := by
    simp [portText, Nat.toString_eq_repr, Nat.toList_repr, Nat.toDigits_ne_nil]
  have hdigits : (portText port).toList.all Char.isDigit = true :=
    List.all_eq_true.mpr fun c hc => isDigit_of_mem_portText hc
  have hlt : port.toNat < 65536 := port.toNat_lt
  rw [parsePort, parseDigits, if_pos ⟨hne, hdigits⟩, ofDigitChars_portText]
  simp [hlt]

/-- The text of a port has no colon. -/
private theorem colon_not_mem_portText (port : UInt16) : ':' ∉ (portText port).toList := by
  intro h
  have hdigit := isDigit_of_mem_portText h
  revert hdigit
  decide

/-- Three pieces without a colon are what splitting their join at the colons gives. -/
private theorem splitOn_pieces {a b c : List Char} (ha : ':' ∉ a) (hb : ':' ∉ b) (hc : ':' ∉ c) :
    ([':'].intercalate [a, b, c]).splitOn ':' = [a, b, c] := by
  refine List.splitOn_intercalate ':' (fun l hl => ?_) (by simp)
  simp only [List.mem_cons, List.not_mem_nil, or_false] at hl
  rcases hl with rfl | rfl | rfl
  · exact ha
  · exact hb
  · exact hc

/-- The text of a forward reads back as the forward. -/
theorem parse_forwardPair (side : Side) (listen target : UInt16) :
    Forward.parse side (forwardPair listen target) =
      some ⟨side, listen, "127.0.0.1", target⟩ := by
  have hchars : (forwardPair listen target).toList = [':'].intercalate
      [(portText listen).toList, "127.0.0.1".toList, (portText target).toList] := by
    simp [forwardPair, List.intercalate, String.toList_append]
  have hsplit := splitOn_pieces (colon_not_mem_portText listen)
    (by decide : ':' ∉ "127.0.0.1".toList) (colon_not_mem_portText target)
  rw [Forward.parse, hchars, hsplit]
  simp [parsePort_portText]

/-- The forwards ssh makes of what is put before the user's arguments. -/
theorem sshForwards_injected {port : UInt16} {sshArgs injected : List String}
    (h : injectMonitorForwards (.active port none) sshArgs = injected ++ sshArgs) :
    sshForwards injected = [⟨.near, port, "127.0.0.1", saturatingAddU16 port 1⟩,
      ⟨.far, port, "127.0.0.1", saturatingAddU16 port 1⟩] := by
  obtain rfl := List.append_cancel_right h
  simp [sshForwards, parse_forwardPair]

end RustyAutossh
