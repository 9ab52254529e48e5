import RustyAutossh.Source.Types

/-!
# Monitor-port forwards in the ssh argv

The spawner prepends ssh's own `-L` and `-R` options to the user's arguments,
which stay behind them unchanged and in order.
-/

namespace RustyAutossh

/-- A port as `{port}` prints it. -/
def portText (port : UInt16) : String := toString port.toNat

/-- `{listen}:127.0.0.1:{target}`, the argument of one forward. -/
def forwardPair (listen target : UInt16) : String :=
  portText listen ++ ":127.0.0.1:" ++ portText target

/-- `inject_monitor_forwards`. -/
def injectMonitorForwards (mode : MonitorMode) (sshArgs : List String) : List String :=
  match mode with
  | .none => sshArgs
  | .active port none =>
    let pair := forwardPair port (saturatingAddU16 port 1)
    ["-L", pair, "-R", pair] ++ sshArgs
  | .active port (some echo) => ["-L", forwardPair port echo] ++ sshArgs

/-- The user's arguments follow the injected ones verbatim. -/
theorem injectMonitorForwards_suffix (mode : MonitorMode) (sshArgs : List String) :
    sshArgs <:+ injectMonitorForwards mode sshArgs := by
  cases mode with
  | none => exact List.suffix_refl _
  | active port echo => cases echo <;> exact List.suffix_append _ _

/-- The decimal text of a port reads back as the port. -/
theorem ofDigitChars_portText (port : UInt16) :
    Nat.ofDigitChars 10 (portText port).toList 0 = port.toNat := by
  simp only [portText, Nat.toString_eq_repr, Nat.toList_repr, Nat.ofDigitChars_ten_toDigits]

/-- The decimal text of a port has digits only. -/
theorem isDigit_of_mem_portText {port : UInt16} {c : Char} (h : c ∈ (portText port).toList) :
    c.isDigit := by
  simp only [portText, Nat.toString_eq_repr, Nat.toList_repr] at h
  exact Nat.isDigit_of_mem_toDigits (by decide) (by decide) h

end RustyAutossh
