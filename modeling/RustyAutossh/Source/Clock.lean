import RustyAutossh.Source.Types

/-!
# The poll clock and its resolution

`PollClock` is resolved from the environment, then from the command-line flags,
and last from `-f`. Numbers are parsed as the standard library parses them: a
malformed value leaves the default of its field in place.
-/

namespace RustyAutossh

/-- `PollClock`. -/
structure PollClock where
  poll : Duration
  firstPoll : Duration
  gateTime : Duration
  maxStart : Option UInt32
  maxLifetime : Option Duration
  deriving DecidableEq, Repr

/-- `DEFAULT_POLL_SECS`. -/
def defaultPollSecs : Nat := 600

/-- `DEFAULT_GATE_TIME_SECS`. -/
def defaultGateTimeSecs : Nat := 30

/-- `PollClock::default`. -/
def PollClock.default : PollClock where
  poll := Duration.fromSecs defaultPollSecs
  firstPoll := Duration.fromSecs defaultPollSecs
  gateTime := Duration.fromSecs defaultGateTimeSecs
  maxStart := none
  maxLifetime := none

/-- `EnvSnapshot`: the captured variables by name. -/
structure EnvSnapshot where
  vars : String → Option OsString

/-- `EnvSnapshot::get_str`. -/
def EnvSnapshot.getStr (env : EnvSnapshot) (key : String) : Option String :=
  (env.vars key).bind OsString.toStr

/-- `ClockFlags`. -/
structure ClockFlags where
  poll : Option Duration := none
  firstPoll : Option Duration := none
  gateTime : Option Duration := none
  maxStart : Option (Option UInt32) := none
  maxLifetime : Option (Option Duration) := none
  deriving DecidableEq, Repr

/-- The value of a nonempty run of decimal digits. -/
def parseDigits (cs : List Char) : Option Nat :=
  if cs ≠ [] ∧ cs.all Char.isDigit then some (Nat.ofDigitChars 10 cs 0) else none

/-- `str::parse::<u64>`: an optional plus sign, digits, and no overflow. -/
def parseU64 (s : String) : Option Nat :=
  let digits := match s.toList with
    | '+' :: rest => rest
    | cs => cs
  (parseDigits digits).filter (· < 2 ^ 64)

/-- `str::parse::<i64>`: an optional sign, digits, and no overflow. -/
def parseI64 (s : String) : Option Int :=
  match s.toList with
  | '-' :: rest => ((parseDigits rest).filter (· ≤ 2 ^ 63)).map fun n => -(n : Int)
  | '+' :: rest => ((parseDigits rest).filter (· < 2 ^ 63)).map Int.ofNat
  | cs => ((parseDigits cs).filter (· < 2 ^ 63)).map Int.ofNat

/-- `PollClock::resolve_from_env`. -/
def PollClock.resolveFromEnv (env : EnvSnapshot) : PollClock :=
  let clock := PollClock.default
  let clock := match (env.getStr "AUTOSSH_POLL").bind parseU64 with
    | some n => { clock with poll := Duration.fromSecs n, firstPoll := Duration.fromSecs n }
    | none => clock
  let clock := match (env.getStr "AUTOSSH_FIRST_POLL").bind parseU64 with
    | some n => { clock with firstPoll := Duration.fromSecs n }
    | none => clock
  let clock := match (env.getStr "AUTOSSH_GATETIME").bind parseU64 with
    | some n => { clock with gateTime := Duration.fromSecs n }
    | none => clock
  let clock := match (env.getStr "AUTOSSH_MAXSTART").bind parseI64 with
    -- `n as u32` keeps the low 32 bits
    | some n => { clock with maxStart := if n < 0 then none else some (UInt32.ofNat n.toNat) }
    | none => clock
  match (env.getStr "AUTOSSH_MAXLIFETIME").bind parseU64 with
  | some n => { clock with maxLifetime := if n = 0 then none else some (Duration.fromSecs n) }
  | none => clock

/-- `PollClock::resolve_from_env_and_flags`. -/
def PollClock.resolveFromEnvAndFlags (env : EnvSnapshot) (flags : ClockFlags)
    (dashFSupplied : Bool) : PollClock :=
  let clock := PollClock.resolveFromEnv env
  let clock := match flags.poll with
    | some d => { clock with poll := d }
    | none => clock
  let clock := match flags.firstPoll with
    | some d => { clock with firstPoll := d }
    | none => clock
  let clock := match flags.gateTime with
    | some d => { clock with gateTime := d }
    | none => clock
  let clock := match flags.maxStart with
    | some maxStart => { clock with maxStart := maxStart }
    | none => clock
  let clock := match flags.maxLifetime with
    | some maxLifetime => { clock with maxLifetime := maxLifetime }
    | none => clock
  if dashFSupplied then { clock with gateTime := 0 } else clock

end RustyAutossh
