import Mathlib.Data.UInt

/-!
# Shared types of the supervisor crate

Durations and instants are nanosecond counts; an instant counts from the origin
of the monotonic clock. Counters and ports keep the fixed width of the source.
-/

namespace RustyAutossh

/-- The platform the crate is compiled for, selecting its `cfg` branches. -/
inductive Target where
  | unix
  | windows
  deriving DecidableEq, Repr

/-- A span of time in nanoseconds. -/
abbrev Duration := Nat

/-- A reading of the monotonic clock in nanoseconds. -/
abbrev Instant := Nat

/-- `Duration::from_secs`. -/
def Duration.fromSecs (n : Nat) : Duration := n * 1000000000

/-- The largest whole second an `Instant` can hold: an `i64` on Unix, a `u64` elsewhere. -/
def Target.maxInstantSecs : Target → Nat
  | .unix => 2 ^ 63 - 1
  | .windows => 2 ^ 64 - 1

/-- Whether an instant is one the platform can hold. -/
def Instant.Fits (os : Target) (t : Instant) : Prop := t / 1000000000 ≤ os.maxInstantSecs

instance (os : Target) (t : Instant) : Decidable (Instant.Fits os t) :=
  inferInstanceAs (Decidable (_ ≤ _))

/-- `Instant + Duration`, which panics exactly where this is `none`. A reading of the
clock fits, so adding nothing to it never fails. -/
def Instant.checkedAdd (os : Target) (t : Instant) (d : Duration) : Option Instant :=
  if d = 0 ∨ Instant.Fits os (t + d) then some (t + d) else none

/-- A sum that is representable is the plain sum. -/
theorem Instant.checkedAdd_eq_some {os : Target} {t u : Instant} {d : Duration}
    (h : Instant.checkedAdd os t d = some u) : u = t + d := by
  unfold Instant.checkedAdd at h
  split at h
  · exact (Option.some.inj h).symm
  · cases h

/-- A sum with a reading of the clock fits, or is that reading. -/
theorem Instant.le_or_fits_of_checkedAdd {os : Target} {t u : Instant} {d : Duration}
    (h : Instant.checkedAdd os t d = some u) : u ≤ t ∨ Instant.Fits os u := by
  unfold Instant.checkedAdd at h
  split at h
  · rename_i hfits
    obtain rfl := Option.some.inj h
    exact hfits.imp_left fun hd => by simp [hd]
  · cases h

/-- An operating-system string: valid UTF-8, or bytes that are not. -/
inductive OsString where
  | utf8 (s : String)
  | other (bytes : List UInt8)
  deriving DecidableEq, Repr

/-- `OsStr::to_str`. -/
def OsString.toStr : OsString → Option String
  | .utf8 s => some s
  | .other _ => none

/-- A path is its operating-system string. -/
abbrev PathBuf := OsString

/-- An error reported by the operating system. -/
structure IoError where
  code : Int
  deriving DecidableEq, Repr

/-- The status a child process exits with, as the operating system encodes it. -/
structure ExitStatus where
  raw : Int
  deriving DecidableEq, Repr

/-- `ExitStatus::success`. -/
def ExitStatus.success (s : ExitStatus) : Bool := s.raw == 0

/-- `SignalKind`. -/
inductive SignalKind where
  | terminate
  | interrupt
  | userDefined1
  | hangup
  | ctrlBreak
  deriving DecidableEq, Repr

/-- `MonitorMode`. -/
inductive MonitorMode where
  | none
  | active (port : UInt16) (echo : Option UInt16)
  deriving DecidableEq, Repr

/-- `SupervisorEvent`. -/
inductive SupervisorEvent where
  | childSpawned (pid : UInt32)
  | childExited (status : ExitStatus)
  | childRespawned
  | probeTimeout
  | maxStartReached (attempts : UInt32)
  | maxLifetimeReached
  | signalReceived (kind : SignalKind)
  deriving DecidableEq, Repr

/-- `AutosshError`. -/
inductive AutosshError where
  | sshNotFound (searched : List PathBuf)
  | monitorBindFailed (port : UInt16) (source : IoError)
  | maxStartReached (attempts : UInt32)
  | maxLifetimeReached
  | pidfileWrite (path : PathBuf) (source : IoError)
  | logfileWrite (path : PathBuf) (source : IoError)
  | io (source : IoError)
  | daemonize (reason : String)
  | internal (tag : String)
  deriving DecidableEq, Repr

/-- `u32::saturating_add`. -/
def saturatingAddU32 (a b : UInt32) : UInt32 := UInt32.ofNat (min (a.toNat + b.toNat) (2 ^ 32 - 1))

@[simp] theorem toNat_saturatingAddU32 (a b : UInt32) :
    (saturatingAddU32 a b).toNat = min (a.toNat + b.toNat) (2 ^ 32 - 1) := by
  rw [saturatingAddU32, UInt32.toNat_ofNat_of_lt']
  exact Nat.lt_of_le_of_lt (Nat.min_le_right _ _) (by decide)

/-- `u16::saturating_add`. -/
def saturatingAddU16 (a b : UInt16) : UInt16 := UInt16.ofNat (min (a.toNat + b.toNat) (2 ^ 16 - 1))

@[simp] theorem toNat_saturatingAddU16 (a b : UInt16) :
    (saturatingAddU16 a b).toNat = min (a.toNat + b.toNat) (2 ^ 16 - 1) := by
  rw [saturatingAddU16, UInt16.toNat_ofNat_of_lt']
  exact Nat.lt_of_le_of_lt (Nat.min_le_right _ _) (by decide)

end RustyAutossh
