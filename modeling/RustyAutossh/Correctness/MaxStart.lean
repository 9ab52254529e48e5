import RustyAutossh.Correctness.Overrides
import RustyAutossh.Correctness.Precedence

/-!
# The retry cap in 32 bits

The cap is asked for as a signed 64-bit number and kept in 32 bits. Both conversions keep
the low bits of the number, so a large one becomes a small cap.
-/

namespace RustyAutossh

/-- The cap a number asks for: none if it is negative, else the nearest one of 32 bits. -/
def capFor (n : Int) : Option UInt32 :=
  if n < 0 then none else some (UInt32.ofNat (min n.toNat (2 ^ 32 - 1)))

/-- The number fits in 32 bits, or its low 32 bits are those of the largest cap. -/
def Kept (n : Int) : Prop := n < 2 ^ 32 ∨ n.toNat % 2 ^ 32 = 2 ^ 32 - 1

/-- Keeping the low bits gives the cap that is asked for exactly where no bit that counts
is lost. -/
theorem lowBits_eq_capFor_iff (n : Int) :
    (if n < 0 then none else some (UInt32.ofNat n.toNat)) = capFor n ↔ Kept n := by
  unfold capFor Kept
  by_cases hneg : n < 0
  · rw [if_pos hneg, if_pos hneg]
    exact ⟨fun _ => .inl (by omega), fun _ => rfl⟩
  · rw [if_neg hneg, if_neg hneg, Option.some.injEq, ← UInt32.toNat_inj, UInt32.toNat_ofNat',
      UInt32.toNat_ofNat']
    omega

/-- What the environment's number becomes. -/
theorem maxStart_of_env {env : EnvSnapshot} {n : Int}
    (h : (env.getStr "AUTOSSH_MAXSTART").bind parseI64 = some n) :
    (PollClock.resolveFromEnv env).maxStart =
      if n < 0 then none else some (UInt32.ofNat n.toNat) := by
  rw [resolveFromEnv_eq]
  simp only [h, Option.bind_some]

/-- What the flag's number becomes. -/
theorem maxStart_of_flag {host : DaemonHost} {env : EnvSnapshot} {cli : Cli} {s : SshSupervisor}
    {n : Int64} (h : runDefault host env (.ok cli) = .run s) (hn : cli.maxStart = some n) :
    s.maxStart = if n.toInt < 0 then none else some (UInt32.ofNat n.toInt.toNat) := by
  have hclock : s.maxStart = s.clock.maxStart := rfl
  rw [hclock, (runDefault_builtFrom h).clock, resolveFromEnvAndFlags_eq]
  simp only [Cli.clockFlags, hn, Option.map_some, Option.getD_some, Int64.lt_iff_toInt_lt]
  rfl

/-- The supervisor with another cap. -/
def Supervisor.withCap (self : Supervisor) (limit : Option UInt32) : Supervisor :=
  { self with clock := { self.clock with maxStart := limit } }

/-- When the supervisor gives up. -/
theorem Supervisor.giveUp_iff (self : Supervisor) (status : ExitStatus) (lifetime : Duration)
    (attempts : UInt32) :
    (self.handleChildExit status lifetime).1 = .exit (.maxStartReached attempts) ↔
      (self.oneShot = false ∧ status.success = false ∧ lifetime < self.clock.gateTime ∧
        attempts = saturatingAddU32 self.retryCount 1) ∧
      ∃ cap, self.clock.maxStart = some cap ∧ cap ≤ attempts := by
  constructor
  · intro h
    have hdecides := self.handleChildExit_decides status lifetime
    rw [h] at hdecides
    generalize (self.handleChildExit status lifetime).2 = next at hdecides
    cases hdecides with
    | capped cap hone hfail hshort hmax hle => exact ⟨⟨hone, hfail, hshort, rfl⟩, cap, hmax, hle⟩
  · rintro ⟨⟨hone, hfail, hshort, rfl⟩, cap, hmax, hle⟩
    have hgate : ¬lifetime ≥ self.clock.gateTime := Nat.not_le_of_gt hshort
    simp only [Supervisor.handleChildExit, hone, hfail, hmax, hgate, if_false, Bool.false_and,
      Bool.false_eq_true, if_pos hle]

/-- Where a larger cap gives up, a smaller one does. -/
theorem Supervisor.giveUp_of_le (self : Supervisor) (status : ExitStatus) (lifetime : Duration)
    {k k' attempts : UInt32} (hle : k ≤ k')
    (h : ((self.withCap (some k')).handleChildExit status lifetime).1 =
      .exit (.maxStartReached attempts)) :
    ((self.withCap (some k)).handleChildExit status lifetime).1 =
      .exit (.maxStartReached attempts) := by
  obtain ⟨hshort, cap, hcap, hcount⟩ := (Supervisor.giveUp_iff _ _ _ _).mp h
  obtain rfl := Option.some.inj hcap
  exact (Supervisor.giveUp_iff _ _ _ _).mpr ⟨hshort, k, rfl, UInt32.le_trans hle hcount⟩

/-- Larger numbers ask for larger caps. -/
theorem capFor_mono {n n' : Int} (hn : 0 ≤ n) (hle : n ≤ n') :
    ∃ k k', capFor n = some k ∧ capFor n' = some k' ∧ k ≤ k' := by
  refine ⟨_, _, if_neg (by omega), if_neg (by omega), ?_⟩
  rw [UInt32.le_iff_toNat_le, UInt32.toNat_ofNat', UInt32.toNat_ofNat']
  omega

/-- A larger cap that is asked for gives up no sooner. -/
theorem giveUp_of_capFor_le {n n' : Int} (hn : 0 ≤ n) (hle : n ≤ n') (self : Supervisor)
    (status : ExitStatus) (lifetime : Duration) (attempts : UInt32)
    (h : ((self.withCap (capFor n')).handleChildExit status lifetime).1 =
      .exit (.maxStartReached attempts)) :
    ((self.withCap (capFor n)).handleChildExit status lifetime).1 =
      .exit (.maxStartReached attempts) := by
  obtain ⟨k, k', hk, hk', hkle⟩ := capFor_mono hn hle
  rw [hk'] at h
  rw [hk]
  exact self.giveUp_of_le status lifetime hkle h

/-- On both paths the cap is the one asked for if and only if the number fits in 32 bits or
its low 32 bits are all ones; and the caps asked for grow with the number, so that a larger
one gives up no sooner. -/
theorem maxStart_kept_iff (env : EnvSnapshot) :
    (∀ n, (env.getStr "AUTOSSH_MAXSTART").bind parseI64 = some n →
      ((PollClock.resolveFromEnv env).maxStart = capFor n ↔ Kept n)) ∧
    (∀ host cli s n, runDefault host env (.ok cli) = .run s → cli.maxStart = some n →
      (s.maxStart = capFor n.toInt ↔ Kept n.toInt)) ∧
    ∀ n n', 0 ≤ n → n ≤ n' →
      (∃ k k', capFor n = some k ∧ capFor n' = some k' ∧ k ≤ k') ∧
      ∀ (self : Supervisor) status lifetime attempts,
        ((self.withCap (capFor n')).handleChildExit status lifetime).1 =
          .exit (.maxStartReached attempts) →
        ((self.withCap (capFor n)).handleChildExit status lifetime).1 =
          .exit (.maxStartReached attempts) := by
  refine ⟨fun n h => ?_, fun host cli s n h hn => ?_, fun n n' hn hle =>
    ⟨capFor_mono hn hle, giveUp_of_capFor_le hn hle⟩⟩
  · rw [maxStart_of_env h, lowBits_eq_capFor_iff]
  · rw [maxStart_of_flag h hn, lowBits_eq_capFor_iff]

/-- The environment with one variable set. -/
def EnvSnapshot.withMaxStart (value : String) : EnvSnapshot :=
  ⟨fun key => if key = "AUTOSSH_MAXSTART" then some (.utf8 value) else none⟩

/-- The sentinel and the largest cap. -/
theorem maxStart_kept_iff_largest :
    (PollClock.resolveFromEnv (.withMaxStart "4294967295")).maxStart = capFor 4294967295 :=
  ((maxStart_kept_iff (.withMaxStart "4294967295")).1 4294967295 (by decide +kernel)).mpr
    (.inl (by decide))

/-- A cap of 2³² becomes zero on both paths, and the first short failure ends the run. -/
theorem maxStart_wraps :
    ((EnvSnapshot.withMaxStart "4294967296").getStr "AUTOSSH_MAXSTART").bind parseI64 =
        some 4294967296 ∧
      (PollClock.resolveFromEnv (.withMaxStart "4294967296")).maxStart = some 0 ∧
      capFor 4294967296 = some 4294967295 ∧
      Cli.clockFlags { maxStart := some 4294967296 } = { maxStart := some (some 0) } := by
  decide +kernel

end RustyAutossh
