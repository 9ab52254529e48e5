import RustyAutossh.Source.Clock
import RustyAutossh.Source.Spawner

/-!
# Flags against their environment variables

A flag is compared with its variable set to the flag's decimal text. The two give
one clock but in two cases: an explicit lifetime of zero, and a poll interval
given as a flag, which the first poll does not follow.
-/

namespace RustyAutossh

/-- The whole seconds of a duration, in decimal. -/
def secsText (d : Duration) : String := toString (d / 1000000000)

/-- The text of a restart limit, `-1` standing for none. -/
def maxStartText (limit : Option UInt32) : String :=
  match limit with
  | some n => toString n.toNat
  | none => "-1"

/-- The text of a lifetime, `0` standing for none. -/
def maxLifetimeText (lifetime : Option Duration) : String :=
  match lifetime with
  | some d => secsText d
  | none => "0"

/-- The text of the flag that overrides a variable, where it is supplied. -/
def ClockFlags.text (flags : ClockFlags) (key : String) : Option String :=
  if key = "AUTOSSH_POLL" then flags.poll.map secsText
  else if key = "AUTOSSH_FIRST_POLL" then flags.firstPoll.map secsText
  else if key = "AUTOSSH_GATETIME" then flags.gateTime.map secsText
  else if key = "AUTOSSH_MAXSTART" then flags.maxStart.map maxStartText
  else if key = "AUTOSSH_MAXLIFETIME" then flags.maxLifetime.map maxLifetimeText
  else none

/-- The environment in which each supplied flag is written over its variable. -/
def EnvSnapshot.overriddenBy (env : EnvSnapshot) (flags : ClockFlags) : EnvSnapshot where
  vars key := (flags.text key).elim (env.vars key) fun s => some (.utf8 s)

/-- A duration of whole seconds, of which a `Duration` holds a `u64`. -/
def Duration.WholeSecs (d : Duration) : Prop := ∃ n < 2 ^ 64, d = Duration.fromSecs n

/-- Every duration among the flags is one of whole seconds. -/
structure ClockFlags.WholeSecs (flags : ClockFlags) : Prop where
  poll : ∀ d, flags.poll = some d → d.WholeSecs
  firstPoll : ∀ d, flags.firstPoll = some d → d.WholeSecs
  gateTime : ∀ d, flags.gateTime = some d → d.WholeSecs
  maxLifetime : ∀ d, flags.maxLifetime = some (some d) → d.WholeSecs

/-- The poll interval that the environment alone gives. -/
def EnvSnapshot.pollSecs (env : EnvSnapshot) : Nat :=
  ((env.getStr "AUTOSSH_POLL").bind parseU64).getD defaultPollSecs

/-- No flag reaches a case the variables do not have: no lifetime flag is an explicit
zero, and a poll flag is the interval of the environment, or comes with a first poll of
its own, as a flag or as a variable that reads. -/
structure FlagsAgree (env : EnvSnapshot) (flags : ClockFlags) : Prop where
  maxLifetime : flags.maxLifetime ≠ some (some 0)
  poll : ∀ d, flags.poll = some d → flags.firstPoll = none →
    (env.getStr "AUTOSSH_FIRST_POLL").bind parseU64 = none → d = Duration.fromSecs env.pollSecs

/-- The decimal text of a number is a nonempty run of digits. -/
theorem parseDigits_toString (n : Nat) : parseDigits (toString n).toList = some n := by
  rw [Nat.toString_eq_repr, Nat.toList_repr]
  have hall : (Nat.toDigits 10 n).all Char.isDigit = true :=
    List.all_eq_true.mpr fun c hc => Nat.isDigit_of_mem_toDigits (by decide) (by decide) hc
  rw [parseDigits, if_pos ⟨Nat.toDigits_ne_nil, hall⟩, Nat.ofDigitChars_ten_toDigits]

/-- The decimal text of a number starts with a digit, so with no sign. -/
theorem toString_ne_sign (n : Nat) (rest : List Char) :
    (toString n).toList ≠ '+' :: rest ∧ (toString n).toList ≠ '-' :: rest := by
  have hdigit : ∀ c, (toString n).toList = c :: rest → c.isDigit = true := by
    intro c hc
    rw [Nat.toString_eq_repr, Nat.toList_repr] at hc
    exact Nat.isDigit_of_mem_toDigits (by decide) (by decide) (hc ▸ List.mem_cons_self)
  constructor
  · intro h
    exact absurd (hdigit _ h) (by decide)
  · intro h
    exact absurd (hdigit _ h) (by decide)

/-- `u64` text reads back. -/
theorem parseU64_toString {n : Nat} (h : n < 2 ^ 64) : parseU64 (toString n) = some n := by
  unfold parseU64
  split
  · rename_i rest heq
    exact absurd heq (toString_ne_sign n rest).1
  · simp only [parseDigits_toString, Option.filter_some, h, decide_true, if_true]

/-- Text of a nonnegative `i64` reads back. -/
theorem parseI64_toString {n : Nat} (h : n < 2 ^ 63) : parseI64 (toString n) = some (n : Int) := by
  unfold parseI64
  split
  · rename_i rest heq
    exact absurd heq (toString_ne_sign n rest).2
  · rename_i rest heq
    exact absurd heq (toString_ne_sign n rest).1
  · simp only [parseDigits_toString, Option.filter_some, h, decide_true, if_true, Option.map_some,
      Int.ofNat_eq_natCast]

/-- The text of whole seconds reads back as their number. -/
theorem parseU64_secsText {d : Duration} (h : d.WholeSecs) :
    parseU64 (secsText d) = some (d / 1000000000) := by
  obtain ⟨n, hn, rfl⟩ := h
  rw [secsText, Duration.fromSecs, Nat.mul_div_cancel _ (by decide)]
  exact parseU64_toString hn

/-- Whole seconds are the duration of their number. -/
theorem fromSecs_div {d : Duration} (h : d.WholeSecs) : Duration.fromSecs (d / 1000000000) = d := by
  obtain ⟨n, -, rfl⟩ := h
  simp [Duration.fromSecs]

/-- The text of a restart limit reads back. -/
theorem parseI64_maxStartText (limit : Option UInt32) :
    parseI64 (maxStartText limit) = some (limit.elim (-1) fun n => (n.toNat : Int)) := by
  cases limit with
  | none => decide +kernel
  | some n =>
    have hn : n.toNat < 2 ^ 63 := Nat.lt_trans n.toNat_lt (by decide)
    exact parseI64_toString hn

/-- The text of a lifetime reads back. -/
theorem parseU64_maxLifetimeText (lifetime : Option Duration)
    (h : ∀ d, lifetime = some d → d.WholeSecs) :
    parseU64 (maxLifetimeText lifetime) = some (lifetime.elim 0 (· / 1000000000)) := by
  cases lifetime with
  | none => decide +kernel
  | some d => exact parseU64_secsText (h d rfl)

/-- Reading an overridden variable gives the flag's text, or what it held before. -/
theorem EnvSnapshot.getStr_overriddenBy (env : EnvSnapshot) (flags : ClockFlags) (key : String) :
    (env.overriddenBy flags).getStr key = (flags.text key).or (env.getStr key) := by
  unfold EnvSnapshot.getStr EnvSnapshot.overriddenBy
  cases htext : flags.text key <;> simp [htext, OsString.toStr]

/-- A variable that a flag overrides reads as the flag. -/
theorem read_overridden {α β : Type} {env : EnvSnapshot} {flags : ClockFlags} {key : String}
    {flag : Option α} {text : α → String} {parse : String → Option β} {value : α → β}
    (hkey : flags.text key = flag.map text)
    (hread : ∀ a, flag = some a → parse (text a) = some (value a)) :
    ((env.overriddenBy flags).getStr key).bind parse =
      (flag.map value).or ((env.getStr key).bind parse) := by
  rw [EnvSnapshot.getStr_overriddenBy, hkey]
  cases flag with
  | none => simp
  | some a => simp [hread a rfl]

/-- Each field of the clock that the environment gives. -/
theorem resolveFromEnv_eq (env : EnvSnapshot) : PollClock.resolveFromEnv env =
    { poll := Duration.fromSecs env.pollSecs
      firstPoll := Duration.fromSecs
        (((env.getStr "AUTOSSH_FIRST_POLL").bind parseU64).getD env.pollSecs)
      gateTime := Duration.fromSecs
        (((env.getStr "AUTOSSH_GATETIME").bind parseU64).getD defaultGateTimeSecs)
      maxStart := ((env.getStr "AUTOSSH_MAXSTART").bind parseI64).bind fun n =>
        if n < 0 then none else some (UInt32.ofNat n.toNat)
      maxLifetime := ((env.getStr "AUTOSSH_MAXLIFETIME").bind parseU64).bind fun n =>
        if n = 0 then none else some (Duration.fromSecs n) } := by
  unfold PollClock.resolveFromEnv EnvSnapshot.pollSecs
  cases (env.getStr "AUTOSSH_POLL").bind parseU64 <;>
    cases (env.getStr "AUTOSSH_FIRST_POLL").bind parseU64 <;>
    cases (env.getStr "AUTOSSH_GATETIME").bind parseU64 <;>
    cases (env.getStr "AUTOSSH_MAXSTART").bind parseI64 <;>
    cases (env.getStr "AUTOSSH_MAXLIFETIME").bind parseU64 <;> rfl

/-- Each field of the clock that the environment and the flags give. -/
theorem resolveFromEnvAndFlags_eq (env : EnvSnapshot) (flags : ClockFlags) (dashF : Bool) :
    PollClock.resolveFromEnvAndFlags env flags dashF =
      { poll := flags.poll.getD (PollClock.resolveFromEnv env).poll
        firstPoll := flags.firstPoll.getD (PollClock.resolveFromEnv env).firstPoll
        gateTime := if dashF then 0
          else flags.gateTime.getD (PollClock.resolveFromEnv env).gateTime
        maxStart := flags.maxStart.getD (PollClock.resolveFromEnv env).maxStart
        maxLifetime := flags.maxLifetime.getD (PollClock.resolveFromEnv env).maxLifetime } := by
  unfold PollClock.resolveFromEnvAndFlags
  obtain ⟨poll, firstPoll, gateTime, maxStart, maxLifetime⟩ := flags
  cases poll <;> cases firstPoll <;> cases gateTime <;> cases maxStart <;>
    cases maxLifetime <;> cases dashF <;> rfl

/-- A duration read from its overridden variable is the flag's, or the one before. -/
theorem fromSecs_overridden {flag : Option Duration} {before : Option Nat} {default : Nat}
    (h : ∀ d, flag = some d → d.WholeSecs) :
    Duration.fromSecs (((flag.map (· / 1000000000)).or before).getD default) =
      flag.getD (Duration.fromSecs (before.getD default)) := by
  cases flag with
  | none => simp
  | some d => simp [fromSecs_div (h d rfl)]

/-- The poll interval after the override. -/
theorem pollSecs_overriddenBy {env : EnvSnapshot} {flags : ClockFlags} (h : flags.WholeSecs) :
    Duration.fromSecs (env.overriddenBy flags).pollSecs =
      flags.poll.getD (Duration.fromSecs env.pollSecs) := by
  unfold EnvSnapshot.pollSecs
  rw [read_overridden (by rfl) fun d hd => parseU64_secsText (h.poll d hd),
    fromSecs_overridden h.poll]

/-- The gate time after the override. -/
theorem gateTime_overriddenBy {env : EnvSnapshot} {flags : ClockFlags} (h : flags.WholeSecs) :
    (PollClock.resolveFromEnv (env.overriddenBy flags)).gateTime =
      flags.gateTime.getD (PollClock.resolveFromEnv env).gateTime := by
  rw [resolveFromEnv_eq, resolveFromEnv_eq]
  dsimp only
  rw [read_overridden (by rfl) fun d hd => parseU64_secsText (h.gateTime d hd),
    fromSecs_overridden h.gateTime]

/-- The restart limit after the override. -/
theorem maxStart_overriddenBy (env : EnvSnapshot) (flags : ClockFlags) :
    (PollClock.resolveFromEnv (env.overriddenBy flags)).maxStart =
      flags.maxStart.getD (PollClock.resolveFromEnv env).maxStart := by
  rw [resolveFromEnv_eq, resolveFromEnv_eq]
  dsimp only
  rw [read_overridden (by rfl) fun limit _ => parseI64_maxStartText limit]
  cases flags.maxStart with
  | none => simp
  | some limit => cases limit <;> simp

/-- The lifetime after the override, which cannot say zero. -/
theorem maxLifetime_overriddenBy {env : EnvSnapshot} {flags : ClockFlags} (h : flags.WholeSecs) :
    (PollClock.resolveFromEnv (env.overriddenBy flags)).maxLifetime =
      flags.maxLifetime.elim (PollClock.resolveFromEnv env).maxLifetime (·.filter (· ≠ 0)) := by
  rw [resolveFromEnv_eq, resolveFromEnv_eq]
  dsimp only
  rw [read_overridden (by rfl) fun l hl =>
    parseU64_maxLifetimeText l fun d hd => h.maxLifetime d (hd ▸ hl)]
  cases hflag : flags.maxLifetime with
  | none => simp
  | some lifetime =>
    cases lifetime with
    | none => simp
    | some d =>
      have hdiv := fromSecs_div (h.maxLifetime d hflag)
      simp only [Option.map_some, Option.elim_some, Option.some_or, Option.bind_some]
      by_cases hz : d / 1000000000 = 0
      · have hd : d = 0 := by
          rw [← hdiv, hz, Duration.fromSecs, Nat.zero_mul]
        rw [if_pos hz, hd]
        rfl
      · have hd : d ≠ 0 := by
          rintro rfl
          exact hz (Nat.zero_div _)
        rw [if_neg hz, hdiv, Option.filter_some_pos (by simpa using hd)]

/-- The first poll after the override, which follows the poll flag. -/
theorem firstPoll_overriddenBy {env : EnvSnapshot} {flags : ClockFlags} (h : flags.WholeSecs) :
    (PollClock.resolveFromEnv (env.overriddenBy flags)).firstPoll =
      flags.firstPoll.getD
        ((((env.getStr "AUTOSSH_FIRST_POLL").bind parseU64).map Duration.fromSecs).getD
          (flags.poll.getD (Duration.fromSecs env.pollSecs))) := by
  rw [resolveFromEnv_eq]
  dsimp only
  rw [read_overridden (by rfl) fun d hd => parseU64_secsText (h.firstPoll d hd),
    fromSecs_overridden h.firstPoll]
  cases (env.getStr "AUTOSSH_FIRST_POLL").bind parseU64 with
  | none => simp [pollSecs_overriddenBy h]
  | some n => simp

/-- The clock of a set of flags is the clock of their variables exactly when no flag
reaches a case the variables do not have. -/
theorem resolve_flags_eq_env_iff (env : EnvSnapshot) (flags : ClockFlags) (dashF : Bool)
    (hsecs : flags.WholeSecs) :
    PollClock.resolveFromEnvAndFlags env flags dashF =
        PollClock.resolveFromEnvAndFlags (env.overriddenBy flags) {} dashF ↔
      FlagsAgree env flags := by
  rw [resolveFromEnvAndFlags_eq, resolveFromEnvAndFlags_eq, PollClock.mk.injEq]
  simp only [Option.getD_none]
  rw [firstPoll_overriddenBy hsecs, gateTime_overriddenBy hsecs, maxStart_overriddenBy,
    maxLifetime_overriddenBy hsecs]
  have hpoll : (PollClock.resolveFromEnv (env.overriddenBy flags)).poll =
      flags.poll.getD (PollClock.resolveFromEnv env).poll := by
    rw [resolveFromEnv_eq, resolveFromEnv_eq]
    exact pollSecs_overriddenBy hsecs
  have hfirst : (PollClock.resolveFromEnv env).firstPoll =
      (((env.getStr "AUTOSSH_FIRST_POLL").bind parseU64).map Duration.fromSecs).getD
        (Duration.fromSecs env.pollSecs) := by
    rw [resolveFromEnv_eq]
    cases (env.getStr "AUTOSSH_FIRST_POLL").bind parseU64 <;> rfl
  rw [hpoll, hfirst]
  constructor
  · rintro ⟨-, hf, -, -, hl⟩
    constructor
    · intro h0
      rw [h0] at hl
      cases hl
    · intro d hd hnone hread
      rw [hd, hnone, hread] at hf
      exact hf.symm
  · rintro ⟨hlifetime, hagree⟩
    have hl : flags.maxLifetime.getD (PollClock.resolveFromEnv env).maxLifetime =
        flags.maxLifetime.elim (PollClock.resolveFromEnv env).maxLifetime (·.filter (· ≠ 0)) := by
      cases hflag : flags.maxLifetime with
      | none => rfl
      | some lifetime =>
        cases lifetime with
        | none => rfl
        | some d =>
          have hd : d ≠ 0 := by
            rintro rfl
            exact hlifetime hflag
          simp [Option.filter, hd]
    refine ⟨rfl, ?_, rfl, rfl, hl⟩
    cases hflag : flags.firstPoll with
    | some d => rfl
    | none =>
      cases hread : (env.getStr "AUTOSSH_FIRST_POLL").bind parseU64 with
      | some n => rfl
      | none =>
        cases hd : flags.poll with
        | none => rfl
        | some d => exact (hagree d hd hflag hread).symm

/-- A gate time, an unlimited number of starts and a malformed first poll agree. -/
theorem resolve_flags_eq_env_gateTime :
    PollClock.resolveFromEnvAndFlags
        ⟨fun key => if key = "AUTOSSH_FIRST_POLL" then some (.utf8 "soon") else none⟩
        { gateTime := some (Duration.fromSecs 5), maxStart := some none } false =
      PollClock.resolveFromEnvAndFlags
        (EnvSnapshot.overriddenBy
          ⟨fun key => if key = "AUTOSSH_FIRST_POLL" then some (.utf8 "soon") else none⟩
          { gateTime := some (Duration.fromSecs 5), maxStart := some none }) {} false := by
  refine (resolve_flags_eq_env_iff _ _ _ ⟨?_, ?_, ?_, ?_⟩).mpr ⟨?_, ?_⟩
  · intro d hd
    cases hd
  · intro d hd
    cases hd
  · rintro d ⟨⟩
    exact ⟨5, by decide, rfl⟩
  · intro d hd
    cases hd
  · intro h
    cases h
  · intro d hd
    cases hd

/-- A poll flag of one minute alone: the first poll stays at the ten minutes of the
default, where the variable set to sixty takes the first poll along. -/
theorem resolve_flags_first_poll :
    PollClock.resolveFromEnvAndFlags ⟨fun _ => none⟩ { poll := some (Duration.fromSecs 60) } false ≠
      PollClock.resolveFromEnvAndFlags
        (EnvSnapshot.overriddenBy ⟨fun _ => none⟩ { poll := some (Duration.fromSecs 60) }) {}
        false := by
  decide +kernel

end RustyAutossh
