import RustyAutossh.Correctness.Boundary
import RustyAutossh.Source.Main

/-!
# The activation ladder

The last of the two toggles decides the mode, without a toggle the variable can make it
strict, and without the variable the name of the program can: `autossh`, or `autossh.exe`.
The code cuts whatever extension the name has, and `run` cuts its arguments without looking
whether there is an `argv[0]` in front of them.
-/

namespace RustyAutossh

/-- One of the two toggles is among the arguments. -/
def Toggled (args : List OsString) : Prop :=
  .utf8 "--strict" ∈ args ∨ .utf8 "--no-strict" ∈ args

instance (args : List OsString) : Decidable (Toggled args) :=
  inferInstanceAs (Decidable (_ ∨ _))

/-- The last toggle among the arguments is `--strict`. -/
def LastIsStrict (args : List OsString) : Prop :=
  ∃ before after, args = before ++ .utf8 "--strict" :: after ∧ ¬Toggled after

/-- `RUSTY_AUTOSSH_STRICT`, trimmed and lower-cased, says yes. -/
def VariableActivates (env : EnvSnapshot) : Prop :=
  ∃ s, env.vars "RUSTY_AUTOSSH_STRICT" = some (.utf8 s) ∧
    toAsciiLowercase (trim s) ∈ ["1", "true", "yes"]

/-- The basename is `autossh` or `autossh.exe`. -/
def NamedAutossh (target : Target) (argv0 : OsString) : Prop :=
  fileName target argv0 = some (intoBytes "autossh") ∨
    fileName target argv0 = some (intoBytes "autossh.exe")

instance (target : Target) (argv0 : OsString) : Decidable (NamedAutossh target argv0) :=
  inferInstanceAs (Decidable (_ ∨ _))

/-- The ladder as it is documented: what activates the strict mode. -/
def Activated (target : Target) (args : List OsString) (env : EnvSnapshot) (argv0 : OsString) :
    Prop :=
  LastIsStrict args ∨ ¬Toggled args ∧ VariableActivates env ∨
    ¬Toggled args ∧ ¬VariableActivates env ∧ NamedAutossh target argv0

/-- A process is dispatched, and in the mode of the ladder. -/
def KeepsLadder (host : DaemonHost) (env : EnvSnapshot)
    (tryParse : List OsString → Except UInt8 Cli) (argv : List OsString) : Prop :=
  (run host env tryParse argv).isSome ∧ ∃ mode, runMode host.target env argv = some mode ∧
    (mode = .strict ↔ Activated host.target argv.tail env (argv0 argv))

/-- The basename is `autossh` with an extension other than `exe`. -/
def OddlyNamed (target : Target) (argv0 : OsString) : Prop :=
  ∃ ext, 46 ∉ ext ∧ ext ≠ intoBytes "exe" ∧
    fileName target argv0 = some (intoBytes "autossh" ++ 46 :: ext)

theorem toggle_eq_strict {arg : OsString} :
    toggle arg = some .strict ↔ arg = .utf8 "--strict" := by
  unfold toggle
  cases arg with
  | other bytes => simp [OsString.toStr]
  | utf8 s => simp [OsString.toStr]

theorem toggle_eq_default {arg : OsString} :
    toggle arg = some .default ↔ arg = .utf8 "--no-strict" := by
  unfold toggle
  cases arg with
  | other bytes => simp [OsString.toStr]
  | utf8 s =>
    by_cases hs : s = "--strict"
    · simp [OsString.toStr, hs]
    · simp [OsString.toStr, hs]

/-- Without a toggle no argument asks for anything. -/
theorem not_toggled {args : List OsString} : ¬Toggled args ↔ ∀ arg ∈ args, toggle arg = none := by
  constructor
  · intro h arg harg
    cases hmode : toggle arg with
    | none => rfl
    | some mode =>
      cases mode with
      | strict => exact absurd (.inl (toggle_eq_strict.mp hmode ▸ harg)) h
      | default => exact absurd (.inr (toggle_eq_default.mp hmode ▸ harg)) h
  · rintro h (hmem | hmem)
    · exact absurd ((h _ hmem).symm.trans (toggle_eq_strict.mpr rfl)) (by simp)
    · exact absurd ((h _ hmem).symm.trans (toggle_eq_default.mpr rfl)) (by simp)

theorem lastIsStrict_iff {args : List OsString} :
    LastIsStrict args ↔ flagDecision args = some .strict := by
  unfold LastIsStrict
  simp [flagDecision_eq_some, LastToggle, toggle_eq_strict, not_toggled]

theorem not_toggled_iff {args : List OsString} : ¬Toggled args ↔ flagDecision args = none := by
  rw [not_toggled, flagDecision_eq_none]

theorem variableActivates_iff {env : EnvSnapshot} :
    VariableActivates env ↔ envActivates env = true := by
  unfold VariableActivates envActivates EnvSnapshot.getStr
  cases hvar : env.vars "RUSTY_AUTOSSH_STRICT" with
  | none => simp
  | some value =>
    cases value with
    | other bytes => simp [OsString.toStr]
    | utf8 s => simp [OsString.toStr]

instance (args : List OsString) : Decidable (LastIsStrict args) :=
  decidable_of_iff _ lastIsStrict_iff.symm

instance (env : EnvSnapshot) : Decidable (VariableActivates env) :=
  decidable_of_iff _ variableActivates_iff.symm

instance (target : Target) (args : List OsString) (env : EnvSnapshot) (argv0 : OsString) :
    Decidable (Activated target args env argv0) :=
  inferInstanceAs (Decidable (_ ∨ _ ∧ _ ∨ _ ∧ _ ∧ _))

theorem intoBytes_autossh_exe :
    intoBytes "autossh.exe" = intoBytes "autossh" ++ 46 :: intoBytes "exe" := by decide +kernel

/-- The code takes the name for `autossh` whatever its extension. -/
theorem argv0Activates_iff {target : Target} {argv0 : OsString} :
    argv0Activates target argv0 = true ↔ NamedAutossh target argv0 ∨ OddlyNamed target argv0 := by
  have hdot : 46 ∉ intoBytes "exe" := by decide +kernel
  rw [argv0Activates, beq_iff_eq, fileStem_eq_some_iff (by decide +kernel) (by decide +kernel)]
  constructor
  · rintro (hname | ⟨ext, hext, hname⟩)
    · exact .inl (.inl hname)
    · by_cases h : ext = intoBytes "exe"
      · exact .inl (.inr (by rw [hname, h, intoBytes_autossh_exe]))
      · exact .inr ⟨ext, hext, h, hname⟩
  · rintro ((hname | hname) | ⟨ext, hext, -, hname⟩)
    · exact .inl hname
    · exact .inr ⟨intoBytes "exe", hdot, intoBytes_autossh_exe ▸ hname⟩
    · exact .inr ⟨ext, hext, hname⟩

/-- No basename is both. -/
theorem OddlyNamed.not_named {target : Target} {argv0 : OsString}
    (h : OddlyNamed target argv0) : ¬NamedAutossh target argv0 := by
  obtain ⟨ext, -, hext, hname⟩ := h
  rintro (hplain | hplain)
  · have heq : intoBytes "autossh" ++ 46 :: ext = intoBytes "autossh" :=
      Option.some.inj (hname.symm.trans hplain)
    simp at heq
  · have heq : intoBytes "autossh" ++ 46 :: ext = intoBytes "autossh" ++ 46 :: intoBytes "exe" :=
      intoBytes_autossh_exe ▸ Option.some.inj (hname.symm.trans hplain)
    exact hext (List.cons.inj (List.append_cancel_left heq)).2

/-- The ladder of the code. -/
theorem resolve_eq_strict_iff {target : Target} {args : List OsString} {env : EnvSnapshot}
    {argv0 : OsString} : resolve target args env argv0 = .strict ↔
      LastIsStrict args ∨ ¬Toggled args ∧
        (VariableActivates env ∨ NamedAutossh target argv0 ∨ OddlyNamed target argv0) := by
  rw [resolve_eq, lastIsStrict_iff, not_toggled_iff, variableActivates_iff,
    ← argv0Activates_iff]
  cases flagDecision args with
  | none => by_cases h : envActivates env = true ∨ argv0Activates target argv0 = true <;> simp [h]
  | some mode => simp

/-- The code's ladder is the documented one unless the name alone decides and has an
extension other than `exe`. -/
theorem resolve_activated_iff {target : Target} {args : List OsString} {env : EnvSnapshot}
    {argv0 : OsString} :
    (resolve target args env argv0 = .strict ↔ Activated target args env argv0) ↔
      Toggled args ∨ VariableActivates env ∨ ¬OddlyNamed target argv0 := by
  rw [resolve_eq_strict_iff]
  unfold Activated
  by_cases hodd : OddlyNamed target argv0
  · have hnamed : ¬NamedAutossh target argv0 := hodd.not_named
    have hlast : LastIsStrict args → Toggled args := by
      rintro ⟨before, after, rfl, -⟩
      exact .inl (by simp)
    simp only [hodd, hnamed]
    tauto
  · simp only [hodd]
    tauto

@[simp] theorem runMode_nil (target : Target) (env : EnvSnapshot) :
    runMode target env [] = none := rfl

@[simp] theorem runMode_cons (target : Target) (env : EnvSnapshot) (first : OsString)
    (args : List OsString) :
    runMode target env (first :: args) = some (resolve target args env first) := by
  simp [runMode, sliceFrom, argv0]

/-- Behind an `argv[0]` there are arguments, and `run` goes on to the dispatcher of the mode. -/
theorem run_cons (host : DaemonHost) (env : EnvSnapshot)
    (tryParse : List OsString → Except UInt8 Cli) (first : OsString) (args : List OsString) :
    run host env tryParse (first :: args) = some (if resolve host.target args env first = .strict
      then runStrict host env args else runDefault host env (tryParse (first :: args))) := by
  rw [run, runMode_cons]
  cases resolve host.target args env first with
  | default => simp
  | strict => simp [sliceFrom]

/-- A process is dispatched by the documented ladder exactly if it has an `argv[0]`, and
this name has no other extension than `exe` or does not have to decide. -/
theorem keepsLadder_iff (host : DaemonHost) (env : EnvSnapshot)
    (tryParse : List OsString → Except UInt8 Cli) (argv : List OsString) :
    KeepsLadder host env tryParse argv ↔ argv ≠ [] ∧
      (Toggled argv.tail ∨ VariableActivates env ∨ ¬OddlyNamed host.target (argv0 argv)) := by
  unfold KeepsLadder
  cases argv with
  | nil => simp
  | cons first args =>
    rw [← resolve_activated_iff]
    simp [run_cons, argv0]

/-- Without an `argv[0]` there is a panic, and the name `autossh.sh` activates the strict mode. -/
theorem ladder_missed :
    (∀ host tryParse, run host ⟨fun _ => none⟩ tryParse [] = none ∧
      ¬KeepsLadder host ⟨fun _ => none⟩ tryParse []) ∧
    (∀ target, runMode target ⟨fun _ => none⟩ [.utf8 "autossh.sh"] = some .strict ∧
      ¬Activated target [] ⟨fun _ => none⟩ (.utf8 "autossh.sh")) ∧
    ∀ host tryParse, ¬KeepsLadder host ⟨fun _ => none⟩ tryParse [.utf8 "autossh.sh"] := by
  have hmode : ∀ target, runMode target ⟨fun _ => none⟩ [.utf8 "autossh.sh"] = some .strict := by
    rintro (_ | _) <;> decide +kernel
  have hactivated : ∀ target, ¬Activated target [] ⟨fun _ => none⟩ (.utf8 "autossh.sh") := by
    rintro (_ | _) <;> decide +kernel
  refine ⟨fun host tryParse => ⟨rfl, ?_⟩, fun target => ⟨hmode target, hactivated target⟩,
    fun host tryParse => ?_⟩
  · rintro ⟨hsome, -⟩
    cases hsome
  · rintro ⟨-, mode, hrun, hiff⟩
    obtain rfl := Option.some.inj ((hmode host.target).symm.trans hrun)
    exact hactivated host.target (hiff.mp rfl)

end RustyAutossh
