import RustyAutossh.Source.Clock
import RustyAutossh.Source.Path

/-!
# Choosing the compatibility mode

`resolve` looks for the two toggles among the arguments, then at the environment,
then at the name under which the program was started.
-/

namespace RustyAutossh

/-- `CompatibilityMode`. -/
inductive CompatibilityMode where
  | default
  | strict
  deriving DecidableEq, Repr

/-- `char::is_whitespace`, the Unicode property `White_Space`. -/
def isWhitespace (c : Char) : Bool :=
  (0x9 ≤ c.toNat && c.toNat ≤ 0xD) || (0x2000 ≤ c.toNat && c.toNat ≤ 0x200A) ||
    [0x20, 0x85, 0xA0, 0x1680, 0x2028, 0x2029, 0x202F, 0x205F, 0x3000].contains c.toNat

/-- `str::trim`. -/
def trim (s : String) : String :=
  String.ofList ((s.toList.dropWhile isWhitespace).reverse.dropWhile isWhitespace).reverse

/-- `str::to_ascii_lowercase`; `Char.toLower` changes ASCII letters only. -/
def toAsciiLowercase (s : String) : String := String.ofList (s.toList.map Char.toLower)

/-- What one argument asks for, if it is a toggle. -/
def toggle (arg : OsString) : Option CompatibilityMode :=
  match arg.toStr with
  | some s =>
    if s = "--strict" then some .strict
    else if s = "--no-strict" then some .default
    else none
  | none => none

/-- The scan of the arguments: each toggle replaces the decision of those before it. -/
def flagDecision (args : List OsString) : Option CompatibilityMode :=
  args.foldl (fun decision arg => (toggle arg).or decision) none

/-- Whether `RUSTY_AUTOSSH_STRICT` activates strict mode. -/
def envActivates (env : EnvSnapshot) : Bool :=
  match env.getStr "RUSTY_AUTOSSH_STRICT" with
  | some s => ["1", "true", "yes"].contains (toAsciiLowercase (trim s))
  | none => false

/-- Whether the program was started under the name `autossh`. A stem reads as a string
exactly where its bytes are those of the string. -/
def argv0Activates (target : Target) (argv0 : OsString) : Bool :=
  fileStem target argv0 == some (intoBytes "autossh")

/-- `mode::resolve`. -/
def resolve (target : Target) (args : List OsString) (env : EnvSnapshot) (argv0 : OsString) :
    CompatibilityMode :=
  match flagDecision args with
  | some mode => mode
  | none =>
    if envActivates env then .strict
    else if argv0Activates target argv0 then .strict
    else .default

example : resolve .windows [] ⟨fun _ => none⟩ (.utf8 "C:\\bin\\autossh.exe") = .strict := by
  decide +kernel

example : resolve .unix [.utf8 "--strict", .utf8 "--no-strict"] ⟨fun _ => none⟩
    (.utf8 "autossh") = .default := by decide +kernel

/-- The decision is the last toggle of the arguments. -/
theorem flagDecision_eq (args : List OsString) :
    flagDecision args = (args.filterMap toggle).getLast? := by
  have hfold : ∀ (decision : Option CompatibilityMode),
      args.foldl (fun decision arg => (toggle arg).or decision) decision =
        (args.filterMap toggle).getLast?.or decision := by
    induction args with
    | nil => simp
    | cons arg args ih =>
      intro decision
      rw [List.foldl_cons, ih]
      cases ht : toggle arg with
      | none => simp [ht]
      | some mode =>
        simp only [List.filterMap_cons, ht, List.getLast?_cons, Option.some_or]
        cases (args.filterMap toggle).getLast? <;> simp
  rw [flagDecision, hfold, Option.or_none]

/-- Only the toggles themselves are toggles: the separator and bare tokens are none. -/
theorem toggle_eq_none {arg : OsString} (h : ∀ s, arg = .utf8 s → s.toList.head? ≠ some '-' ∨
    s = "--") : toggle arg = none := by
  unfold toggle
  cases arg with
  | other bytes => simp [OsString.toStr]
  | utf8 s =>
    simp only [OsString.toStr]
    rcases h s rfl with hs | rfl
    · have h1 : s ≠ "--strict" := by
        rintro rfl
        exact hs (by decide +kernel)
      have h2 : s ≠ "--no-strict" := by
        rintro rfl
        exact hs (by decide +kernel)
      simp [h1, h2]
    · decide +kernel

end RustyAutossh
