import RustyAutossh.Correctness.Lossless
import RustyAutossh.Correctness.Maximal

/-!
# Two splitters and one boundary

The splitter of the default mode stops at the first token it does not know. The strict
parser stops only at a token that is not dashed, and refuses an unknown dashed one. So the
two agree where a separator marks the boundary, or where what follows it starts with a
token that is not dashed.
-/

namespace RustyAutossh

/-- The boundary in the arguments is a separator. -/
def HasSeparator (argv : List String) : Prop :=
  argv = (splitAutosshArgs argv).1 ++ "--" :: (splitAutosshArgs argv).2

/-- The strict parser gives ssh what the splitter gives it. -/
def SplitsAlike (argv : List String) : Prop :=
  ∃ a, parseArgv (argv.map .utf8) = .ok a ∧ a.sshArgs = (splitAutosshArgs argv).2

/-- The token is no subcommand, no long option and no excluded short one. -/
def NotExcluded (tok : String) : Prop :=
  tok ≠ "completions" ∧ ¬"--".toList <+: tok.toList ∧
    ∀ c ∈ excludedShort, ¬['-', c] <+: tok.toList

/-- Where the splitter finds complete options, the strict parser gives ssh the same
arguments if and only if there is a separator, or these arguments start, behind lone
dashes, with a token that is not dashed. -/
theorem splitsAlike_iff {argv : List String} {units : List StrictUnit}
    (hown : (splitAutosshArgs argv).1 = units.flatMap StrictUnit.tokens) :
    SplitsAlike argv ↔ HasSeparator argv ∨ Continues (splitAutosshArgs argv).2 := by
  constructor
  · rintro ⟨a, hok, hssh⟩
    rcases splitAutosshArgs_cases argv with hsplit | hsplit
    · refine .inr ?_
      rw [hsplit, hown] at hok
      have hrest := (parseArgv_commandLine units (splitAutosshArgs argv).2).symm.trans hok
      refine continues_of_length hrest ?_
      rw [hssh]
      exact (Nat.zero_add _).symm
    · exact .inl hsplit
  · intro h
    rcases splitAutosshArgs_cases argv with hsplit | hsplit
    · rcases h with hsep | hcontinues
      · exact absurd (congrArg List.length (hsplit.symm.trans hsep)) (by simp)
      · refine ⟨denote units (splitAutosshArgs argv).2, ?_, rfl⟩
        have hargv : argv.map OsString.utf8 = commandLine units (splitAutosshArgs argv).2 := by
          rw [commandLine, ← hown, ← hsplit]
        rw [hargv, parseArgv_commandLine, parseArgvFrom_continues hcontinues]
        rfl
    · refine ⟨denote units (splitAutosshArgs argv).2, ?_, rfl⟩
      have hargv : argv.map OsString.utf8 =
          commandLine units ("--" :: (splitAutosshArgs argv).2) := by
        rw [commandLine, ← hown, ← hsplit]
      rw [hargv, parseArgv_commandLine, parseArgvFrom_separator]
      rfl

/-- A host behind a monitor value. -/
theorem splitsAlike_iff_host :
    SplitsAlike ["-M", "0", "host", "-L"] := by
  have hown : (splitAutosshArgs ["-M", "0", "host", "-L"]).1 =
      [StrictUnit.monitorNext "0"].flatMap StrictUnit.tokens := by decide +kernel
  have hssh : (splitAutosshArgs ["-M", "0", "host", "-L"]).2 = ["host", "-L"] := by decide +kernel
  refine (splitsAlike_iff hown).mpr (.inr ?_)
  rw [hssh]
  exact (continues_of_ne (by decide)).mpr ⟨by decide, by decide⟩

/-- `-L` is not excluded and starts ssh's arguments for the splitter, but the strict parser
refuses it. -/
theorem splitsAlike_fails_for_forward :
    splitAutosshArgs ["-L", "8080:localhost:80", "host"] =
        ([].flatMap StrictUnit.tokens, ["-L", "8080:localhost:80", "host"]) ∧
      NotExcluded "-L" ∧
      parseArgv (["-L", "8080:localhost:80", "host"].map .utf8) =
        .error (.unknownShort "autossh: invalid option -- 'L'") ∧
      ¬SplitsAlike ["-L", "8080:localhost:80", "host"] := by
  have hrefused : parseArgv (["-L", "8080:localhost:80", "host"].map .utf8) =
      .error (.unknownShort "autossh: invalid option -- 'L'") := by rfl
  refine ⟨by decide +kernel, ⟨by decide, by decide, by simp [excludedShort]⟩, hrefused, fun h => ?_⟩
  obtain ⟨a, hok, -⟩ := h
  rw [hrefused] at hok
  cases hok

end RustyAutossh
