import RustyAutossh.Source.Strict

/-!
# The compatibility mode and the passthrough boundary

The strict parser hands every token behind the boundary to ssh unexamined. The
scan of `resolve` knows no boundary, so a toggle among ssh's own arguments can
replace the mode that the arguments before the boundary ask for.
-/

namespace RustyAutossh

/-- The last toggle among the arguments asks for `mode`. -/
def LastToggle (args : List OsString) (mode : CompatibilityMode) : Prop :=
  ∃ before arg after, args = before ++ arg :: after ∧ toggle arg = some mode ∧
    ∀ a ∈ after, toggle a = none

/-- A token that does not start with `-`. -/
def Bare (token : OsString) : Prop := ∀ s, token = .utf8 s → s.toList.head? ≠ some '-'

/-- A toggle behind the boundary asks for nothing new: there is none, or the last of
them asks for what the last toggle of `pre` does, or, where `pre` has none, for what
the environment and the program's name do. -/
def AsksNothingNew (target : Target) (pre post : List OsString) (env : EnvSnapshot)
    (argv0 : OsString) : Prop :=
  ∀ mode, LastToggle post mode → LastToggle pre mode ∨
    (∀ arg ∈ pre, toggle arg = none) ∧
      mode = if envActivates env ∨ argv0Activates target argv0 then .strict else .default

/-- The decision of the scan is the mode of the last toggle. -/
theorem flagDecision_eq_some {args : List OsString} {mode : CompatibilityMode} :
    flagDecision args = some mode ↔ LastToggle args mode := by
  rw [flagDecision_eq, List.getLast?_eq_some_iff]
  constructor
  · rintro ⟨modes, h⟩
    obtain ⟨before, rest, rfl, -, hrest⟩ := List.filterMap_eq_append_iff.mp h
    obtain ⟨skipped, arg, after, rfl, -, harg, hafter⟩ := List.filterMap_eq_cons_iff.mp hrest
    exact ⟨before ++ skipped, arg, after, by simp, harg, List.filterMap_eq_nil_iff.mp hafter⟩
  · rintro ⟨before, arg, after, rfl, harg, hafter⟩
    exact ⟨before.filterMap toggle, by
      simp [harg, List.filterMap_eq_nil_iff.mpr hafter]⟩

/-- The scan decides nothing exactly where no argument is a toggle. -/
theorem flagDecision_eq_none {args : List OsString} :
    flagDecision args = none ↔ ∀ arg ∈ args, toggle arg = none := by
  rw [flagDecision_eq, List.getLast?_eq_none_iff, List.filterMap_eq_nil_iff]

/-- Later arguments come first in the scan. -/
theorem flagDecision_append (pre post : List OsString) :
    flagDecision (pre ++ post) = (flagDecision post).or (flagDecision pre) := by
  simp only [flagDecision_eq, List.filterMap_append, List.getLast?_append]

/-- An argument that is no toggle does not take part in the scan. -/
theorem flagDecision_cons {arg : OsString} (h : toggle arg = none) (post : List OsString) :
    flagDecision (arg :: post) = flagDecision post := by
  rw [flagDecision_eq, flagDecision_eq, List.filterMap_cons_none h]

/-- The mode is the scan's decision, and without one what the surroundings ask for. -/
theorem resolve_eq (target : Target) (args : List OsString) (env : EnvSnapshot)
    (argv0 : OsString) : resolve target args env argv0 = (flagDecision args).getD
      (if envActivates env ∨ argv0Activates target argv0 then .strict else .default) := by
  unfold resolve
  cases flagDecision args with
  | some mode => rfl
  | none => cases envActivates env <;> simp

/-- What stands behind `pre` leaves the mode alone exactly when it asks for nothing new. -/
theorem resolve_append_eq_iff (target : Target) (pre post : List OsString) (env : EnvSnapshot)
    (argv0 : OsString) :
    resolve target (pre ++ post) env argv0 = resolve target pre env argv0 ↔
      AsksNothingNew target pre post env argv0 := by
  rw [resolve_eq, resolve_eq, flagDecision_append]
  unfold AsksNothingNew
  simp only [← flagDecision_eq_some, ← flagDecision_eq_none]
  cases hpost : flagDecision post with
  | none => simp
  | some mode =>
    cases hpre : flagDecision pre with
    | none => simp
    | some earlier =>
      simp only [Option.some_or, Option.getD_some, Option.some.injEq, forall_eq', reduceCtorEq,
        false_and, or_false]
      exact eq_comm

/-- Behind a token that is no toggle the same condition decides. -/
theorem asksNothingNew_cons {token : OsString} (h : toggle token = none) (target : Target)
    (pre post : List OsString) (env : EnvSnapshot) (argv0 : OsString) :
    AsksNothingNew target pre (token :: post) env argv0 ↔
      AsksNothingNew target pre post env argv0 := by
  unfold AsksNothingNew
  simp only [← flagDecision_eq_some, flagDecision_cons h]

/-- Before the boundary a token that is no toggle does not matter either. -/
theorem asksNothingNew_concat {token : OsString} (h : toggle token = none) (target : Target)
    (pre post : List OsString) (env : EnvSnapshot) (argv0 : OsString) :
    AsksNothingNew target (pre ++ [token]) post env argv0 ↔
      AsksNothingNew target pre post env argv0 := by
  have hsame : flagDecision (pre ++ [token]) = flagDecision pre := by
    rw [flagDecision_append, flagDecision_cons h]
    simp [flagDecision]
  unfold AsksNothingNew
  simp only [← flagDecision_eq_some, ← flagDecision_eq_none, hsame]

/-- The arguments behind the separator, and those behind a bare token, leave the mode as
the arguments before them ask exactly when they ask for nothing new. -/
theorem resolve_passthrough_iff (target : Target) (pre post : List OsString) (env : EnvSnapshot)
    (argv0 : OsString) :
    (resolve target (pre ++ .utf8 "--" :: post) env argv0 = resolve target pre env argv0 ↔
      AsksNothingNew target pre post env argv0) ∧
    ∀ b, Bare b → (resolve target (pre ++ b :: post) env argv0 =
        resolve target (pre ++ [b]) env argv0 ↔
      AsksNothingNew target pre post env argv0) := by
  constructor
  · have hsep : toggle (.utf8 "--") = none := by decide +kernel
    rw [resolve_append_eq_iff, asksNothingNew_cons hsep]
  · intro b hb
    have hnone : toggle b = none := toggle_eq_none fun s hs => Or.inl (hb s hs)
    rw [List.append_cons, resolve_append_eq_iff, asksNothingNew_concat hnone]

/-- A plain ssh command line keeps the mode on both sides of either boundary. -/
theorem resolve_passthrough_plain :
    resolve .unix [.utf8 "-f", .utf8 "host", .utf8 "uptime"] ⟨fun _ => none⟩ (.utf8 "autossh") =
      resolve .unix [.utf8 "-f", .utf8 "host"] ⟨fun _ => none⟩ (.utf8 "autossh") := by
  have hbare : Bare (.utf8 "host") := by
    rintro s ⟨⟩
    decide +kernel
  have hnew : AsksNothingNew .unix [.utf8 "-f"] [.utf8 "uptime"] ⟨fun _ => none⟩
      (.utf8 "autossh") := by
    intro mode h
    have hdecision := flagDecision_eq_some.mpr h
    exact absurd hdecision (by cases mode <;> decide +kernel)
  exact ((resolve_passthrough_iff .unix [.utf8 "-f"] [.utf8 "uptime"] ⟨fun _ => none⟩
    (.utf8 "autossh")).2 (.utf8 "host") hbare).mpr hnew

/-- The token `--strict` behind the separator is handed to ssh, and still selects the
strict mode that neither the arguments before it nor the surroundings ask for. -/
theorem resolve_reads_passthrough :
    parseArgv [.utf8 "--", .utf8 "--strict"] = .ok { sshArgs := ["--strict"] } ∧
    resolve .unix ([] ++ .utf8 "--" :: [.utf8 "--strict"]) ⟨fun _ => none⟩
        (.utf8 "rusty-autossh") ≠
      resolve .unix [] ⟨fun _ => none⟩ (.utf8 "rusty-autossh") := by
  constructor
  · exact parseArgv_separator [.utf8 "--strict"]
  · decide +kernel

end RustyAutossh
