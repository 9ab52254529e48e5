import RustyAutossh.Source.Cli

/-!
# The split as a grammar

The part the splitter keeps is a list of complete flags. What follows them ends it: nothing,
a flag without its value, a separator, or a token that the splitter does not know. No
two of these endings fit the same arguments, so each has one split only.
-/

namespace RustyAutossh

/-- A complete flag: one the splitter knows, with a value exactly if it takes one. -/
structure OwnFlag where
  tok : String
  value : Option String
  known : isAutosshKnownFlag tok = true
  complete : flagTakesValue tok = value.isSome

/-- The tokens a flag is written as. -/
def OwnFlag.tokens (flag : OwnFlag) : List String := flag.tok :: flag.value.toList

/-- The tokens of a list of flags. -/
def ownTokens (flags : List OwnFlag) : List String := flags.flatMap OwnFlag.tokens

@[simp] theorem ownTokens_nil : ownTokens [] = [] := rfl

@[simp] theorem ownTokens_cons (flag : OwnFlag) (flags : List OwnFlag) :
    ownTokens (flag :: flags) = flag.tok :: (flag.value.toList ++ ownTokens flags) := by
  simp [ownTokens, OwnFlag.tokens]

/-- The four ways in which arguments fall into the flags and what is for ssh. -/
inductive Splits : List String → List String → List String → Prop
  | ended (flags : List OwnFlag) : Splits (ownTokens flags) (ownTokens flags) []
  | valueMissing (flags : List OwnFlag) (tok : String) (takes : flagTakesValue tok = true) :
      Splits (ownTokens flags ++ [tok]) (ownTokens flags ++ [tok]) []
  | separator (flags : List OwnFlag) (ssh : List String) :
      Splits (ownTokens flags ++ "--" :: ssh) (ownTokens flags) ssh
  | unknown (flags : List OwnFlag) (tok : String) (rest : List String) (hsep : tok ≠ "--")
      (hunknown : isAutosshKnownFlag tok = false) :
      Splits (ownTokens flags ++ tok :: rest) (ownTokens flags) (tok :: rest)

/-- The next token behind these is the value of a flag. -/
def BeforeValue (before : List String) : Prop :=
  ∃ flags tok, flagTakesValue tok = true ∧ before = ownTokens flags ++ [tok]

/-- A split of `argv` into the part that is kept and the part for ssh which loses nothing
and ends as late as it can. -/
structure LosslessSplit (argv own ssh : List String) : Prop where
  /-- Only a separator may be missing. -/
  lossless : argv = own ++ ssh ∨ argv = own ++ ["--"] ++ ssh
  /-- The flags are complete, except for one that ends the arguments. -/
  flags : (∃ flags, own = ownTokens flags) ∨ argv = own ∧ BeforeValue own
  /-- A separator among the flags is the value of one. -/
  value : ∀ before after, own = before ++ "--" :: after → BeforeValue before
  /-- Without a separator between the parts, ssh's part starts with no flag. -/
  maximal : argv = own ++ ssh →
    (ssh = [] ∨ ∃ tok rest, ssh = tok :: rest ∧ isAutosshKnownFlag tok = false ∧ tok ≠ "--") ∧
      splitAutosshArgs ssh = ([], ssh)

/-- The separator is no flag. -/
theorem ne_separator_of_known {tok : String} (h : isAutosshKnownFlag tok = true) : tok ≠ "--" := by
  rintro rfl
  exact absurd h (by decide +kernel)

/-- Every flag that takes a value is known. -/
theorem known_of_flagTakesValue {tok : String} (h : flagTakesValue tok = true) :
    isAutosshKnownFlag tok = true := by
  simp only [flagTakesValue, List.contains_iff_mem, List.mem_cons, List.not_mem_nil, or_false] at h
  rcases h with rfl | rfl | rfl | rfl | rfl | rfl | rfl | rfl | rfl | rfl | rfl <;> decide +kernel

/-- A complete flag in front is kept. -/
theorem splitAutosshArgsFrom_flag (flag : OwnFlag) (rest autossh : List String) :
    splitAutosshArgsFrom (flag.tok :: (flag.value.toList ++ rest)) autossh =
      splitAutosshArgsFrom rest (autossh ++ flag.tokens) := by
  have hsep : flag.tok ≠ "--" := ne_separator_of_known flag.known
  have hcomplete := flag.complete
  unfold OwnFlag.tokens
  cases hvalue : flag.value with
  | none =>
    rw [hvalue, Option.isSome_none] at hcomplete
    rw [Option.toList_none, List.nil_append, splitAutosshArgsFrom.eq_def]
    simp [hsep, flag.known, hcomplete]
  | some val =>
    rw [hvalue, Option.isSome_some] at hcomplete
    rw [Option.toList_some, List.singleton_append, splitAutosshArgsFrom.eq_def]
    simp [hsep, flag.known, hcomplete]

/-- Complete flags in front are all kept. -/
theorem splitAutosshArgsFrom_ownTokens (flags : List OwnFlag) (rest autossh : List String) :
    splitAutosshArgsFrom (ownTokens flags ++ rest) autossh =
      splitAutosshArgsFrom rest (autossh ++ ownTokens flags) := by
  induction flags generalizing autossh with
  | nil => simp
  | cons flag flags ih =>
    rw [ownTokens_cons, List.cons_append, List.append_assoc, splitAutosshArgsFrom_flag, ih]
    simp [OwnFlag.tokens]

/-- Arguments that fall into the two parts are split into them. -/
theorem Splits.splitAutosshArgs_eq {argv own ssh : List String} (h : Splits argv own ssh) :
    splitAutosshArgs argv = (own, ssh) := by
  unfold splitAutosshArgs
  cases h with
  | ended flags =>
    have hrun := splitAutosshArgsFrom_ownTokens flags [] []
    rwa [List.append_nil, List.nil_append, splitAutosshArgsFrom] at hrun
  | valueMissing flags tok takes =>
    have hknown : isAutosshKnownFlag tok = true := known_of_flagTakesValue takes
    have hsep : tok ≠ "--" := ne_separator_of_known hknown
    rw [splitAutosshArgsFrom_ownTokens, List.nil_append, splitAutosshArgsFrom.eq_def]
    simp [hsep, hknown, takes]
  | separator flags ssh =>
    rw [splitAutosshArgsFrom_ownTokens, List.nil_append, splitAutosshArgsFrom.eq_def]
    simp
  | unknown flags tok rest hsep hunknown =>
    rw [splitAutosshArgsFrom_ownTokens, List.nil_append, splitAutosshArgsFrom.eq_def]
    simp [hsep, hunknown]

/-- The loop finds complete flags and one of the endings behind them. -/
theorem splits_splitAutosshArgsFrom (toks : List String) (flags : List OwnFlag) :
    Splits (ownTokens flags ++ toks) (splitAutosshArgsFrom toks (ownTokens flags)).1
      (splitAutosshArgsFrom toks (ownTokens flags)).2 := by
  generalize hacc : ownTokens flags = acc
  fun_induction splitAutosshArgsFrom toks acc generalizing flags with
  | case1 acc =>
    subst hacc
    simpa using Splits.ended flags
  | case2 rest acc =>
    subst hacc
    exact .separator flags rest
  | case3 tok acc hsep hknown htakes val rest ih =>
    have hflags : ownTokens (flags ++ [⟨tok, some val, hknown, by simpa using htakes⟩]) =
        acc ++ [tok, val] := by
      simp [← hacc, ownTokens, OwnFlag.tokens]
    simpa using ih _ hflags
  | case4 tok acc hsep hknown htakes =>
    subst hacc
    exact .valueMissing flags tok htakes
  | case5 tok rest acc hsep hknown htakes ih =>
    have hflags : ownTokens (flags ++ [⟨tok, none, hknown, by simpa using htakes⟩]) =
        acc ++ [tok] := by
      simp [← hacc, ownTokens, OwnFlag.tokens]
    simpa using ih _ hflags
  | case6 tok rest acc hsep hknown =>
    subst hacc
    exact .unknown flags tok rest hsep (by simpa using hknown)

/-- The splitter computes the one split of the grammar. -/
theorem splitAutosshArgs_eq_iff {argv own ssh : List String} :
    splitAutosshArgs argv = (own, ssh) ↔ Splits argv own ssh := by
  constructor
  · intro h
    have hsplits := splits_splitAutosshArgsFrom argv []
    rw [ownTokens_nil, List.nil_append, ← splitAutosshArgs, h] at hsplits
    exact hsplits
  · exact Splits.splitAutosshArgs_eq

/-- Among complete flags a separator can only be a value. -/
theorem beforeValue_of_ownTokens {flags : List OwnFlag} {before after : List String}
    (h : ownTokens flags = before ++ "--" :: after) : BeforeValue before := by
  induction flags generalizing before with
  | nil => simp at h
  | cons flag flags ih =>
    have hsep : flag.tok ≠ "--" := ne_separator_of_known flag.known
    have hcomplete := flag.complete
    -- a flag put in front of what stands before the value
    have hcons : ∀ {rest}, BeforeValue rest → BeforeValue (flag.tokens ++ rest) := by
      rintro rest ⟨units, tok, htakes, rfl⟩
      exact ⟨flag :: units, tok, htakes, by simp [OwnFlag.tokens]⟩
    unfold OwnFlag.tokens at hcons
    rw [ownTokens_cons] at h
    cases before with
    | nil => exact absurd (List.cons.inj h).1 hsep
    | cons first before =>
      obtain ⟨rfl, hrest⟩ := List.cons.inj h
      cases hvalue : flag.value with
      | none =>
        rw [hvalue, Option.toList_none] at hcons hrest
        exact hcons (ih hrest)
      | some val =>
        rw [hvalue, Option.toList_some] at hcons hrest
        cases before with
        | nil => exact ⟨[], flag.tok, by simp [hcomplete, hvalue], rfl⟩
        | cons second before =>
          obtain ⟨rfl, hlater⟩ := List.cons.inj hrest
          exact hcons (ih hlater)

/-- A value-taking flag at the end adds no place for a separator. -/
theorem beforeValue_of_concat {flags : List OwnFlag} {tok : String} {before after : List String}
    (hsep : tok ≠ "--") (h : ownTokens flags ++ [tok] = before ++ "--" :: after) :
    BeforeValue before := by
  rcases List.eq_nil_or_concat after with rfl | ⟨middle, last, rfl⟩
  · exact absurd (List.append_inj' h rfl).2 (by simpa using hsep)
  · rw [List.concat_eq_append, ← List.cons_append, ← List.append_assoc] at h
    exact beforeValue_of_ownTokens (List.append_inj' h rfl).1

/-- Every split of the grammar loses nothing and ends as late as it can. -/
theorem Splits.lossless {argv own ssh : List String} (h : Splits argv own ssh) :
    LosslessSplit argv own ssh := by
  cases h with
  | ended flags =>
    exact ⟨.inl (List.append_nil _).symm, .inl ⟨flags, rfl⟩, fun _ _ => beforeValue_of_ownTokens,
      fun _ => ⟨.inl rfl, rfl⟩⟩
  | valueMissing flags tok takes =>
    have hsep : tok ≠ "--" := ne_separator_of_known (known_of_flagTakesValue takes)
    exact ⟨.inl (List.append_nil _).symm, .inr ⟨rfl, flags, tok, takes, rfl⟩,
      fun _ _ => beforeValue_of_concat hsep, fun _ => ⟨.inl rfl, rfl⟩⟩
  | separator flags ssh =>
    refine ⟨.inr (by simp), .inl ⟨flags, rfl⟩, fun _ _ => beforeValue_of_ownTokens, fun h => ?_⟩
    -- the separator is one token more than the two parts
    have hlength := congrArg List.length h
    simp at hlength
  | unknown flags tok rest hsep hunknown =>
    refine ⟨.inl rfl, .inl ⟨flags, rfl⟩, fun _ _ => beforeValue_of_ownTokens, fun _ => ⟨?_, ?_⟩⟩
    · exact .inr ⟨tok, rest, rfl, hunknown, hsep⟩
    · exact (Splits.unknown [] tok rest hsep hunknown).splitAutosshArgs_eq

/-- The two parts make up the arguments, with or without a separator between them. -/
theorem splitAutosshArgs_cases (argv : List String) :
    argv = (splitAutosshArgs argv).1 ++ (splitAutosshArgs argv).2 ∨
      argv = (splitAutosshArgs argv).1 ++ "--" :: (splitAutosshArgs argv).2 := by
  have hsplits : Splits argv (splitAutosshArgs argv).1 (splitAutosshArgs argv).2 :=
    splitAutosshArgs_eq_iff.mp rfl
  simpa using hsplits.lossless.lossless

/-- What the splitter computes loses nothing, and it stops only where it has to. -/
theorem splitAutosshArgs_lossless (argv : List String) :
    LosslessSplit argv (splitAutosshArgs argv).1 (splitAutosshArgs argv).2 :=
  have hsplits : Splits argv (splitAutosshArgs argv).1 (splitAutosshArgs argv).2 :=
    splitAutosshArgs_eq_iff.mp rfl
  hsplits.lossless

end RustyAutossh
