import RustyAutossh.Source.Strict

/-!
# The grammar of the strict arguments

A strict command line is a list of options and a rest: nothing, a separator with what
follows it, or a first token that is no option with what follows it. The parser reads the
options one by one, and the rest decides how it ends.
-/

namespace RustyAutossh

/-- A complete option. -/
inductive StrictUnit where
  /-- `-M v`. -/
  | monitorNext (v : String)
  /-- `-Mv`. -/
  | monitorInline (v : {v : String // v ≠ ""})
  | background
  | version
  | oneShot
  | strict
  | noStrict
  deriving DecidableEq

namespace StrictUnit

/-- The tokens an option is written as. -/
def tokens : StrictUnit → List String
  | monitorNext v => ["-M", v]
  | monitorInline v => ["-M" ++ v]
  | background => ["-f"]
  | version => ["-V"]
  | oneShot => ["-1"]
  | strict => ["--strict"]
  | noStrict => ["--no-strict"]

/-- The monitor value an option gives. -/
def value : StrictUnit → Option String
  | monitorNext v => some v
  | monitorInline v => some v.val
  | _ => none

/-- What an option adds to the result. -/
def apply (out : StrictArgs) : StrictUnit → StrictArgs
  | monitorNext v => { out with monitor := some v }
  | monitorInline v => { out with monitor := some v.val }
  | background => { out with background := true }
  | version => { out with version := true }
  | oneShot => { out with oneShot := true }
  | strict => out
  | noStrict => out

end StrictUnit

/-- What a list of options and a list of arguments for ssh mean. -/
def denote (units : List StrictUnit) (sshArgs : List String) : StrictArgs where
  monitor := (units.filterMap StrictUnit.value).getLast?
  background := decide (.background ∈ units)
  version := decide (.version ∈ units)
  oneShot := decide (.oneShot ∈ units)
  sshArgs := sshArgs

/-- The token begins with a dash. -/
def Dashed (tok : String) : Prop := tok.toList.head? = some '-'

instance (tok : String) : Decidable (Dashed tok) := inferInstanceAs (Decidable (_ = _))

/-- The token can be the first one for ssh: it is no option and no subcommand. -/
def StartsSsh (tok : String) : Prop := ¬Dashed tok ∧ tok ≠ "completions"

/-- What a token is where an option may stand. -/
inductive TokenKind where
  | separator
  | toggle
  | dash
  | oneShot
  | background
  | version
  | monitorNext
  | monitorInline (v : String)
  | bare
  | refused (e : StrictError)

/-- The kind of a token, read off its characters. -/
def tokenKind (tok : String) : TokenKind :=
  match tok.toList with
  | ['-'] => .dash
  | '-' :: '-' :: name =>
    if name = [] then .separator
    else if strictNoopLong.contains (String.ofList (name.takeWhile (· ≠ '='))) then .toggle
    else .refused (.unknownLong (formatUnknownFlag tok))
  | '-' :: c :: inline =>
    if c = '1' ∧ inline = [] then .oneShot
    else if c = 'M' then
      if inline = [] then .monitorNext else .monitorInline (String.ofList inline)
    else if c = 'f' then .background
    else if c = 'V' then .version
    else .refused (.unknownShort (formatUnknownFlag tok))
  | _ =>
    if tok = "completions" then .refused (.unknownLong (formatUnknownFlag tok)) else .bare

theorem tokenKind_short {tok : String} {c : Char} {inline : List Char}
    (h : tok.toList = '-' :: c :: inline) (hc : c ≠ '-') :
    tokenKind tok =
      if c = '1' ∧ inline = [] then .oneShot
      else if c = 'M' then
        if inline = [] then .monitorNext else .monitorInline (String.ofList inline)
      else if c = 'f' then .background
      else if c = 'V' then .version
      else .refused (.unknownShort (formatUnknownFlag tok)) := by
  unfold tokenKind
  split
  · rename_i heq
    cases h.symm.trans heq
  · rename_i heq
    cases h.symm.trans heq
    exact absurd rfl hc
  · rename_i heq
    cases h.symm.trans heq
    rfl
  · rename_i hno
    exact absurd h (hno c inline)

theorem tokenKind_of_not_dashed {tok : String} (h : ¬Dashed tok) :
    tokenKind tok =
      if tok = "completions" then .refused (.unknownLong (formatUnknownFlag tok)) else .bare := by
  unfold tokenKind
  split
  · rename_i heq
    exact absurd (congrArg List.head? heq) h
  · rename_i heq
    exact absurd (congrArg List.head? heq) h
  · rename_i heq
    exact absurd (congrArg List.head? heq) h
  · rfl

/-- Tokens with other characters are other tokens. -/
theorem ne_of_toList {tok s : String} {cs : List Char} (h : tok.toList = cs)
    (hne : s.toList ≠ cs) : tok ≠ s := by
  rintro rfl
  exact hne h

/-- A prefix that is there is taken off. -/
theorem stripPrefix_of_eq {p tok : String} {rest : List Char}
    (h : tok.toList = p.toList ++ rest) : stripPrefix p tok = some (String.ofList rest) := by
  rw [stripPrefix, List.dropPrefix?_eq_some_iff.mpr ⟨p.toList, h, beq_self_eq_true _⟩]
  rfl

theorem stripPrefix_of_not {p tok : String} (h : ¬p.toList <+: tok.toList) :
    stripPrefix p tok = none := by
  rw [stripPrefix]
  cases hdrop : tok.toList.dropPrefix? p.toList with
  | none => rfl
  | some rest =>
    obtain ⟨p', heq, hp⟩ := List.dropPrefix?_eq_some_iff.mp hdrop
    exact absurd ⟨rest, by rw [heq, eq_of_beq hp]⟩ h

theorem ofList_eq_one_iff {c : Char} {cs : List Char} :
    String.ofList (c :: cs) = "1" ↔ c = '1' ∧ cs = [] := by
  rw [← String.toList_inj, String.toList_ofList]
  exact List.cons_eq_cons

/-- Every long flag but the two toggles is refused with one line. -/
theorem parseLong_eq (tok : String) (name : List Char) (out : StrictArgs) :
    parseLong tok (String.ofList name) out =
      if strictNoopLong.contains (String.ofList (name.takeWhile (· ≠ '='))) then .ok out
      else .error (.unknownLong (formatUnknownFlag tok)) := by
  rw [parseLong, String.toList_ofList, ite_self]

/-- Every short flag but the four known ones is refused with one line. -/
theorem parseShort_eq (tok : String) (c : Char) (inline : List Char) (out : StrictArgs) :
    parseShort tok (String.ofList (c :: inline)) out =
      if c = '1' ∧ inline = [] then .ok (some { out with oneShot := true })
      else if c = 'M' then
        if inline = [] then .ok none
        else .ok (some { out with monitor := some (String.ofList inline) })
      else if c = 'f' then .ok (some { out with background := true })
      else if c = 'V' then .ok (some { out with version := true })
      else .error (.unknownShort (formatUnknownFlag tok)) := by
  simp only [parseShort, ofList_eq_one_iff, String.toList_ofList, ne_eq, ite_not, ite_self]

/-- What a turn of the loop does to a token where an option may stand. -/
theorem parseArgvFrom_cons (tok : String) (rest : List OsString) (out : StrictArgs) :
    parseArgvFrom (.utf8 tok :: rest) false out =
      match tokenKind tok with
      | .separator => parseArgvFrom rest true out
      | .toggle => parseArgvFrom rest false out
      | .dash => parseArgvFrom rest false (out.pass tok)
      | .oneShot => parseArgvFrom rest false { out with oneShot := true }
      | .background => parseArgvFrom rest false { out with background := true }
      | .version => parseArgvFrom rest false { out with version := true }
      | .monitorInline v => parseArgvFrom rest false { out with monitor := some v }
      | .monitorNext =>
        match rest with
        | val :: rest => parseArgvFrom rest false { out with monitor := some val.toStringLossy }
        | [] => .error (.missingValue 'M')
      | .bare => parseArgvFrom rest true (out.pass tok)
      | .refused e => .error e := by
  rw [parseArgvFrom.eq_def]
  simp only [OsString.toStr, Bool.false_eq_true, if_false]
  by_cases hdash : Dashed tok
  · obtain ⟨cs, hcs⟩ := List.head?_eq_some_iff.mp hdash
    have hdashed : stripPrefix "-" tok = some (String.ofList cs) := stripPrefix_of_eq hcs
    rw [hdashed]
    cases cs with
    | nil =>
      rw [if_neg (ne_of_toList hcs (by decide)), stripPrefix_of_not (by rw [hcs]; decide)]
      simp only [tokenKind, hcs, parseShort]
      rfl
    | cons c inline =>
      by_cases hc : c = '-'
      · subst hc
        have hlong : stripPrefix "--" tok = some (String.ofList inline) := stripPrefix_of_eq hcs
        rw [hlong]
        by_cases hname : inline = []
        · have heq : tok = "--" := by
            rw [← String.toList_inj, hcs, hname]
            rfl
          rw [if_pos heq]
          simp only [tokenKind, hcs, hname, if_true]
        · have hne : tok ≠ "--" := ne_of_toList hcs (by simpa using Ne.symm hname)
          rw [if_neg hne]
          simp only [tokenKind, hcs, parseLong_eq, if_neg hname]
          split_ifs <;> rfl
      · have hne : tok ≠ "--" := ne_of_toList hcs (by simp [Ne.symm hc])
        have hlong : ¬"--".toList <+: tok.toList := by
          rw [hcs]
          simpa using fun h : '-' = c => hc h.symm
        rw [if_neg hne, stripPrefix_of_not hlong]
        simp only [tokenKind_short hcs hc, parseShort_eq]
        split_ifs <;> rfl
  · have hshort : ¬"-".toList <+: tok.toList := by
      rintro ⟨rest, heq⟩
      exact hdash (by rw [Dashed, ← heq]; rfl)
    have hlong : ¬"--".toList <+: tok.toList := by
      rintro ⟨rest, heq⟩
      exact hdash (by rw [Dashed, ← heq]; rfl)
    have hne : tok ≠ "--" := by
      rintro rfl
      exact hdash rfl
    rw [if_neg hne, stripPrefix_of_not hshort, stripPrefix_of_not hlong]
    rw [tokenKind_of_not_dashed hdash]
    split_ifs <;> rfl

/-- One option is one or two turns of the loop. -/
theorem parseArgvFrom_unit (u : StrictUnit) (rest : List OsString) (out : StrictArgs) :
    parseArgvFrom (u.tokens.map .utf8 ++ rest) false out =
      parseArgvFrom rest false (StrictUnit.apply out u) := by
  cases u with
  | monitorNext v => exact parseArgvFrom_cons "-M" (.utf8 v :: rest) out
  | monitorInline v =>
    have hne : v.val.toList ≠ [] := fun h => v.2 (String.toList_eq_nil_iff.mp h)
    have hcs : ("-M" ++ v.val).toList = '-' :: 'M' :: v.val.toList := String.toList_append
    have hkind : tokenKind ("-M" ++ v.val) = .monitorInline v.val := by
      rw [tokenKind_short hcs (by decide), if_neg (by simp), if_pos rfl, if_neg hne,
        String.ofList_toList]
    rw [StrictUnit.tokens, List.map_cons, List.cons_append, parseArgvFrom_cons, hkind]
    rfl
  | background => exact parseArgvFrom_cons "-f" rest out
  | version => exact parseArgvFrom_cons "-V" rest out
  | oneShot => exact parseArgvFrom_cons "-1" rest out
  | strict => exact parseArgvFrom_cons "--strict" rest out
  | noStrict => exact parseArgvFrom_cons "--no-strict" rest out

/-- Options are read one by one. -/
theorem parseArgvFrom_units (units : List StrictUnit) (rest : List OsString) (out : StrictArgs) :
    parseArgvFrom ((units.flatMap StrictUnit.tokens).map .utf8 ++ rest) false out =
      parseArgvFrom rest false (units.foldl StrictUnit.apply out) := by
  induction units generalizing out with
  | nil => rfl
  | cons u units ih =>
    rw [List.flatMap_cons, List.map_append, List.append_assoc, parseArgvFrom_unit, ih,
      List.foldl_cons]

/-- What options add to a result: the last monitor value and the flags among them. -/
theorem foldl_apply (units : List StrictUnit) (out : StrictArgs) :
    units.foldl StrictUnit.apply out =
      { monitor := ((units.filterMap StrictUnit.value).getLast?).or out.monitor
        background := out.background || decide (.background ∈ units)
        version := out.version || decide (.version ∈ units)
        oneShot := out.oneShot || decide (.oneShot ∈ units)
        sshArgs := out.sshArgs } := by
  induction units generalizing out with
  | nil => simp
  | cons u units ih =>
    rw [List.foldl_cons, ih]
    cases u <;> simp [StrictUnit.apply, StrictUnit.value, List.getLast?_cons, Option.or_some]

/-- Without anything before them, options mean what they denote. -/
theorem foldl_apply_empty (units : List StrictUnit) :
    units.foldl StrictUnit.apply {} = denote units [] := by
  rw [foldl_apply]
  simp [denote]

/-- The arguments made of a list of options and a rest. -/
def commandLine (units : List StrictUnit) (rest : List String) : List OsString :=
  (units.flatMap StrictUnit.tokens ++ rest).map .utf8

theorem parseArgv_commandLine (units : List StrictUnit) (rest : List String) :
    parseArgv (commandLine units rest) =
      parseArgvFrom (rest.map .utf8) false (denote units []) := by
  rw [parseArgv, commandLine, List.map_append, parseArgvFrom_units, foldl_apply_empty]

theorem map_toStringLossy_utf8 (toks : List String) :
    (toks.map OsString.utf8).map OsString.toStringLossy = toks := by
  rw [List.map_map]
  exact List.map_id toks

/-- The tokens that end the parse with an error. -/
inductive Refused : String → Prop
  | completions : Refused "completions"
  /-- A long flag other than the two toggles, with or without a value. -/
  | long (name : List Char) : name ≠ [] →
      String.ofList (name.takeWhile (· ≠ '=')) ∉ strictNoopLong →
      Refused (String.ofList ('-' :: '-' :: name))
  | short (c : Char) (rest : List Char) : c ∈ excludedShort →
      Refused (String.ofList ('-' :: c :: rest))

theorem Refused.kind {tok : String} (h : Refused tok) :
    ∃ e, tokenKind tok = .refused e ∧ e.message = formatUnknownFlag tok := by
  cases h with
  | completions => exact ⟨_, rfl, rfl⟩
  | long name hne hname =>
    have hno : strictNoopLong.contains (String.ofList (name.takeWhile (· ≠ '='))) = false := by
      rwa [← Bool.not_eq_true, List.contains_iff_mem]
    refine ⟨.unknownLong _, ?_, rfl⟩
    simp only [tokenKind, String.toList_ofList, if_neg hne, hno]
    rfl
  | short c rest hc =>
    have hnot : ∀ d ∈ ['-', '1', 'M', 'f', 'V'], d ∉ excludedShort := by
      simp [excludedShort]
    have hne {d : Char} (hd : d ∈ ['-', '1', 'M', 'f', 'V']) : c ≠ d := fun he =>
      hnot d hd (he ▸ hc)
    refine ⟨.unknownShort (formatUnknownFlag _), ?_, rfl⟩
    rw [tokenKind_short String.toList_ofList (hne (by decide)),
      if_neg (fun h => hne (by decide) h.1), if_neg (hne (by decide)), if_neg (hne (by decide)),
      if_neg (hne (by decide))]

/-- Behind options, a separator hands over what follows it. -/
theorem parseArgvFrom_separator (post : List String) (out : StrictArgs) :
    parseArgvFrom (("--" :: post).map .utf8) false out =
      .ok { out with sshArgs := out.sshArgs ++ post } := by
  rw [List.map_cons, parseArgvFrom_opens, parseArgvFrom_passthrough, map_toStringLossy_utf8]

/-- Behind options, a token that is none hands over itself and what follows it. -/
theorem parseArgvFrom_bare {b : String} (h : StartsSsh b) (post : List String)
    (out : StrictArgs) :
    parseArgvFrom ((b :: post).map .utf8) false out =
      .ok { out with sshArgs := out.sshArgs ++ b :: post } := by
  have hkind : tokenKind b = .bare := by
    rw [tokenKind_of_not_dashed h.1, if_neg h.2]
  rw [List.map_cons, parseArgvFrom_cons, hkind]
  simp only [parseArgvFrom_passthrough, map_toStringLossy_utf8, StrictArgs.pass,
    List.append_assoc, List.singleton_append]

/-- The parser reads the documented grammar: the options mean what they denote, what ssh is
given is handed over verbatim, and the other rests are errors that name their token. -/
theorem parseArgv_grammar (units : List StrictUnit) :
    parseArgv (commandLine units []) = .ok (denote units []) ∧
    (∀ post, parseArgv (commandLine units ("--" :: post)) = .ok (denote units post)) ∧
    (∀ b post, ¬Dashed b → b ≠ "completions" →
      parseArgv (commandLine units (b :: post)) = .ok (denote units (b :: post))) ∧
    (∀ tok post, Refused tok → ∃ e, parseArgv (commandLine units (tok :: post)) = .error e ∧
      e.message = formatUnknownFlag tok) ∧
    parseArgv (commandLine units ["-M"]) = .error (.missingValue 'M') := by
  simp only [parseArgv_commandLine]
  refine ⟨rfl, fun post => ?_, fun b post hb hne => ?_, fun tok post h => ?_, ?_⟩
  · rw [parseArgvFrom_separator]
    rfl
  · rw [parseArgvFrom_bare ⟨hb, hne⟩]
    rfl
  · obtain ⟨e, hkind, hmessage⟩ := h.kind
    refine ⟨e, ?_, hmessage⟩
    rw [List.map_cons, parseArgvFrom_cons, hkind]
  · exact parseArgvFrom_cons "-M" [] (denote units [])

/-- A value that looks like the separator, a flag, and a host with an excluded flag behind it. -/
theorem parseArgv_grammar_host :
    parseArgv (commandLine [.monitorNext "--", .background] ["host", "-X"]) =
      .ok ⟨some "--", true, false, false, ["host", "-X"]⟩ :=
  (parseArgv_grammar [.monitorNext "--", .background]).2.2.1 "host" ["-X"] (by decide) (by decide)

end RustyAutossh
