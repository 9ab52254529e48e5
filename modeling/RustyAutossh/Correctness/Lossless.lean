import Mathlib.Data.List.TakeWhile
import RustyAutossh.Correctness.Grammar

/-!
# What strict parsing loses

An accepted command line need not be options, a separator and the arguments of ssh. The
parser drops what is attached to a flag that takes nothing, replaces bytes that are not
UTF-8, and reads on for options behind a lone dash that it has handed to ssh. These are
all the ways in which it loses something.
-/

namespace RustyAutossh

/-- The arguments are options and perhaps a separator, which the result reflects, and
behind them what the result gives to ssh. -/
def Lossless (argv : List OsString) (a : StrictArgs) : Prop :=
  ∃ units sep, argv = (units.flatMap StrictUnit.tokens ++ sep ++ a.sshArgs).map .utf8 ∧
    (sep = [] ∨ sep = ["--"]) ∧ a = denote units a.sshArgs

/-- The dashed tokens that stand where an option may stand, up to the separator or the
first token that is not dashed. -/
def heads : List String → List String
  | [] => []
  | tok :: rest =>
    if ¬Dashed tok then []
    else if tok = "--" then [tok]
    else if tok = "-M" then
      match rest with
      | [] => [tok]
      | _ :: rest => tok :: heads rest
    else tok :: heads rest

/-- The token is a flag that takes nothing with something attached to it. -/
def attached (tok : String) : Bool :=
  match tok.toList with
  | '-' :: '-' :: name => name.contains '='
  | '-' :: 'f' :: rest => !rest.isEmpty
  | '-' :: 'V' :: rest => !rest.isEmpty
  | _ => false

/-- The arguments are UTF-8, nothing is attached to a flag that takes nothing, and behind a
lone dash there is no other option. -/
def Plain (argv : List OsString) : Prop :=
  ∃ toks : List String, argv = toks.map .utf8 ∧ (∀ tok ∈ heads toks, attached tok = false) ∧
    ∀ tok ∈ (heads toks).dropWhile (· ≠ "-"), tok = "-"

example : heads ["-M", "-f", "-fX", "-", "--strict=1", "--", "-V"] =
    ["-M", "-fX", "-", "--strict=1", "--"] := by decide +kernel

/-- The tokens go on with lone dashes up to a token that can be the first one for ssh. -/
def Continues (toks : List String) : Prop :=
  ∀ tok ∈ (toks.dropWhile (· = "-")).head?, StartsSsh tok

/-- What may happen to a token where an option may stand, if the arguments are accepted. -/
inductive Accepted (tok : String) (rest : List String) (out a : StrictArgs) : Prop
  | separator : tok = "--" → a = { out with sshArgs := out.sshArgs ++ rest } →
      Accepted tok rest out a
  | bare : StartsSsh tok → a = { out with sshArgs := out.sshArgs ++ tok :: rest } →
      Accepted tok rest out a
  | dash : tok = "-" → parseArgvFrom (rest.map .utf8) false (out.pass "-") = .ok a →
      Accepted tok rest out a
  | monitorNext (v : String) (rest' : List String) : tok = "-M" → rest = v :: rest' →
      parseArgvFrom (rest'.map .utf8) false { out with monitor := some v } = .ok a →
      Accepted tok rest out a
  | flag (out' : StrictArgs) : Dashed tok → tok ≠ "--" → tok ≠ "-" → tok ≠ "-M" →
      out'.sshArgs = out.sshArgs → parseArgvFrom (rest.map .utf8) false out' = .ok a →
      (attached tok = false → ∃ u, u.tokens = [tok] ∧ out' = StrictUnit.apply out u) →
      Accepted tok rest out a

/-- A long option that is accepted is one of the toggles, with or without a value. -/
theorem accepted_long {tok : String} {name : List Char} {rest : List String}
    {out a : StrictArgs} (hcs : tok.toList = '-' :: '-' :: name)
    (h : parseArgvFrom ((tok :: rest).map .utf8) false out = .ok a) : Accepted tok rest out a := by
  rw [List.map_cons, parseArgvFrom_cons] at h
  simp only [tokenKind, hcs] at h
  split_ifs at h with hname htoggle
  · have htok : tok = "--" := by
      rw [← String.toList_inj, hcs, hname]
      rfl
    rw [parseArgvFrom_passthrough, map_toStringLossy_utf8] at h
    exact .separator htok (Except.ok.inj h).symm
  · have hne : tok ≠ "--" := ne_of_toList hcs (by simpa using Ne.symm hname)
    have hdash : tok ≠ "-" := ne_of_toList hcs (by simp)
    have hM : tok ≠ "-M" := ne_of_toList hcs (by simp)
    refine .flag out (congrArg List.head? hcs) hne hdash hM rfl h fun hplain => ?_
    have heq : '=' ∉ name := by simpa [attached, hcs] using hplain
    have htake : name.takeWhile (· ≠ '=') = name :=
      List.takeWhile_eq_self_iff.mpr fun c hc => decide_eq_true fun he => heq (he ▸ hc)
    rw [htake, List.contains_iff_mem, strictNoopLong] at htoggle
    simp only [List.mem_cons, List.not_mem_nil, or_false, ← String.toList_inj,
      String.toList_ofList] at htoggle
    rcases htoggle with rfl | rfl
    · have htok : tok = "--strict" := String.toList_inj.mp hcs
      exact ⟨.strict, by rw [htok]; rfl, rfl⟩
    · have htok : tok = "--no-strict" := String.toList_inj.mp hcs
      exact ⟨.noStrict, by rw [htok]; rfl, rfl⟩

/-- A short option that is accepted is one of the known ones. -/
theorem accepted_short {tok : String} {c : Char} {inline : List Char} {rest : List String}
    {out a : StrictArgs} (hcs : tok.toList = '-' :: c :: inline) (hc : c ≠ '-')
    (h : parseArgvFrom ((tok :: rest).map .utf8) false out = .ok a) : Accepted tok rest out a := by
  rw [List.map_cons, parseArgvFrom_cons, tokenKind_short hcs hc] at h
  have hdashed : Dashed tok := congrArg List.head? hcs
  have hsep : tok ≠ "--" := ne_of_toList hcs (by simp [Ne.symm hc])
  have hdash : tok ≠ "-" := ne_of_toList hcs (by simp)
  have hM {d : Char} (hd : c = d) (hne : d ≠ 'M') : tok ≠ "-M" :=
    ne_of_toList hcs (by simp [hd, Ne.symm hne])
  split_ifs at h with hone hMc hinline hf hV
  · refine .flag { out with oneShot := true } hdashed hsep hdash (hM hone.1 (by decide)) rfl h
      fun _ => ?_
    have htok : tok = "-1" := String.toList_inj.mp (by rw [hcs, hone.1, hone.2]; rfl)
    exact ⟨.oneShot, by rw [htok]; rfl, rfl⟩
  · have htok : tok = "-M" := String.toList_inj.mp (by rw [hcs, hMc, hinline]; rfl)
    cases rest with
    | nil => cases h
    | cons v rest => exact .monitorNext v rest htok rfl h
  · have hne : tok ≠ "-M" := ne_of_toList hcs (by simp [hMc, Ne.symm hinline])
    refine .flag { out with monitor := some (String.ofList inline) } hdashed hsep hdash hne rfl h
      fun _ => ?_
    have hv : String.ofList inline ≠ "" := by simpa using hinline
    have htok : tok = "-M" ++ String.ofList inline := by
      rw [← String.toList_inj, hcs, String.toList_append, String.toList_ofList (l := inline), hMc]
      rfl
    exact ⟨.monitorInline ⟨_, hv⟩, by rw [htok]; rfl, rfl⟩
  · refine .flag { out with background := true } hdashed hsep hdash (hM hf (by decide)) rfl h
      fun hplain => ?_
    have hnil : inline = [] := by simpa [attached, hcs, hf] using hplain
    have htok : tok = "-f" := String.toList_inj.mp (by rw [hcs, hf, hnil]; rfl)
    exact ⟨.background, by rw [htok]; rfl, rfl⟩
  · refine .flag { out with version := true } hdashed hsep hdash (hM hV (by decide)) rfl h
      fun hplain => ?_
    have hnil : inline = [] := by simpa [attached, hcs, hV] using hplain
    have htok : tok = "-V" := String.toList_inj.mp (by rw [hcs, hV, hnil]; rfl)
    exact ⟨.version, by rw [htok]; rfl, rfl⟩

/-- Every accepted token is accepted in one of five ways. -/
theorem accepted_of_ok {tok : String} {rest : List String} {out a : StrictArgs}
    (h : parseArgvFrom ((tok :: rest).map .utf8) false out = .ok a) : Accepted tok rest out a := by
  by_cases hdash : Dashed tok
  · obtain ⟨cs, hcs⟩ := List.head?_eq_some_iff.mp hdash
    cases cs with
    | nil =>
      have htok : tok = "-" := String.toList_inj.mp hcs
      subst htok
      exact .dash rfl h
    | cons c inline =>
      by_cases hc : c = '-'
      · subst hc
        exact accepted_long hcs h
      · exact accepted_short hcs hc h
  · have hbare : tok ≠ "completions" := by
      rintro rfl
      cases h
    rw [parseArgvFrom_bare ⟨hdash, hbare⟩] at h
    exact .bare ⟨hdash, hbare⟩ (Except.ok.inj h).symm

theorem heads_of_not_dashed {tok : String} (h : ¬Dashed tok) (rest : List String) :
    heads (tok :: rest) = [] := by
  rw [heads.eq_def]
  exact if_pos h

theorem heads_flag {tok : String} (h : Dashed tok) (hsep : tok ≠ "--") (hM : tok ≠ "-M")
    (rest : List String) : heads (tok :: rest) = tok :: heads rest := by
  rw [heads.eq_def]
  simp only [h, not_true_eq_false, hsep, hM, if_false]

theorem heads_separator (rest : List String) : heads ("--" :: rest) = ["--"] := by
  rw [heads.eq_def]
  rfl

theorem heads_monitorNext (v : String) (rest : List String) :
    heads ("-M" :: v :: rest) = "-M" :: heads rest := rfl

theorem heads_dash (rest : List String) : heads ("-" :: rest) = "-" :: heads rest :=
  heads_flag (by decide) (by decide) (by decide) rest

/-- Every argument of ssh comes from a token of its own. -/
theorem length_sshArgs_le {toks : List String} {out a : StrictArgs}
    (h : parseArgvFrom (toks.map .utf8) false out = .ok a) :
    a.sshArgs.length ≤ out.sshArgs.length + toks.length := by
  cases toks with
  | nil =>
    rw [← Except.ok.inj h]
    exact Nat.le_refl _
  | cons tok rest =>
    rw [List.length_cons]
    cases accepted_of_ok h with
    | separator _ ha =>
      rw [ha, List.length_append]
      omega
    | bare _ ha => rw [ha, List.length_append, List.length_cons]
    | dash _ hrest =>
      have := length_sshArgs_le hrest
      rw [StrictArgs.pass, List.length_append, List.length_singleton] at this
      omega
    | monitorNext v rest' _ hrest hok =>
      subst hrest
      have hle := length_sshArgs_le hok
      change a.sshArgs.length ≤ out.sshArgs.length + rest'.length at hle
      rw [List.length_cons]
      omega
    | flag out' _ _ _ _ hssh hok _ =>
      have := length_sshArgs_le hok
      rw [hssh] at this
      omega
termination_by toks.length
decreasing_by all_goals (subst_vars; simp only [List.length_cons]; omega)

theorem continues_dash {rest : List String} : Continues ("-" :: rest) ↔ Continues rest := by
  simp [Continues]

theorem continues_of_ne {tok : String} (h : tok ≠ "-") {rest : List String} :
    Continues (tok :: rest) ↔ StartsSsh tok := by
  simp [Continues, h]

theorem StartsSsh.ne_dash {tok : String} (h : StartsSsh tok) : tok ≠ "-" := by
  rintro rfl
  exact h.1 rfl

/-- Lone dashes up to a first token of ssh are handed over with all that follows. -/
theorem parseArgvFrom_continues {toks : List String} (h : Continues toks) (out : StrictArgs) :
    parseArgvFrom (toks.map .utf8) false out =
      .ok { out with sshArgs := out.sshArgs ++ toks } := by
  induction toks generalizing out with
  | nil => simp [parseArgvFrom]
  | cons tok rest ih =>
    by_cases htok : tok = "-"
    · subst htok
      rw [List.map_cons]
      refine (parseArgvFrom_cons "-" (rest.map .utf8) out).trans ?_
      refine (ih (continues_dash.mp h) (out.pass "-")).trans ?_
      simp [StrictArgs.pass]
    · exact parseArgvFrom_bare ((continues_of_ne htok).mp h) rest out

/-- Only such tokens are all handed over. -/
theorem continues_of_length {toks : List String} {out a : StrictArgs}
    (h : parseArgvFrom (toks.map .utf8) false out = .ok a)
    (hlen : a.sshArgs.length = out.sshArgs.length + toks.length) : Continues toks := by
  induction toks generalizing out with
  | nil => simp [Continues]
  | cons tok rest ih =>
    rw [List.length_cons] at hlen
    cases accepted_of_ok h with
    | separator _ ha =>
      rw [ha, List.length_append] at hlen
      omega
    | bare hstart _ => exact (continues_of_ne hstart.ne_dash).mpr hstart
    | dash htok hrest =>
      subst htok
      refine continues_dash.mpr (ih hrest ?_)
      rw [hlen, StrictArgs.pass, List.length_append, List.length_singleton]
      omega
    | monitorNext v rest' _ hrest hok =>
      have hle := length_sshArgs_le hok
      change a.sshArgs.length ≤ out.sshArgs.length + rest'.length at hle
      rw [hrest, List.length_cons] at hlen
      omega
    | flag out' _ _ _ _ hssh hok _ =>
      have := length_sshArgs_le hok
      rw [hssh] at this
      omega

/-- In such tokens only lone dashes stand where an option may stand. -/
theorem eq_dash_of_mem_heads {toks : List String} (h : Continues toks) :
    ∀ tok ∈ heads toks, tok = "-" := by
  induction toks with
  | nil => exact fun tok htok => absurd htok (List.not_mem_nil)
  | cons tok rest ih =>
    by_cases htok : tok = "-"
    · subst htok
      rw [heads_dash, List.forall_mem_cons]
      exact ⟨rfl, ih (continues_dash.mp h)⟩
    · rw [heads_of_not_dashed ((continues_of_ne htok).mp h).1]
      exact fun tok htok => absurd htok (List.not_mem_nil)

/-- Accepted tokens with only lone dashes where an option may stand are such tokens. -/
theorem continues_of_heads {toks : List String} {out a : StrictArgs}
    (h : parseArgvFrom (toks.map .utf8) false out = .ok a)
    (hheads : ∀ tok ∈ heads toks, tok = "-") : Continues toks := by
  induction toks generalizing out with
  | nil => simp [Continues]
  | cons tok rest ih =>
    cases accepted_of_ok h with
    | separator htok _ =>
      subst htok
      rw [heads_separator] at hheads
      exact absurd (hheads "--" List.mem_cons_self) (by decide)
    | bare hstart _ => exact (continues_of_ne hstart.ne_dash).mpr hstart
    | dash htok hrest =>
      subst htok
      rw [heads_dash, List.forall_mem_cons] at hheads
      exact continues_dash.mpr (ih hrest hheads.2)
    | monitorNext v rest' htok hrest _ =>
      subst htok hrest
      rw [heads_monitorNext] at hheads
      exact absurd (hheads "-M" List.mem_cons_self) (by decide)
    | flag out' hdashed hsep hdash hM _ _ _ =>
      rw [heads_flag hdashed hsep hM] at hheads
      exact absurd (hheads tok List.mem_cons_self) hdash

/-- A complete option stands where an option may stand as one token, which is no lone dash
and has nothing attached to it. -/
theorem heads_unit (u : StrictUnit) (rest : List String) :
    ∃ tok, heads (u.tokens ++ rest) = tok :: heads rest ∧ attached tok = false ∧ tok ≠ "-" := by
  cases u with
  | monitorNext v => exact ⟨"-M", heads_monitorNext v rest, by decide, by decide⟩
  | monitorInline v =>
    have hcs : ("-M" ++ v.val).toList = '-' :: 'M' :: v.val.toList := String.toList_append
    have hsep : "-M" ++ v.val ≠ "--" := ne_of_toList hcs (by simp)
    have hM : "-M" ++ v.val ≠ "-M" := fun he => v.2 (by simpa using he)
    have hdash : "-M" ++ v.val ≠ "-" := ne_of_toList hcs (by simp)
    refine ⟨_, heads_flag (congrArg List.head? hcs) hsep hM rest, ?_, hdash⟩
    simp only [attached, hcs]
    rfl
  | background => exact ⟨"-f", heads_flag (by decide) (by decide) (by decide) rest, rfl, by decide⟩
  | version => exact ⟨"-V", heads_flag (by decide) (by decide) (by decide) rest, rfl, by decide⟩
  | oneShot => exact ⟨"-1", heads_flag (by decide) (by decide) (by decide) rest, rfl, by decide⟩
  | strict =>
    exact ⟨"--strict", heads_flag (by decide) (by decide) (by decide) rest, rfl, by decide⟩
  | noStrict =>
    exact ⟨"--no-strict", heads_flag (by decide) (by decide) (by decide) rest, rfl, by decide⟩

theorem heads_units (units : List StrictUnit) (rest : List String) :
    ∃ toks, heads (units.flatMap StrictUnit.tokens ++ rest) = toks ++ heads rest ∧
      ∀ tok ∈ toks, attached tok = false ∧ tok ≠ "-" := by
  induction units with
  | nil => exact ⟨[], rfl, fun tok htok => absurd htok List.not_mem_nil⟩
  | cons u units ih =>
    obtain ⟨toks, heq, htoks⟩ := ih
    obtain ⟨tok, hu, htok⟩ := heads_unit u (units.flatMap StrictUnit.tokens ++ rest)
    refine ⟨tok :: toks, ?_, List.forall_mem_cons.mpr ⟨htok, htoks⟩⟩
    rw [List.flatMap_cons, List.append_assoc, hu, heq, List.cons_append]

/-- Options, perhaps a separator, and the arguments of ssh: how accepted plain tokens split. -/
theorem exists_split {toks : List String} {out a : StrictArgs}
    (h : parseArgvFrom (toks.map .utf8) false out = .ok a)
    (hattached : ∀ tok ∈ heads toks, attached tok = false)
    (hdash : ∀ tok ∈ (heads toks).dropWhile (· ≠ "-"), tok = "-") :
    ∃ (units : List StrictUnit) (sep ssh : List String),
      toks = units.flatMap StrictUnit.tokens ++ sep ++ ssh ∧ (sep = [] ∨ sep = ["--"]) ∧
      a = { units.foldl StrictUnit.apply out with sshArgs := out.sshArgs ++ ssh } := by
  cases toks with
  | nil => exact ⟨[], [], [], rfl, .inl rfl, by simpa [parseArgvFrom] using h.symm⟩
  | cons tok rest =>
    cases accepted_of_ok h with
    | separator htok ha => exact ⟨[], ["--"], rest, by rw [htok]; rfl, .inr rfl, ha⟩
    | bare _ ha => exact ⟨[], [], tok :: rest, rfl, .inl rfl, ha⟩
    | dash htok _ =>
      -- from a lone dash on there are only lone dashes, so all is handed over
      subst htok
      rw [heads_dash, List.dropWhile_cons_of_neg (by simp), ← heads_dash] at hdash
      have ha := (parseArgvFrom_continues (continues_of_heads h hdash) out).symm.trans h
      exact ⟨[], [], "-" :: rest, rfl, .inl rfl, (Except.ok.inj ha).symm⟩
    | monitorNext v rest' htok hrest hok =>
      subst htok hrest
      rw [heads_monitorNext, List.forall_mem_cons] at hattached
      rw [heads_monitorNext, List.dropWhile_cons_of_pos (by decide)] at hdash
      obtain ⟨units, sep, ssh, rfl, hsep, ha⟩ := exists_split hok hattached.2 hdash
      exact ⟨.monitorNext v :: units, sep, ssh, rfl, hsep, ha⟩
    | flag out' hdashed hne hnotDash hM hssh hok hunit =>
      rw [heads_flag hdashed hne hM, List.forall_mem_cons] at hattached
      rw [heads_flag hdashed hne hM, List.dropWhile_cons_of_pos (by simpa using hnotDash)] at hdash
      obtain ⟨u, hu, rfl⟩ := hunit hattached.1
      obtain ⟨units, sep, ssh, rfl, hsep, ha⟩ := exists_split hok hattached.2 hdash
      rw [hssh] at ha
      exact ⟨u :: units, sep, ssh, by rw [List.flatMap_cons, hu]; rfl, hsep, ha⟩
termination_by toks.length
decreasing_by all_goals (subst_vars; simp only [List.length_cons]; omega)

/-- Nothing is lost of plain arguments. -/
theorem Plain.lossless {argv : List OsString} {a : StrictArgs} (hplain : Plain argv)
    (h : parseArgv argv = .ok a) : Lossless argv a := by
  obtain ⟨toks, rfl, hattached, hdash⟩ := hplain
  obtain ⟨units, sep, ssh, rfl, hsep, ha⟩ := exists_split h hattached hdash
  have hssh : a.sshArgs = ssh := by rw [ha]; rfl
  refine ⟨units, sep, by rw [hssh], hsep, ?_⟩
  rw [ha, foldl_apply_empty]
  rfl

/-- Arguments of which nothing is lost are plain. -/
theorem Lossless.plain {argv : List OsString} {a : StrictArgs} (hlossless : Lossless argv a)
    (h : parseArgv argv = .ok a) : Plain argv := by
  obtain ⟨units, sep, rfl, hsep, ha⟩ := hlossless
  obtain ⟨toks, heads_eq, htoks⟩ := heads_units units (sep ++ a.sshArgs)
  have hdrop : ∀ tok ∈ toks, decide (tok ≠ "-") = true := fun tok htok =>
    decide_eq_true (htoks tok htok).2
  have hrest : (∀ tok ∈ heads (sep ++ a.sshArgs), attached tok = false) ∧
      ∀ tok ∈ (heads (sep ++ a.sshArgs)).dropWhile (· ≠ "-"), tok = "-" := by
    rcases hsep with rfl | rfl
    · rw [List.append_nil] at h
      have hssh := (parseArgv_commandLine units a.sshArgs).symm.trans h
      have hlone := eq_dash_of_mem_heads (continues_of_length hssh (Nat.zero_add _).symm)
      rw [List.nil_append]
      refine ⟨fun tok htok => ?_, fun tok htok => ?_⟩
      · rw [hlone tok htok]
        rfl
      · exact hlone tok ((List.dropWhile_sublist _).mem htok)
    · rw [List.singleton_append, heads_separator]
      exact ⟨by decide, by decide⟩
  refine ⟨_, rfl, ?_⟩
  rw [List.append_assoc, heads_eq, List.dropWhile_append_of_pos hdrop]
  refine ⟨fun tok htok => ?_, hrest.2⟩
  rcases List.mem_append.mp htok with hunit | htail
  · exact (htoks tok hunit).1
  · exact hrest.1 tok htail

/-- Of the command lines it accepts, strict parsing loses nothing of exactly the plain ones. -/
theorem parseArgv_lossless_iff {argv : List OsString} {a : StrictArgs}
    (h : parseArgv argv = .ok a) : Lossless argv a ↔ Plain argv :=
  ⟨fun hlossless => hlossless.plain h, fun hplain => hplain.lossless h⟩

/-- A monitor value, a flag and a separator. -/
theorem parseArgv_lossless_iff_separator :
    Lossless [.utf8 "-M", .utf8 "0", .utf8 "-f", .utf8 "--", .utf8 "-X"]
      ⟨some "0", true, false, false, ["-X"]⟩ :=
  (parseArgv_lossless_iff (by rfl)).mpr
    ⟨["-M", "0", "-f", "--", "-X"], rfl, by decide +kernel, by decide +kernel⟩

/-- `-fX` is accepted, and nothing of the result reflects its last character. -/
theorem parseArgv_loses_attached :
    parseArgv [.utf8 "-fX", .utf8 "host"] = .ok ⟨none, true, false, false, ["host"]⟩ ∧
      ¬Lossless [.utf8 "-fX", .utf8 "host"] ⟨none, true, false, false, ["host"]⟩ := by
  refine ⟨rfl, fun h => ?_⟩
  obtain ⟨toks, heq, hattached, -⟩ := h.plain rfl
  have htoks : toks = ["-fX", "host"] :=
    List.map_injective_iff.mpr (fun s t hst => OsString.utf8.inj hst) heq.symm
  rw [htoks] at hattached
  exact absurd (hattached "-fX" (by decide +kernel)) (by decide)

end RustyAutossh
