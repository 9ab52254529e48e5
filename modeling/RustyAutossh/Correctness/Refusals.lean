import RustyAutossh.Correctness.Grammar

/-!
# Where strict parsing fails

The parser stops at the first token it cannot take where an option may stand. What it has read
until then it would have accepted, and the error speaks of that token only.
-/

namespace RustyAutossh

/-- A token that ends the parse, with what follows it. -/
inductive Offends (tok : String) (post : List OsString) : StrictError → Prop
  | refused {e : StrictError} : tokenKind tok = .refused e → Offends tok post e
  | noValue : tokenKind tok = .monitorNext → post = [] → Offends tok post (.missingValue 'M')

/-- The line of a refused token names it. -/
theorem message_of_refused {tok : String} {e : StrictError} (h : tokenKind tok = .refused e) :
    e.message = formatUnknownFlag tok := by
  unfold tokenKind at h
  split at h
  · cases h
  · split_ifs at h
    cases h
    rfl
  · split_ifs at h
    cases h
    rfl
  · split_ifs at h
    cases h
    rfl

/-- Only `-M` takes the next token. -/
theorem eq_of_monitorNext {tok : String} (h : tokenKind tok = .monitorNext) : tok = "-M" := by
  unfold tokenKind at h
  split at h
  · cases h
  · split_ifs at h
  · rename_i c inline hno heq
    split_ifs at h with h1 hM hinline
    rw [← String.toList_inj, heq, hM, hinline]
    rfl
  · split_ifs at h

/-- A token that is not UTF-8 is handed over, and an option may stand behind it. -/
theorem parseArgvFrom_other (bytes : List UInt8) (rest : List OsString) (out : StrictArgs) :
    parseArgvFrom (.other bytes :: rest) false out =
      parseArgvFrom rest false (out.pass (OsString.other bytes).toStringLossy) := by
  rw [parseArgvFrom.eq_def]
  rfl

/-- The tokens are read one after the other, and an option may stand behind them. -/
def Reads (out : StrictArgs) (pre : List OsString) (out' : StrictArgs) : Prop :=
  ∀ rest, parseArgvFrom (pre ++ rest) false out = parseArgvFrom rest false out'

theorem Reads.nil (out : StrictArgs) : Reads out [] out := fun _ => rfl

theorem Reads.append {out out₁ out₂ : StrictArgs} {pre pre' : List OsString}
    (h : Reads out pre out₁) (h' : Reads out₁ pre' out₂) : Reads out (pre ++ pre') out₂ := by
  intro rest
  rw [List.append_assoc, h, h']

/-- What is read is accepted. -/
theorem Reads.ok {out out' : StrictArgs} {pre : List OsString} (h : Reads out pre out') :
    parseArgvFrom pre false out = .ok out' := by
  have hnil := h []
  rw [List.append_nil] at hnil
  rw [hnil, parseArgvFrom]

/-- An offending token behind what is read, in an argument list that ends in the error. -/
def Located (argv : List OsString) (out : StrictArgs) (e : StrictError) : Prop :=
  ∃ pre tok post out', argv = pre ++ .utf8 tok :: post ∧ Reads out pre out' ∧ Offends tok post e

/-- Reading more does not move it. -/
theorem Located.of_reads (pre : List OsString) {rest : List OsString} {out out' : StrictArgs}
    {e : StrictError} (h : Located rest out' e) (hreads : Reads out pre out') :
    Located (pre ++ rest) out e := by
  obtain ⟨pre', tok, post, out'', rfl, hreads', hoffends⟩ := h
  exact ⟨pre ++ pre', tok, post, out'', by simp, hreads.append hreads', hoffends⟩

/-- An argument list that is refused has an offending token. -/
theorem located_of_error {argv : List OsString} {out : StrictArgs} {e : StrictError}
    (h : parseArgvFrom argv false out = .error e) : Located argv out e := by
  cases argv with
  | nil => cases h
  | cons raw rest =>
    cases raw with
    | other bytes =>
      rw [parseArgvFrom_other] at h
      exact (located_of_error h).of_reads [.other bytes] fun rest' =>
        parseArgvFrom_other bytes rest' out
    | utf8 tok =>
      have hcons (rest' : List OsString) := parseArgvFrom_cons tok rest' out
      rw [hcons] at h
      cases hkind : tokenKind tok with
      | separator =>
        rw [hkind] at h
        cases (parseArgvFrom_passthrough rest out).symm.trans h
      | bare =>
        rw [hkind] at h
        cases (parseArgvFrom_passthrough rest (out.pass tok)).symm.trans h
      | refused e' =>
        rw [hkind] at h
        cases h
        exact ⟨[], tok, rest, out, rfl, .nil out, .refused hkind⟩
      | monitorNext =>
        rw [hkind] at h
        cases rest with
        | nil =>
          cases h
          exact ⟨[], tok, [], out, rfl, .nil out, .noValue hkind rfl⟩
        | cons val rest =>
          exact (located_of_error h).of_reads [.utf8 tok, val] fun rest' =>
            (hcons (val :: rest')).trans (by rw [hkind])
      | toggle | dash | oneShot | background | version | monitorInline v =>
        -- a complete option: the next one is read in the same place
        rw [hkind] at h
        exact (located_of_error h).of_reads [.utf8 tok] fun rest' =>
          (hcons rest').trans (by rw [hkind])
termination_by argv.length
decreasing_by all_goals (subst_vars; simp only [List.length_cons]; omega)

/-- A strict command line that is refused is refused at one token. What stands before it would
be accepted, and the line of the error names the token and is the same whatever follows; or the
token is an `-M` at the end, which any value would complete. -/
theorem parseArgv_refused_at {argv : List OsString} {e : StrictError}
    (h : parseArgv argv = .error e) : ∃ pre tok post,
      argv = pre ++ .utf8 tok :: post ∧ (∃ a, parseArgv pre = .ok a) ∧
      (e.message = formatUnknownFlag tok ∧
          (∀ post', parseArgv (pre ++ .utf8 tok :: post') = .error e) ∨
        e = .missingValue 'M' ∧ tok = "-M" ∧ post = [] ∧
          ∀ v, ∃ a, parseArgv (pre ++ [.utf8 tok, v]) = .ok a) := by
  obtain ⟨pre, tok, post, out, rfl, hreads, hoffends⟩ := located_of_error h
  refine ⟨pre, tok, post, rfl, ⟨out, hreads.ok⟩, ?_⟩
  cases hoffends with
  | refused hkind =>
    refine .inl ⟨message_of_refused hkind, fun post' => ?_⟩
    rw [parseArgv, hreads, parseArgvFrom_cons, hkind]
  | noValue hkind hpost =>
    refine .inr ⟨rfl, eq_of_monitorNext hkind, hpost, fun v => ?_⟩
    rw [parseArgv, hreads, parseArgvFrom_cons, hkind]
    exact ⟨_, rfl⟩

/-- Behind a value that looks like a flag and a lone dash, an excluded flag. -/
theorem parseArgv_refused_at_excluded : ∃ (pre : List OsString) (tok : String)
    (post : List OsString),
    ["-M", "-X", "-", "-D", "1080"].map .utf8 = pre ++ .utf8 tok :: post ∧
      (∃ a, parseArgv pre = .ok a) ∧
      formatUnknownFlag tok = "autossh: invalid option -- 'D'" := by
  have herror : parseArgv (["-M", "-X", "-", "-D", "1080"].map .utf8) =
    .error (.unknownShort "autossh: invalid option -- 'D'") := by decide +kernel
  obtain ⟨pre, tok, post, heq, hok, ⟨hline, -⟩ | ⟨hmissing, -⟩⟩ := parseArgv_refused_at herror
  · exact ⟨pre, tok, post, heq, hok, hline.symm⟩
  · cases hmissing

end RustyAutossh
