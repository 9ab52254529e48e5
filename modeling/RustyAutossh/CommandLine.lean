import Mathlib.Data.List.Basic

/-!
# Command lines of Windows

A program gets its arguments as one string of UTF-16 units and splits it by the rules of
the Microsoft C runtime. The program name is quoted without escapes. Elsewhere `2n`
backslashes before a quote stand for `n` and the quote toggles quoting, `2n + 1` stand for
`n` and a quote of the text, and blanks that are not quoted separate the arguments.
-/

namespace CommandLine

/-- The unit of a double quote. -/
def quote : UInt16 := 0x22

/-- The unit of a backslash. -/
def backslash : UInt16 := 0x5C

/-- The unit of a space. -/
def space : UInt16 := 0x20

/-- The units that separate arguments: the space and the tab. -/
def isBlank (c : UInt16) : Bool := c = space || c = 0x09

/-- An argument that has begun, with the backslashes that may still belong to a quote. -/
structure Begun where
  text : List UInt16 := []
  slashes : Nat := 0
  quoted : Bool := false

/-- The text of an argument that ends here. -/
def Begun.close (p : Begun) : List UInt16 := p.text ++ List.replicate p.slashes backslash

/-- The program name, up to the first blank that is not quoted, and what follows it. -/
def parseProgram : List UInt16 → Bool → List UInt16 × List UInt16
  | [], _ => ([], [])
  | c :: cs, quoted =>
    if c = quote then parseProgram cs !quoted
    else if isBlank c && !quoted then ([], cs)
    else (c :: (parseProgram cs quoted).1, (parseProgram cs quoted).2)

/-- The arguments from somewhere in the line on. -/
def parseArguments : List UInt16 → Option Begun → List (List UInt16)
  | [], none => []
  | [], some p => [p.close]
  | c :: cs, begun =>
    if begun.isNone && isBlank c then parseArguments cs none
    else
      let p := begun.getD {}
      if c = backslash then parseArguments cs (some { p with slashes := p.slashes + 1 })
      else if c = quote then
        let text := p.text ++ List.replicate (p.slashes / 2) backslash
        if p.slashes % 2 = 0 then parseArguments cs (some ⟨text, 0, !p.quoted⟩)
        else parseArguments cs (some ⟨text ++ [quote], 0, p.quoted⟩)
      else if isBlank c && !p.quoted then p.close :: parseArguments cs none
      else parseArguments cs (some ⟨p.close ++ [c], 0, p.quoted⟩)

/-- The program and the arguments of a line. -/
def parse (line : List UInt16) : List (List UInt16) :=
  (parseProgram line false).1 :: parseArguments (parseProgram line false).2 none

/-- An argument in quotes, as it is. -/
def quoted (arg : List UInt16) : List UInt16 := quote :: (arg ++ [quote])

/-- Quoted arguments, each behind a space. -/
def quotedArguments (args : List (List UInt16)) : List UInt16 :=
  args.flatMap fun arg => space :: quoted arg

/-- The text has no quote and does not end in a backslash. -/
def Plain (arg : List UInt16) : Prop := quote ∉ arg ∧ arg.getLast? ≠ some backslash

theorem not_isBlank_quote : isBlank quote = false := by decide

theorem not_isBlank_backslash : isBlank backslash = false := by decide

/-- Within quotes a program name is read as it is. -/
theorem parseProgram_text {exe : List UInt16} (h : quote ∉ exe) (rest : List UInt16) :
    parseProgram (exe ++ rest) true =
      (exe ++ (parseProgram rest true).1, (parseProgram rest true).2) := by
  induction exe with
  | nil => rfl
  | cons c exe ih =>
    have hc : c ≠ quote := fun he => h (he ▸ List.mem_cons_self)
    rw [List.cons_append, parseProgram, if_neg hc, ih (List.not_mem_of_not_mem_cons h)]
    simp

/-- A quoted program name without quotes is read back, and the blank behind it dropped. -/
theorem parseProgram_quoted {exe rest : List UInt16} (h : quote ∉ exe)
    (hrest : ∀ c ∈ rest.head?, isBlank c = true) :
    parseProgram (quoted exe ++ rest) false = (exe, rest.tail) := by
  have hend : parseProgram (quote :: rest) true = ([], rest.tail) := by
    cases rest with
    | nil => rfl
    | cons c rest =>
      have hblank : isBlank c = true := hrest c rfl
      have hc : c ≠ quote := by
        rintro rfl
        cases not_isBlank_quote.symm.trans hblank
      simp [parseProgram, hc, hblank]
  have hopen : parseProgram (quoted exe ++ rest) false =
      parseProgram (exe ++ quote :: rest) true := by
    rw [quoted, List.cons_append, parseProgram, if_pos rfl, List.append_assoc]
    rfl
  rw [hopen, parseProgram_text h, hend, List.append_nil]

/-- A blank between arguments is skipped. -/
theorem parseArguments_blank {c : UInt16} (h : isBlank c = true) (cs : List UInt16) :
    parseArguments (c :: cs) none = parseArguments cs none := by
  rw [parseArguments]
  simp [h]

/-- Any other unit begins an argument. -/
theorem parseArguments_begin {c : UInt16} (h : isBlank c = false) (cs : List UInt16) :
    parseArguments (c :: cs) none = parseArguments (c :: cs) (some {}) := by
  simp only [parseArguments, h, Bool.and_false, Option.isNone_some, Bool.false_eq_true, if_false,
    Option.getD_none, Option.getD_some]

theorem parseArguments_backslash (cs : List UInt16) (p : Begun) :
    parseArguments (backslash :: cs) (some p) =
      parseArguments cs (some { p with slashes := p.slashes + 1 }) := by
  simp [parseArguments]

theorem parseArguments_quote (cs : List UInt16) (p : Begun) :
    parseArguments (quote :: cs) (some p) =
      if p.slashes % 2 = 0 then
        parseArguments cs
          (some ⟨p.text ++ List.replicate (p.slashes / 2) backslash, 0, !p.quoted⟩)
      else
        parseArguments cs
          (some ⟨p.text ++ List.replicate (p.slashes / 2) backslash ++ [quote], 0, p.quoted⟩) := by
  have hne : quote ≠ backslash := by decide
  simp [parseArguments, hne]

theorem parseArguments_other {c : UInt16} (hslash : c ≠ backslash) (hquote : c ≠ quote)
    (cs : List UInt16) (p : Begun) :
    parseArguments (c :: cs) (some p) =
      if isBlank c && !p.quoted then p.close :: parseArguments cs none
      else parseArguments cs (some ⟨p.close ++ [c], 0, p.quoted⟩) := by
  simp only [parseArguments, Option.isNone_some, Bool.false_and, Bool.false_eq_true, if_false,
    Option.getD_some, hslash, hquote]

/-- Within quotes a text without quotes is read as it is; backslashes are left pending only
behind a text that ends in one. -/
theorem parseArguments_text {arg : List UInt16} (h : quote ∉ arg) (p : Begun)
    (hp : p.quoted = true) (rest : List UInt16) :
    ∃ q : Begun, parseArguments (arg ++ rest) (some p) = parseArguments rest (some q) ∧
      q.quoted = true ∧ q.close = p.close ++ arg ∧
      (q.slashes ≠ 0 → (arg = [] ∧ q = p) ∨ arg.getLast? = some backslash) := by
  induction arg generalizing p with
  | nil => exact ⟨p, rfl, hp, (List.append_nil _).symm, fun _ => .inl ⟨rfl, rfl⟩⟩
  | cons c arg ih =>
    have hquote : c ≠ quote := fun he => h (he ▸ List.mem_cons_self)
    have harg : quote ∉ arg := List.not_mem_of_not_mem_cons h
    by_cases hslash : c = backslash
    · subst hslash
      obtain ⟨q, hq, hquoted, hclose, hlast⟩ := ih harg { p with slashes := p.slashes + 1 } hp
      refine ⟨q, ?_, hquoted, ?_, fun hne => .inr ?_⟩
      · rw [List.cons_append, parseArguments_backslash, hq]
      · rw [hclose]
        simp [Begun.close, List.replicate_succ']
      · rcases hlast hne with ⟨rfl, -⟩ | hlast
        · rfl
        · rw [List.getLast?_cons, hlast]
          rfl
    · obtain ⟨q, hq, hquoted, hclose, hlast⟩ := ih harg ⟨p.close ++ [c], 0, p.quoted⟩ hp
      refine ⟨q, ?_, hquoted, ?_, fun hne => ?_⟩
      · rw [List.cons_append, parseArguments_other hslash hquote, hp]
        simpa [hp] using hq
      · rw [hclose]
        simp [Begun.close]
      · rcases hlast hne with ⟨rfl, rfl⟩ | hlast
        · exact absurd rfl hne
        · refine .inr ?_
          rw [List.getLast?_cons, hlast]
          rfl

/-- A plain argument in quotes is read back, if the line ends there or goes on with a blank. -/
theorem parseArguments_quoted {arg rest : List UInt16} (h : Plain arg)
    (hrest : ∀ c ∈ rest.head?, isBlank c = true) :
    parseArguments (quoted arg ++ rest) none = arg :: parseArguments rest none := by
  obtain ⟨q, hq, hquoted, hclose, hlast⟩ :=
    parseArguments_text h.1 ⟨[], 0, true⟩ rfl (quote :: rest)
  have hslashes : q.slashes = 0 := by
    by_contra hne
    rcases hlast hne with ⟨-, rfl⟩ | hlast
    · exact hne rfl
    · exact h.2 hlast
  have htext : q.text = arg := by
    rw [Begun.close, hslashes] at hclose
    simpa [Begun.close] using hclose
  have hopen : parseArguments (quoted arg ++ rest) none =
      parseArguments (arg ++ quote :: rest) (some ⟨[], 0, true⟩) := by
    rw [quoted, List.cons_append, parseArguments_begin not_isBlank_quote, parseArguments_quote,
      List.append_assoc]
    rfl
  rw [hopen, hq, parseArguments_quote, hslashes, if_pos rfl, htext, hquoted]
  cases rest with
  | nil => simp [parseArguments, Begun.close]
  | cons c rest =>
    have hblank : isBlank c = true := hrest c rfl
    have hc : c ≠ quote := by
      rintro rfl
      cases not_isBlank_quote.symm.trans hblank
    have hc' : c ≠ backslash := by
      rintro rfl
      cases not_isBlank_backslash.symm.trans hblank
    rw [parseArguments_other hc' hc, parseArguments_blank hblank]
    simp [hblank, Begun.close]

/-- Quoted arguments begin with a blank, if there are any. -/
theorem isBlank_of_mem_head? (args : List (List UInt16)) :
    ∀ c ∈ (quotedArguments args).head?, isBlank c = true := by
  cases args with
  | nil => simp [quotedArguments]
  | cons arg args =>
    rintro c hc
    obtain rfl := Option.some.inj hc
    rfl

/-- Plain arguments in quotes are read back. -/
theorem parseArguments_quotedArguments {args : List (List UInt16)} (h : ∀ arg ∈ args, Plain arg) :
    parseArguments (quotedArguments args) none = args := by
  induction args with
  | nil => rfl
  | cons arg args ih =>
    have hcons : quotedArguments (arg :: args) =
        space :: (quoted arg ++ quotedArguments args) := rfl
    rw [hcons, parseArguments_blank (by decide),
      parseArguments_quoted (h arg List.mem_cons_self) (isBlank_of_mem_head? args),
      ih fun a ha => h a (List.mem_cons_of_mem _ ha)]

/-- No quote has a backslash before it, given whether one precedes the line. -/
def Unescaped : List UInt16 → Bool → Prop
  | [], _ => True
  | c :: cs, after => (c = quote → after = false) ∧ Unescaped cs (c = backslash)

theorem Unescaped.of_append {xs ys : List UInt16} {after : Bool}
    (h : Unescaped (xs ++ ys) after) : ∃ after', Unescaped ys after' := by
  induction xs generalizing after with
  | nil => exact ⟨after, h⟩
  | cons c xs ih => exact ih h.2

/-- No text of such a line has a backslash right before a quote. -/
theorem not_unescaped {xs ys : List UInt16} {after : Bool} :
    ¬Unescaped (xs ++ backslash :: quote :: ys) after := by
  intro h
  obtain ⟨after', h'⟩ := h.of_append
  exact absurd (h'.2.1 rfl) (by decide)

/-- A unit that is neither begins no pair of the two. -/
private theorem Unescaped.cons {c : UInt16} {cs : List UInt16} {after : Bool}
    (h : Unescaped cs false) (hslash : c ≠ backslash) (hquote : c ≠ quote) :
    Unescaped (c :: cs) after := by
  refine ⟨fun hq => absurd hq hquote, ?_⟩
  rw [decide_eq_false hslash]
  exact h

theorem count_close (p : Begun) : p.close.count backslash = p.text.count backslash + p.slashes ∧
    p.close.count quote = p.text.count quote := by
  have hne : backslash ≠ quote := by decide
  simp [Begun.close, List.count_append, List.count_replicate, hne]

/-- What reading a line does to the backslashes: none is added to those of the line and of
the argument that has begun. Where none is taken away, no quote of the line is escaped, so
none becomes part of an argument. -/
structure Keeps (cs : List UInt16) (p : Begun) (out : List (List UInt16)) : Prop where
  le : out.flatten.count backslash ≤ cs.count backslash + (p.text.count backslash + p.slashes)
  eq : out.flatten.count backslash = cs.count backslash + (p.text.count backslash + p.slashes) →
    Unescaped cs (decide (0 < p.slashes)) ∧ out.flatten.count quote = p.text.count quote

section Keeps

variable {cs : List UInt16} {p : Begun} {out : List (List UInt16)}

/-- A backslash is kept pending. -/
theorem Keeps.cons_backslash (h : Keeps cs { p with slashes := p.slashes + 1 } out) :
    Keeps (backslash :: cs) p out := by
  obtain ⟨hle, heq⟩ := h
  simp only at hle heq
  have hcount : (backslash :: cs).count backslash = cs.count backslash + 1 :=
    List.count_cons_self
  refine ⟨by omega, fun he => ?_⟩
  obtain ⟨hunescaped, hquotes⟩ := heq (by omega)
  exact ⟨⟨fun hq => absurd hq (by decide), by simpa using hunescaped⟩, hquotes⟩

/-- Behind an even number of backslashes a quote toggles, and halves them. -/
theorem Keeps.cons_quote {quoted : Bool}
    (h : Keeps cs ⟨p.text ++ List.replicate (p.slashes / 2) backslash, 0, quoted⟩ out) :
    Keeps (quote :: cs) p out := by
  obtain ⟨hle, heq⟩ := h
  simp only [List.count_append, List.count_replicate_self] at hle heq
  have hne : quote ≠ backslash := by decide
  have hcount : (quote :: cs).count backslash = cs.count backslash := List.count_cons_of_ne hne
  refine ⟨by omega, fun he => ?_⟩
  obtain ⟨hunescaped, hquotes⟩ := heq (by omega)
  have hzero : p.slashes = 0 := by omega
  rw [hzero] at hquotes ⊢
  refine ⟨⟨fun _ => rfl, ?_⟩, by simpa using hquotes⟩
  rw [decide_eq_false hne]
  exact hunescaped

/-- Behind an odd number of backslashes a quote belongs to the text, and one is lost. -/
theorem Keeps.cons_escaped {quoted : Bool} (hodd : p.slashes % 2 ≠ 0)
    (h : Keeps cs ⟨p.text ++ List.replicate (p.slashes / 2) backslash ++ [quote], 0, quoted⟩ out) :
    Keeps (quote :: cs) p out := by
  obtain ⟨hle, -⟩ := h
  have hne : quote ≠ backslash := by decide
  simp only [List.count_append, List.count_replicate_self, List.count_singleton,
    beq_eq_false_iff_ne.mpr hne, Bool.false_eq_true, if_false] at hle
  have hcount : (quote :: cs).count backslash = cs.count backslash := List.count_cons_of_ne hne
  exact ⟨by omega, fun he => by omega⟩

/-- A unit that is neither moves what has begun on without adding to what is counted. -/
private theorem Keeps.cons_ordinary {c : UInt16} {q : Begun} (hslash : c ≠ backslash)
    (hquote : c ≠ quote) (h : Keeps cs q out) (hslashes : q.slashes = 0)
    (hkept : q.text.count backslash = p.text.count backslash + p.slashes)
    (hquotes : q.text.count quote = p.text.count quote) : Keeps (c :: cs) p out := by
  obtain ⟨hle, heq⟩ := h
  rw [hkept, hslashes] at hle heq
  have hcount : (c :: cs).count backslash = cs.count backslash := List.count_cons_of_ne hslash
  refine ⟨by omega, fun he => ?_⟩
  obtain ⟨hunescaped, hsame⟩ := heq (by omega)
  exact ⟨hunescaped.cons hslash hquote, hsame.trans hquotes⟩

/-- Any other unit of the text keeps the pending backslashes. -/
theorem Keeps.cons_other {c : UInt16} {quoted : Bool} (hslash : c ≠ backslash) (hquote : c ≠ quote)
    (h : Keeps cs ⟨p.close ++ [c], 0, quoted⟩ out) : Keeps (c :: cs) p out := by
  have hclose := count_close p
  refine h.cons_ordinary hslash hquote rfl ?_ ?_
  · simp [hslash, hclose.1]
  · simp [hquote, hclose.2]

/-- A blank that no argument has begun before is skipped. -/
theorem Keeps.cons_skipped {c : UInt16} (hslash : c ≠ backslash) (hquote : c ≠ quote)
    (h : Keeps cs {} out) : Keeps (c :: cs) {} out :=
  h.cons_ordinary hslash hquote rfl rfl rfl

/-- A blank that ends an argument keeps its pending backslashes. -/
theorem Keeps.cons_blank {c : UInt16} (hslash : c ≠ backslash) (hquote : c ≠ quote)
    (h : Keeps cs {} out) : Keeps (c :: cs) p (p.close :: out) := by
  obtain ⟨hle, heq⟩ := h
  have hclose := count_close p
  simp only [List.count_nil, Nat.add_zero] at hle heq
  have hcount : (c :: cs).count backslash = cs.count backslash := List.count_cons_of_ne hslash
  constructor
  · rw [List.flatten_cons, List.count_append, hclose.1]
    omega
  · intro he
    rw [List.flatten_cons, List.count_append, hclose.1] at he
    obtain ⟨hunescaped, hquotes⟩ := heq (by omega)
    refine ⟨hunescaped.cons hslash hquote, ?_⟩
    rw [List.flatten_cons, List.count_append, hclose.2, hquotes, Nat.add_zero]

end Keeps

/-- Reading a line keeps backslashes so, from whatever state. -/
theorem keeps_parseArguments (cs : List UInt16) (begun : Option Begun) :
    Keeps cs (begun.getD {}) (parseArguments cs begun) := by
  induction cs generalizing begun with
  | nil =>
    cases begun with
    | none => exact ⟨Nat.zero_le _, fun _ => ⟨trivial, rfl⟩⟩
    | some p =>
      have hclose := count_close p
      refine ⟨?_, fun _ => ⟨trivial, ?_⟩⟩
      · simp [parseArguments, hclose]
      · simp [parseArguments, hclose]
  | cons c cs ih =>
    have hsome (p : Begun) : Keeps (c :: cs) p (parseArguments (c :: cs) (some p)) := by
      by_cases hslash : c = backslash
      · subst hslash
        rw [parseArguments_backslash]
        exact (ih (some _)).cons_backslash
      · by_cases hquote : c = quote
        · subst hquote
          rw [parseArguments_quote]
          split
          · exact (ih (some _)).cons_quote
          · rename_i hodd
            exact (ih (some _)).cons_escaped hodd
        · rw [parseArguments_other hslash hquote]
          split
          · exact (ih none).cons_blank hslash hquote
          · exact (ih (some _)).cons_other hslash hquote
    cases begun with
    | some p => exact hsome p
    | none =>
      by_cases hblank : isBlank c = true
      · have hslash : c ≠ backslash := by
          rintro rfl
          cases hblank
        have hquote : c ≠ quote := by
          rintro rfl
          cases hblank
        rw [parseArguments_blank hblank]
        exact (ih none).cons_skipped hslash hquote
      · rw [parseArguments_begin (by simpa using hblank)]
        exact hsome {}

theorem count_quotedArguments (args : List (List UInt16)) :
    (quotedArguments args).count backslash = args.flatten.count backslash := by
  have hspace : space ≠ backslash := by decide
  have hquote : quote ≠ backslash := by decide
  induction args with
  | nil => rfl
  | cons arg args ih =>
    have hcons : quotedArguments (arg :: args) =
        space :: (quote :: (arg ++ quote :: quotedArguments args)) := by
      simp [quotedArguments, quoted]
    rw [hcons, List.count_cons_of_ne hspace, List.count_cons_of_ne hquote, List.count_append,
      List.count_cons_of_ne hquote, ih, List.flatten_cons, List.count_append]

/-- Arguments that are read back from quotes are plain. -/
theorem plain_of_parseArguments {args : List (List UInt16)}
    (h : parseArguments (quotedArguments args) none = args) : ∀ arg ∈ args, Plain arg := by
  have hkeeps := keeps_parseArguments (quotedArguments args) none
  rw [h] at hkeeps
  have hcount := count_quotedArguments args
  obtain ⟨hunescaped, hquotes⟩ := hkeeps.eq (by rw [hcount]; rfl)
  intro arg harg
  constructor
  · intro hquote
    have hmem : quote ∈ args.flatten := List.mem_flatten.mpr ⟨arg, harg, hquote⟩
    exact List.count_eq_zero.mp hquotes hmem
  · intro hlast
    obtain ⟨init, rfl⟩ := List.getLast?_eq_some_iff.mp hlast
    obtain ⟨before, after, rfl⟩ := List.append_of_mem harg
    have hsplit : quotedArguments (before ++ (init ++ [backslash]) :: after) =
        (quotedArguments before ++ space :: quote :: init) ++
          backslash :: quote :: quotedArguments after := by
      simp [quotedArguments, quoted]
    rw [hsplit] at hunescaped
    exact not_unescaped hunescaped

/-- A quoted program and quoted arguments are read back exactly where the arguments are plain. -/
theorem parse_quoted_iff {exe : List UInt16} (h : quote ∉ exe) (args : List (List UInt16)) :
    parse (quoted exe ++ quotedArguments args) = exe :: args ↔ ∀ arg ∈ args, Plain arg := by
  have hrest : parseArguments (quotedArguments args).tail none =
      parseArguments (quotedArguments args) none := by
    cases args with
    | nil => rfl
    | cons arg args => exact (parseArguments_blank (by decide) _).symm
  rw [parse, parseProgram_quoted h (isBlank_of_mem_head? args), hrest, List.cons_inj_right]
  exact ⟨plain_of_parseArguments, parseArguments_quotedArguments⟩

end CommandLine
