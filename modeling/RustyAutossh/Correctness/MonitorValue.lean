import RustyAutossh.Correctness.Overrides
import RustyAutossh.Source.Main

/-!
# The value of `-M`

A value is a port, or a port and an echo port with a colon between them, each in decimal and
perhaps behind a plus sign. A port of zero is read as no monitor, but the echo port behind it
still has to be one. A value that is not of this form is refused for one of its two parts.
-/

namespace RustyAutossh

/-- A nonempty run of digits has this value. -/
def Digits (cs : List Char) (n : Nat) : Prop :=
  cs ≠ [] ∧ (∀ c ∈ cs, c.isDigit = true) ∧ Nat.ofDigitChars 10 cs 0 = n

/-- The text is a number in decimal, perhaps behind a plus sign. -/
def Numeral (s : String) (n : Nat) : Prop :=
  ∃ cs : List Char, (s.toList = cs ∨ s.toList = '+' :: cs) ∧ Digits cs n

theorem parseDigits_eq_some_iff {cs : List Char} {n : Nat} :
    parseDigits cs = some n ↔ Digits cs n := by
  unfold parseDigits Digits
  by_cases h : cs ≠ [] ∧ cs.all Char.isDigit = true
  · rw [if_pos h, Option.some.injEq]
    exact ⟨fun hn => ⟨h.1, List.all_eq_true.mp h.2, hn⟩, fun hn => hn.2.2⟩
  · rw [if_neg h]
    exact ⟨fun hn => (by cases hn), fun hn => absurd ⟨hn.1, List.all_eq_true.mpr hn.2.1⟩ h⟩

/-- A run of digits has no other character. -/
theorem Digits.notMem {cs : List Char} {n : Nat} (h : Digits cs n) {c : Char}
    (hc : c.isDigit = false) : c ∉ cs := by
  intro hmem
  rw [h.2.1 c hmem] at hc
  cases hc

/-- The parser reads the numerals that fit. -/
theorem parseU64_eq_some_iff {s : String} {n : Nat} :
    parseU64 s = some n ↔ Numeral s n ∧ n < 2 ^ 64 := by
  unfold parseU64
  split
  · rename_i rest heq
    simp only [Option.filter_eq_some_iff, decide_eq_true_eq]
    refine and_congr_left fun _ => ⟨fun h => ⟨rest, .inr heq, parseDigits_eq_some_iff.mp h⟩, ?_⟩
    rintro ⟨cs, hs | hs, h⟩
    · exact absurd (hs ▸ heq ▸ List.mem_cons_self) (h.notMem (c := '+') (by decide))
    · rw [heq, List.cons.injEq] at hs
      rw [hs.2]
      exact parseDigits_eq_some_iff.mpr h
  · rename_i hplus
    simp only [Option.filter_eq_some_iff, decide_eq_true_eq]
    refine and_congr_left fun _ => ⟨fun h => ⟨_, .inl rfl, parseDigits_eq_some_iff.mp h⟩, ?_⟩
    rintro ⟨cs, hs | hs, h⟩
    · rw [hs]
      exact parseDigits_eq_some_iff.mpr h
    · exact absurd hs (hplus cs)

/-- A port is read off the numerals of ports. -/
theorem parseU16_eq_some_iff {s : String} {port : UInt16} :
    parseU16 s = some port ↔ Numeral s port.toNat := by
  unfold parseU16
  simp only [Option.map_eq_some_iff, Option.filter_eq_some_iff, parseU64_eq_some_iff,
    decide_eq_true_eq]
  constructor
  · rintro ⟨n, ⟨⟨h, -⟩, hn⟩, rfl⟩
    rwa [UInt16.toNat_ofNat_of_lt' hn]
  · intro h
    have hlt := port.toNat_lt
    exact ⟨port.toNat, ⟨⟨h, by omega⟩, hlt⟩, by simp⟩

/-- A numeral has no colon in it. -/
theorem Numeral.colon_notMem {s : String} {n : Nat} (h : Numeral s n) : ':' ∉ s.toList := by
  obtain ⟨cs, hs, h⟩ := h
  have hcolon : ':' ∉ cs := h.notMem (by decide)
  rcases hs with hs | hs
  · rwa [hs]
  · rw [hs, List.mem_cons, not_or]
    exact ⟨by decide, hcolon⟩

/-- A number in decimal is its numeral. -/
theorem numeral_toString (n : Nat) : Numeral (toString n) n :=
  ⟨_, .inl rfl, parseDigits_eq_some_iff.mp (parseDigits_toString n)⟩

/-- Text without the character is not split. -/
theorem splitOnce_of_notMem {c : Char} {s : String} (h : c ∉ s.toList) : splitOnce c s = none := by
  have hdrop : s.toList.dropWhile (· ≠ c) = [] :=
    List.dropWhile_eq_nil_iff.mpr fun d hd => decide_eq_true fun heq => h (heq ▸ hd)
  rw [splitOnce, hdrop]

/-- Text is split at the first place where the character stands. -/
theorem splitOnce_append {c : Char} {a : String} (h : c ∉ a.toList) (b : String) :
    splitOnce c (a ++ c.toString ++ b) = some (a, b) := by
  have hpass : ∀ d ∈ a.toList, decide (d ≠ c) = true := fun d hd =>
    decide_eq_true fun heq => h (heq ▸ hd)
  have hlist : (a ++ c.toString ++ b).toList = a.toList ++ c :: b.toList := by simp
  have hdrop : (a ++ c.toString ++ b).toList.dropWhile (· ≠ c) = c :: b.toList := by
    rw [hlist, List.dropWhile_append_of_pos hpass]
    simp
  have htake : (a ++ c.toString ++ b).toList.takeWhile (· ≠ c) = a.toList := by
    rw [hlist, List.takeWhile_append_of_pos hpass]
    simp
  rw [splitOnce, hdrop, htake]
  simp

/-- Text is split or the character is not in it. -/
theorem splitOnce_cases (c : Char) (s : String) : c ∉ s.toList ∨
    ∃ a b, c ∉ a.toList ∧ s = a ++ c.toString ++ b := by
  by_cases hmem : c ∈ s.toList
  · obtain ⟨before, after, heq, hbefore⟩ := List.eq_append_cons_of_mem hmem
    exact .inr ⟨String.ofList before, String.ofList after, by simpa using hbefore,
      by rw [← String.toList_inj]; simp [heq]⟩
  · exact .inl hmem

/-- The mode for a port and an echo port; port zero stands for no monitor. -/
def monitorModeOf (port : UInt16) (echo : Option UInt16) : MonitorMode :=
  if port = 0 then .none else .active port echo

/-- A value without a colon is a port, or is refused as one. -/
theorem parseMonitorValue_port {s : String} (h : ':' ∉ s.toList) :
    parseMonitorValue (some s) = (parseU16 s).elim (.error ("invalid -M port '" ++ s ++ "'"))
      fun port => .ok (monitorModeOf port none) := by
  simp only [parseMonitorValue, splitOnce_of_notMem h]
  cases parseU16 s with
  | none => rfl
  | some port => exact (apply_ite Except.ok ..).symm

/-- A value with a colon is a port and an echo port, or is refused for the first that is none. -/
theorem parseMonitorValue_echo {a : String} (h : ':' ∉ a.toList) (b : String) :
    parseMonitorValue (some (a ++ ":" ++ b)) =
      (parseU16 a).elim (.error ("invalid -M port '" ++ a ++ "'")) fun port =>
        (parseU16 b).elim (.error ("invalid -M echo '" ++ b ++ "'")) fun echo =>
          .ok (monitorModeOf port (some echo)) := by
  have hsplit : splitOnce ':' (a ++ ":" ++ b) = some (a, b) := splitOnce_append h b
  simp only [parseMonitorValue, hsplit]
  cases parseU16 a with
  | none => rfl
  | some port =>
    cases parseU16 b with
    | none => rfl
    | some echo => exact (apply_ite Except.ok ..).symm

/-- The text of a mode. -/
def MonitorMode.text : MonitorMode → String
  | .none => "0"
  | .active port Option.none => toString port.toNat
  | .active port (some echo) => toString port.toNat ++ ":" ++ toString echo.toNat

/-- What a monitor value means: a port, or a port and an echo port behind a colon. -/
inductive MonitorValue : String → MonitorMode → Prop
  | port {s : String} {port : UInt16} : Numeral s port.toNat →
      MonitorValue s (monitorModeOf port none)
  | echo {a b : String} {port echo : UInt16} : Numeral a port.toNat → Numeral b echo.toNat →
      MonitorValue (a ++ ":" ++ b) (monitorModeOf port (some echo))

/-- The text has the other text before its first colon, or is it if it has none. -/
def Before (a s : String) : Prop := ':' ∉ a.toList ∧ (s = a ∨ ∃ b, s = a ++ ":" ++ b)

/-- What is no port is no numeral of one. -/
theorem not_numeral {s : String} (h : parseU16 s = none) (port : UInt16) :
    ¬Numeral s port.toNat := by
  rw [← parseU16_eq_some_iff, h]
  exact (Option.some_ne_none port).symm

/-- What is accepted is of the form. -/
theorem monitorValue_of_ok {s : String} {mode : MonitorMode}
    (h : parseMonitorValue (some s) = .ok mode) : MonitorValue s mode := by
  rcases splitOnce_cases ':' s with hs | ⟨a, b, ha, rfl⟩
  · rw [parseMonitorValue_port hs] at h
    cases hport : parseU16 s with
    | none =>
      rw [hport] at h
      cases h
    | some port =>
      rw [hport] at h
      cases h
      exact .port (parseU16_eq_some_iff.mp hport)
  · rw [show ':'.toString = ":" from rfl, parseMonitorValue_echo ha] at h
    cases hport : parseU16 a with
    | none =>
      rw [hport] at h
      cases h
    | some port =>
      cases hecho : parseU16 b with
      | none =>
        rw [hport, hecho] at h
        cases h
      | some echo =>
        rw [hport, hecho] at h
        cases h
        exact .echo (parseU16_eq_some_iff.mp hport) (parseU16_eq_some_iff.mp hecho)

/-- What is of the form is accepted, with its meaning. -/
theorem MonitorValue.parse {s : String} {mode : MonitorMode} (h : MonitorValue s mode) :
    parseMonitorValue (some s) = .ok mode := by
  cases h with
  | port hport =>
    rw [parseMonitorValue_port hport.colon_notMem, parseU16_eq_some_iff.mpr hport]
    rfl
  | echo hport hecho =>
    rw [parseMonitorValue_echo hport.colon_notMem, parseU16_eq_some_iff.mpr hport,
      parseU16_eq_some_iff.mpr hecho]
    rfl

/-- The text of a mode is a value for it. -/
theorem monitorValue_text (port : UInt16) (echo : Option UInt16) :
    MonitorValue (MonitorMode.active port echo).text (monitorModeOf port echo) := by
  cases echo with
  | none => exact .port (numeral_toString port.toNat)
  | some echo => exact .echo (numeral_toString port.toNat) (numeral_toString echo.toNat)

/-- Why a value is refused: its port is none, or its port is one and its echo port is none. -/
inductive MonitorRefused : String → String → Prop
  | port {a s : String} : Before a s → (∀ port : UInt16, ¬Numeral a port.toNat) →
      MonitorRefused s ("invalid -M port '" ++ a ++ "'")
  | echo {a b : String} {port : UInt16} : Numeral a port.toNat →
      (∀ echo : UInt16, ¬Numeral b echo.toNat) →
      MonitorRefused (a ++ ":" ++ b) ("invalid -M echo '" ++ b ++ "'")

theorem monitorRefused_of_error {s msg : String}
    (h : parseMonitorValue (some s) = .error msg) : MonitorRefused s msg := by
  rcases splitOnce_cases ':' s with hs | ⟨a, b, ha, rfl⟩
  · rw [parseMonitorValue_port hs] at h
    cases hport : parseU16 s with
    | none =>
      rw [hport] at h
      cases h
      exact .port ⟨hs, .inl rfl⟩ (not_numeral hport)
    | some port =>
      rw [hport] at h
      cases h
  · rw [show ':'.toString = ":" from rfl, parseMonitorValue_echo ha] at h
    cases hport : parseU16 a with
    | none =>
      rw [hport] at h
      cases h
      exact .port ⟨ha, .inr ⟨b, rfl⟩⟩ (not_numeral hport)
    | some port =>
      cases hecho : parseU16 b with
      | none =>
        rw [hport, hecho] at h
        cases h
        exact .echo (parseU16_eq_some_iff.mp hport) (not_numeral hecho)
      | some echo =>
        rw [hport, hecho] at h
        cases h

/-- The values that are accepted are those of the form, each with its meaning; the text of a
mode is read as that mode; and a value is refused for the first of its parts that is no port. -/
theorem parseMonitorValue_format (s : String) :
    (∀ mode, parseMonitorValue (some s) = .ok mode ↔ MonitorValue s mode) ∧
    (∀ port echo, parseMonitorValue (some (MonitorMode.active port echo).text) =
      .ok (monitorModeOf port echo)) ∧
    ∀ msg, parseMonitorValue (some s) = .error msg → MonitorRefused s msg :=
  ⟨fun _ => ⟨monitorValue_of_ok, MonitorValue.parse⟩,
    fun port echo => (monitorValue_text port echo).parse, fun _ => monitorRefused_of_error⟩

end RustyAutossh
