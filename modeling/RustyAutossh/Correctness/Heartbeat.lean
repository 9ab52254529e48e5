import RustyAutossh.Framing
import RustyAutossh.Correctness.Tunnel

/-!
# Heartbeats can be told apart

A heartbeat is a padded timestamp, a message behind a space if there is one, and a
newline. No message that `ProbeLoop.bind` lets through contains a newline, so heartbeats
are words framed by it: each says which timestamp and message it was made of, and a
stream of them falls apart in one way only.
-/

namespace RustyAutossh

open Framing

/-- The byte `\n`. -/
def newline : UInt8 := 0x0A

/-- The byte between the timestamp and the message. -/
def space : UInt8 := 0x20

/-- The bytes before the first space or newline. -/
def stamp (bytes : List UInt8) : List UInt8 := bytes.takeWhile fun b => b ≠ space ∧ b ≠ newline

/-- The decimal digits of a number, as ASCII. -/
def decimal (n : Nat) : List UInt8 := (Nat.toDigits 10 n).map fun c => UInt8.ofNat c.toNat

/-- The decimal digits of a number, behind zeros up to a width. -/
def zeroPadded (width n : Nat) : List UInt8 :=
  List.replicate (width - (decimal n).length) 0x30 ++ decimal n

/-- The message is absent or has no newline. -/
def NewlineFree (message : Option String) : Prop := ∀ m ∈ message, '\n' ∉ m.toList

theorem intoBytes_append (s t : String) : intoBytes (s ++ t) = intoBytes s ++ intoBytes t := by
  simp [intoBytes]

/-- The bytes of a string are those it is stored as. -/
theorem toByteArray_eq_intoBytes (s : String) : s.toByteArray = (intoBytes s).toByteArray := by
  conv_lhs => rw [← String.ofList_toList (s := s)]
  simp only [String.toByteArray_ofList, List.utf8Encode, intoBytes]

/-- UTF-8 encodes different strings differently. -/
theorem intoBytes_injective : Function.Injective intoBytes := by
  intro s t h
  rw [← String.toByteArray_inj, toByteArray_eq_intoBytes, toByteArray_eq_intoBytes, h]

/-- An ASCII character is one byte. -/
theorem utf8EncodeChar_of_lt {c : Char} (h : c.toNat < 128) :
    String.utf8EncodeChar c = [UInt8.ofNat c.toNat] := by
  have hle : c.val.toNat ≤ 127 := Nat.le_of_lt_succ h
  unfold String.utf8EncodeChar
  rw [if_pos hle]
  rfl

/-- The other characters have no byte below 128. -/
theorem utf8EncodeChar_of_ge {c : Char} (h : 128 ≤ c.toNat) {b : UInt8}
    (hb : b ∈ String.utf8EncodeChar c) : 128 ≤ b.toNat := by
  have hc : ¬c.val.toNat ≤ 127 := Nat.not_le_of_gt h
  simp only [String.utf8EncodeChar, if_neg hc] at hb
  split at hb
  · simp only [List.mem_cons, List.not_mem_nil, or_false] at hb
    rcases hb with rfl | rfl <;> simp <;> omega
  · split at hb
    · simp only [List.mem_cons, List.not_mem_nil, or_false] at hb
      rcases hb with rfl | rfl | rfl <;> simp <;> omega
    · simp only [List.mem_cons, List.not_mem_nil, or_false] at hb
      rcases hb with rfl | rfl | rfl | rfl <;> simp <;> omega

/-- A string without newlines has no newline byte. -/
theorem newline_notMem_intoBytes {s : String} (h : '\n' ∉ s.toList) : newline ∉ intoBytes s := by
  intro hmem
  obtain ⟨c, hc, hbyte⟩ := List.mem_flatMap.mp hmem
  by_cases hascii : c.toNat < 128
  · rw [utf8EncodeChar_of_lt hascii, List.mem_singleton] at hbyte
    have hval : newline.toNat = c.toNat % 256 := by rw [hbyte, UInt8.toNat_ofNat']
    have hnl : c = '\n' := by
      apply Char.toNat_inj.mp
      rw [← Nat.mod_eq_of_lt (show c.toNat < 256 by omega), ← hval]
      rfl
    exact h (hnl ▸ hc)
  · have hge := utf8EncodeChar_of_ge (Nat.le_of_not_lt hascii) hbyte
    exact absurd hge (by decide)

theorem toNat_lt_of_isDigit {c : Char} (h : c.isDigit = true) : 48 ≤ c.toNat ∧ c.toNat < 58 := by
  simp only [Char.isDigit, Bool.and_eq_true, decide_eq_true_eq, ge_iff_le,
    UInt32.le_iff_toNat_le] at h
  exact ⟨h.1, Nat.lt_succ_of_le h.2⟩

/-- Digits are encoded as one byte each. -/
theorem intoBytes_ofList_digits {cs : List Char} (h : ∀ c ∈ cs, c.isDigit = true) :
    intoBytes (String.ofList cs) = cs.map fun c => UInt8.ofNat c.toNat := by
  unfold intoBytes
  rw [String.toList_ofList]
  induction cs with
  | nil => rfl
  | cons c cs ih =>
    have hlt := (toNat_lt_of_isDigit (h c List.mem_cons_self)).2
    rw [List.flatMap_cons, utf8EncodeChar_of_lt (by omega),
      ih fun x hx => h x (List.mem_cons_of_mem _ hx)]
    rfl

/-- A timestamp is made of digits. -/
theorem isDigit_zeroPad16 (n : UInt64) : ∀ c ∈ (zeroPad16 n).toList, c.isDigit = true := by
  intro c hc
  simp only [zeroPad16, String.toList_ofList, List.mem_append] at hc
  rcases hc with hzero | hdigit
  · rw [List.eq_of_mem_replicate hzero]
    rfl
  · exact Nat.isDigit_of_mem_toDigits (by decide) (by decide) hdigit

/-- The text of a timestamp is its decimal digits, padded. -/
theorem intoBytes_zeroPad16 (n : UInt64) : intoBytes (zeroPad16 n) = zeroPadded 16 n.toNat := by
  have hdigits := isDigit_zeroPad16 n
  rw [zeroPad16, String.toList_ofList] at hdigits
  rw [zeroPad16, intoBytes_ofList_digits hdigits, List.map_append, List.map_replicate]
  simp only [zeroPadded, decimal, List.length_map]
  rfl

/-- Different timestamps have different texts. -/
theorem zeroPad16_injective : Function.Injective zeroPad16 := by
  intro m n h
  have hvalue (k : UInt64) : Nat.ofDigitChars 10 (zeroPad16 k).toList 0 = k.toNat := by
    simp only [zeroPad16, String.toList_ofList, Nat.ofDigitChars_append,
      Nat.ofDigitChars_replicate_zero, Nat.mul_zero, Nat.ofDigitChars_ten_toDigits]
  apply UInt64.toNat_inj.mp
  rw [← hvalue m, ← hvalue n, h]

theorem length_zeroPadded (width n : Nat) :
    (zeroPadded width n).length = max width (Nat.toDigits 10 n).length := by
  simp only [zeroPadded, decimal, List.length_append, List.length_replicate, List.length_map]
  omega

/-- The padding is as wide as the text exactly up to the largest number of that width. -/
theorem length_zeroPadded_eq_iff {width : Nat} (h : 0 < width) (n : Nat) :
    (zeroPadded width n).length = width ↔ n < 10 ^ width := by
  rw [length_zeroPadded, ← Nat.length_toDigits_le_iff (by decide) h]
  omega

/-- The bytes of a timestamp are none of those that end it. -/
theorem digit_of_mem_zeroPad16 {n : UInt64} {b : UInt8} (h : b ∈ intoBytes (zeroPad16 n)) :
    b ≠ space ∧ b ≠ newline := by
  have hdigits := isDigit_zeroPad16 n
  rw [← String.ofList_toList (s := zeroPad16 n), intoBytes_ofList_digits hdigits] at h
  obtain ⟨c, hc, rfl⟩ := List.mem_map.mp h
  have hrange := toNat_lt_of_isDigit (hdigits c hc)
  have hbyte : (UInt8.ofNat c.toNat).toNat = c.toNat := by
    rw [UInt8.toNat_ofNat']
    omega
  constructor
  · intro he
    rw [he] at hbyte
    have : space.toNat = 32 := rfl
    omega
  · intro he
    rw [he] at hbyte
    have : newline.toNat = 10 := rfl
    omega

/-- What follows the timestamp in a heartbeat: the newline, or a space and the message. -/
def afterStamp (message : Option String) : List UInt8 :=
  match message with
  | none => [newline]
  | some msg => space :: (intoBytes msg ++ [newline])

theorem probePayload_eq (unixTs : UInt64) (message : Option String) :
    probePayload unixTs message = intoBytes (zeroPad16 unixTs) ++ afterStamp message := by
  have hnewline : intoBytes "\n" = [newline] := by decide
  have hspace : intoBytes " " = [space] := by decide
  cases message with
  | none => simp [probePayload, afterStamp, intoBytes_append, hnewline]
  | some msg => simp [probePayload, afterStamp, intoBytes_append, hnewline, hspace]

/-- The timestamp of a heartbeat is what precedes its first space or newline. -/
theorem stamp_probePayload (unixTs : UInt64) (message : Option String) :
    stamp (probePayload unixTs message) = intoBytes (zeroPad16 unixTs) := by
  have hafter :
      (afterStamp message).takeWhile (fun b => decide (b ≠ space ∧ b ≠ newline)) = [] := by
    cases message with
    | none => rfl
    | some msg => rfl
  rw [probePayload_eq, stamp, List.takeWhile_append_of_pos, hafter, List.append_nil]
  intro b hb
  exact decide_eq_true (digit_of_mem_zeroPad16 hb)

/-- A heartbeat with a newline-free message is framed by its newline. -/
theorem framed_probePayload {message : Option String} (h : NewlineFree message)
    (unixTs : UInt64) : Framed newline (probePayload unixTs message) := by
  have hstamp : newline ∉ intoBytes (zeroPad16 unixTs) := fun hmem =>
    (digit_of_mem_zeroPad16 hmem).2 rfl
  rw [probePayload_eq]
  cases message with
  | none => exact Framed.concat hstamp
  | some msg =>
    have hmsg : newline ∉ intoBytes msg := newline_notMem_intoBytes (h msg rfl)
    have hbody : newline ∉ intoBytes (zeroPad16 unixTs) ++ space :: intoBytes msg := by
      simp only [List.mem_append, List.mem_cons, not_or]
      exact ⟨hstamp, by decide, hmsg⟩
    have := Framed.concat hbody
    rwa [List.append_assoc, List.cons_append] at this

/-- A heartbeat determines its timestamp and its message. -/
theorem probePayload_inj {ts ts' : UInt64} {message message' : Option String}
    (h : probePayload ts message = probePayload ts' message') : ts = ts' ∧ message = message' := by
  have hts : intoBytes (zeroPad16 ts) = intoBytes (zeroPad16 ts') := by
    rw [← stamp_probePayload ts message, ← stamp_probePayload ts' message', h]
  obtain rfl := zeroPad16_injective (intoBytes_injective hts)
  rw [probePayload_eq, probePayload_eq, List.append_cancel_left_eq] at h
  refine ⟨rfl, ?_⟩
  cases message with
  | none =>
    cases message' with
    | none => rfl
    | some msg' => exact absurd (List.cons_eq_cons.mp h).1 (by decide)
  | some msg =>
    cases message' with
    | none => exact absurd (List.cons_eq_cons.mp h).1 (by decide)
    | some msg' =>
      have hbytes := List.append_cancel_right (List.cons_eq_cons.mp h).2
      rw [intoBytes_injective hbytes]

/-- A monitor carries the message it was bound with, which has no newline. -/
theorem ProbeLoop.bind_message {tcp : TcpStack} {held : List UInt16} {mode : MonitorMode}
    {message : Option String} {loop : ProbeLoop}
    (h : ProbeLoop.bind tcp held mode message = .ok loop) :
    loop.messageSuffix = message ∧ NewlineFree message := by
  have hfree (hm : message.any (·.contains '\n') = false) : NewlineFree message := by
    intro msg hmsg
    obtain rfl := Option.mem_def.mp hmsg
    simpa [String.contains_char_eq] using hm
  cases mode with
  | none =>
    unfold ProbeLoop.bind at h
    split at h <;> cases h
  | active port echo =>
    cases echo with
    | none =>
      obtain ⟨portIn, portOut, rfl, -, -, hm⟩ := ProbeLoop.bind_active h
      exact ⟨rfl, hfree hm⟩
    | some echo =>
      obtain ⟨portIn, rfl, -, hm⟩ := ProbeLoop.bind_echo h
      exact ⟨rfl, hfree hm⟩

/-- Heartbeats one behind the other. -/
def stream (beats : List (UInt64 × Option String)) : List UInt8 :=
  beats.flatMap fun b => probePayload b.1 b.2

/-- A stream of heartbeats determines the heartbeats in it. -/
theorem probePayload_stream_inj {beats beats' : List (UInt64 × Option String)}
    (hbeats : ∀ b ∈ beats, NewlineFree b.2) (hbeats' : ∀ b ∈ beats', NewlineFree b.2)
    (h : stream beats = stream beats') : beats = beats' := by
  refine flatMap_inj_of_framed (d := newline) (p := fun b => NewlineFree b.2)
    (fun b hb => framed_probePayload hb b.1) (fun b c _ _ heq => ?_) hbeats hbeats' h
  obtain ⟨hts, hmsg⟩ := probePayload_inj heq
  exact Prod.ext hts hmsg

/-- A heartbeat of a bound monitor ends in its only newline and starts with the padded
timestamp. Heartbeats with newline-free messages, as the monitor's is, determine timestamp
and message, and so does a stream of them. -/
theorem heartbeat_framing {tcp : TcpStack} {held : List UInt16} {mode : MonitorMode}
    {message : Option String} {loop : ProbeLoop}
    (h : ProbeLoop.bind tcp held mode message = .ok loop) :
    (loop.messageSuffix = message ∧ NewlineFree message) ∧
    (∀ ts, (probePayload ts loop.messageSuffix).count newline = 1 ∧
      (probePayload ts loop.messageSuffix).getLast? = some newline) ∧
    (∀ ts, stamp (probePayload ts loop.messageSuffix) = zeroPadded 16 ts.toNat ∧
      16 ≤ (zeroPadded 16 ts.toNat).length ∧
      ((zeroPadded 16 ts.toNat).length = 16 ↔ ts.toNat < 10 ^ 16)) ∧
    (∀ ts ts' m m', NewlineFree m → NewlineFree m' →
      probePayload ts m = probePayload ts' m' → ts = ts' ∧ m = m') ∧
    ∀ beats beats', (∀ b ∈ beats, NewlineFree b.2) → (∀ b ∈ beats', NewlineFree b.2) →
      stream beats = stream beats' → beats = beats' := by
  have hmessage := ProbeLoop.bind_message h
  refine ⟨hmessage, fun ts => ?_, fun ts => ⟨?_, ?_, ?_⟩, fun ts ts' m m' _ _ => probePayload_inj,
    fun beats beats' => probePayload_stream_inj⟩
  · have hframed : Framed newline (probePayload ts loop.messageSuffix) :=
      framed_probePayload (hmessage.1 ▸ hmessage.2) ts
    exact ⟨hframed.count_eq_one, hframed.getLast?⟩
  · rw [stamp_probePayload, intoBytes_zeroPad16]
  · rw [length_zeroPadded]
    omega
  · exact length_zeroPadded_eq_iff (by decide) ts.toNat

/-- Port 20000 bound with the empty message. -/
def ProbeLoop.withEmptyMessage : ProbeLoop :=
  ⟨⟨20000⟩, some ⟨20001⟩, some "", ⟨20000, 20001⟩⟩

theorem ProbeLoop.bind_withEmptyMessage :
    ProbeLoop.bind .vacant [] (.active 20000 none) (some "") = .ok .withEmptyMessage := by
  have hfree : (some "").any (·.contains '\n') = false := by
    simp [String.contains_char_eq]
  rw [ProbeLoop.bind, hfree]
  rfl

/-- The empty message, on port 20000. -/
theorem heartbeat_framing_empty_message :
    (probePayload 42 (some "")).getLast? = some newline :=
  ((heartbeat_framing ProbeLoop.bind_withEmptyMessage).2.1 42).2

end RustyAutossh
