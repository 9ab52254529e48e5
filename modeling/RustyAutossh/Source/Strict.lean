import RustyAutossh.Source.Mode

/-!
# The strict argument parser

`parseArgv` walks the arguments from the left with one flag, which says that the
rest belongs to ssh. Its errors carry the line the program prints for them.
-/

namespace RustyAutossh

/-- The character that stands for bytes that are not UTF-8. -/
def replacementChar : Char := Char.ofNat 0xFFFD

/-- The first character of UTF-8 text that begins with `lead`, and the bytes behind it.
Where the bytes are no character, the longest start of one is replaced as a whole. -/
def utf8Chunk (lead : UInt8) (rest : List UInt8) : Char × List UInt8 :=
  if lead < 0x80 then (Char.ofNat lead.toNat, rest) else
  let width :=
    if 0xC2 ≤ lead ∧ lead ≤ 0xDF then 2
    else if 0xE0 ≤ lead ∧ lead ≤ 0xEF then 3
    else if 0xF0 ≤ lead ∧ lead ≤ 0xF4 then 4
    else 0
  let lo : UInt8 := if lead = 0xE0 then 0xA0 else if lead = 0xF0 then 0x90 else 0x80
  let hi : UInt8 := if lead = 0xED then 0x9F else if lead = 0xF4 then 0x8F else 0xBF
  let bits (b : UInt8) : Nat := b.toNat % 64
  match rest with
  | [] => (replacementChar, rest)
  | b₁ :: rest₁ =>
    if width = 0 ∨ b₁ < lo ∨ hi < b₁ then (replacementChar, rest)
    else if width = 2 then (Char.ofNat (lead.toNat % 32 * 64 + bits b₁), rest₁)
    else match rest₁ with
      | [] => (replacementChar, rest₁)
      | b₂ :: rest₂ =>
        if b₂ < 0x80 ∨ 0xBF < b₂ then (replacementChar, rest₁)
        else if width = 3 then
          (Char.ofNat ((lead.toNat % 16 * 64 + bits b₁) * 64 + bits b₂), rest₂)
        else match rest₂ with
          | [] => (replacementChar, rest₂)
          | b₃ :: rest₃ =>
            if b₃ < 0x80 ∨ 0xBF < b₃ then (replacementChar, rest₂)
            else
              (Char.ofNat (((lead.toNat % 8 * 64 + bits b₁) * 64 + bits b₂) * 64 + bits b₃), rest₃)

/-- `String::from_utf8_lossy`, character by character; each takes a byte at least. -/
def fromUtf8Lossy : Nat → List UInt8 → List Char
  | 0, _ => []
  | _ + 1, [] => []
  | fuel + 1, lead :: rest =>
    let chunk := utf8Chunk lead rest
    chunk.1 :: fromUtf8Lossy fuel chunk.2

/-- `OsStr::to_string_lossy` on Unix. -/
def OsString.toStringLossy : OsString → String
  | .utf8 s => s
  | .other bytes => String.ofList (fromUtf8Lossy bytes.length bytes)

example : (OsString.other [0x61, 0xE2, 0x82, 0x62, 0xFF]).toStringLossy = "a\uFFFDb\uFFFD" := by
  decide +kernel

/-- `StrictArgs`. -/
structure StrictArgs where
  monitor : Option String := none
  background : Bool := false
  version : Bool := false
  oneShot : Bool := false
  sshArgs : List String := []
  deriving DecidableEq, Repr

/-- `StrictError`. -/
inductive StrictError where
  | unknownShort (line : String)
  | unknownLong (line : String)
  | missingValue (flag : Char)
  | internal (tag : String)
  deriving DecidableEq, Repr

/-- The `Display` text of an error, which is the line the program prints. -/
def StrictError.message : StrictError → String
  | .unknownShort line => line
  | .unknownLong line => line
  | .missingValue flag => "autossh: option requires an argument -- '" ++ flag.toString ++ "'"
  | .internal tag => "strict parse failed: " ++ tag

/-- `str::strip_prefix`. -/
def stripPrefix (p s : String) : Option String :=
  (s.toList.dropPrefix? p.toList).map String.ofList

/-- `format_unknown_flag`. -/
def formatUnknownFlag (token : String) : String :=
  match stripPrefix "--" token with
  | some rest => "autossh: unrecognized option '--" ++ rest ++ "'"
  | none =>
    match stripPrefix "-" token with
    | some rest => "autossh: invalid option -- '" ++ (rest.toList.headD '?').toString ++ "'"
    | none => "autossh: unrecognized option '" ++ token ++ "'"

/-- `EXCLUDED_SHORT`. -/
def excludedShort : List Char := ['d', 'D', 'X', 'T', 'a', 'N', 'Y', 'q']

/-- `EXCLUDED_LONG`. -/
def excludedLong : List String :=
  ["monitor-port", "poll", "first-poll", "gate-time", "max-start", "max-lifetime", "ssh-path",
    "log-file", "pid-file", "debug", "log-level", "background", "version", "one-shot"]

/-- `STRICT_NOOP_LONG`. -/
def strictNoopLong : List String := ["strict", "no-strict"]

/-- A token that goes to ssh. -/
def StrictArgs.pass (out : StrictArgs) (tok : String) : StrictArgs :=
  { out with sshArgs := out.sshArgs ++ [tok] }

/-- The long-flag part of a turn, for a token that is `--` followed by `rest`. -/
def parseLong (tok rest : String) (out : StrictArgs) : Except StrictError StrictArgs :=
  let name := String.ofList (rest.toList.takeWhile (· ≠ '='))
  if strictNoopLong.contains name then .ok out
  else if excludedLong.contains name then .error (.unknownLong (formatUnknownFlag tok))
  else .error (.unknownLong (formatUnknownFlag tok))

/-- The short-flag part of a turn, for a token that is `-` followed by `rest`; without a
result where `-M` takes the next token as its value. -/
def parseShort (tok rest : String) (out : StrictArgs) : Except StrictError (Option StrictArgs) :=
  if rest = "1" then .ok (some { out with oneShot := true })
  else match rest.toList with
    | [] => .ok (some (out.pass tok))
    | first :: inline =>
      if first = 'M' then
        if inline ≠ [] then .ok (some { out with monitor := some (String.ofList inline) })
        else .ok none
      -- what follows `f` or `V` in a cluster is not looked at
      else if first = 'f' then .ok (some { out with background := true })
      else if first = 'V' then .ok (some { out with version := true })
      else if excludedShort.contains first then .error (.unknownShort (formatUnknownFlag tok))
      else .error (.unknownShort (formatUnknownFlag tok))

/-- The loop of `parse_argv` from one of its turns on. -/
def parseArgvFrom : List OsString → Bool → StrictArgs → Except StrictError StrictArgs
  | [], _, out => .ok out
  | raw :: rest, passthrough, out =>
    match raw.toStr with
    -- a token that is not UTF-8 goes to ssh without ending the options
    | none => parseArgvFrom rest passthrough (out.pass raw.toStringLossy)
    | some tok =>
      if passthrough then parseArgvFrom rest passthrough (out.pass tok)
      else if tok = "--" then parseArgvFrom rest true out
      else match stripPrefix "--" tok with
        | some long =>
          match parseLong tok long out with
          | .ok out => parseArgvFrom rest passthrough out
          | .error e => .error e
        | none =>
          match stripPrefix "-" tok with
          | some short =>
            match parseShort tok short out with
            | .ok (some out) => parseArgvFrom rest passthrough out
            | .ok none =>
              match rest with
              | val :: rest =>
                parseArgvFrom rest passthrough { out with monitor := some val.toStringLossy }
              | [] => .error (.missingValue 'M')
            | .error e => .error e
          | none =>
            if tok = "completions" then .error (.unknownLong (formatUnknownFlag tok))
            else parseArgvFrom rest true (out.pass tok)

/-- `parse_argv`. -/
def parseArgv (argv : List OsString) : Except StrictError StrictArgs := parseArgvFrom argv false {}

/-- Behind the boundary one turn hands one token over. -/
theorem parseArgvFrom_pass (raw : OsString) (rest : List OsString) (out : StrictArgs) :
    parseArgvFrom (raw :: rest) true out =
      parseArgvFrom rest true (out.pass raw.toStringLossy) := by
  rw [parseArgvFrom.eq_def]
  cases raw with
  | other bytes => rfl
  | utf8 tok => simp only [OsString.toStr, OsString.toStringLossy, if_true]

/-- The separator opens the boundary. -/
theorem parseArgvFrom_opens (rest : List OsString) (out : StrictArgs) :
    parseArgvFrom (.utf8 "--" :: rest) false out = parseArgvFrom rest true out := by
  rw [parseArgvFrom.eq_def]
  simp only [OsString.toStr, Bool.false_eq_true, if_false, if_true]

/-- Behind the boundary every token goes to ssh, in order. -/
theorem parseArgvFrom_passthrough (post : List OsString) (out : StrictArgs) :
    parseArgvFrom post true out =
      .ok { out with sshArgs := out.sshArgs ++ post.map OsString.toStringLossy } := by
  induction post generalizing out with
  | nil => simp [parseArgvFrom]
  | cons raw post ih =>
    rw [parseArgvFrom_pass, ih]
    simp [StrictArgs.pass]

/-- The separator opens the boundary and is not handed on. -/
theorem parseArgv_separator (post : List OsString) :
    parseArgv (.utf8 "--" :: post) = .ok { sshArgs := post.map OsString.toStringLossy } := by
  rw [parseArgv, parseArgvFrom_opens, parseArgvFrom_passthrough]
  rfl

end RustyAutossh
