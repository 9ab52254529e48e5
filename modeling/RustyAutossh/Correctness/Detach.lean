import RustyAutossh.CommandLine
import RustyAutossh.Source.Daemonizer

/-!
# The arguments of the detached child

The detached child splits its command line by the rules of the C runtime. The line quotes
every argument and escapes nothing, so an argument with a quote in it, or with a backslash
before the closing quote, is split differently.
-/

namespace RustyAutossh

open CommandLine

/-- The program and the arguments a process reads off a buffer, which ends at its first NUL. -/
def received (buf : List UInt16) : List (List UInt16) := parse (buf.takeWhile (· ≠ 0))

/-- The buffer is the quoted program with the quoted arguments. -/
theorem cmdlineBuf_eq (exe : List UInt16) (args : List (List UInt16)) :
    cmdlineBuf exe args = quoted exe ++ quotedArguments args ++ [0] := by
  have hfold : ∀ buf : List UInt16,
      args.foldl (fun buf arg => buf ++ [0x20, 0x22] ++ arg ++ [0x22]) buf =
        buf ++ quotedArguments args := by
    induction args with
    | nil => exact fun buf => (List.append_nil buf).symm
    | cons arg args ih =>
      intro buf
      rw [List.foldl_cons, ih]
      simp [quotedArguments, quoted, CommandLine.space, quote]
  rw [cmdlineBuf, hfold]
  simp [quoted, quote]

theorem zero_notMem_quoted {arg : List UInt16} (h : 0 ∉ arg) : 0 ∉ quoted arg := by
  simp only [quoted, List.mem_cons, List.mem_append, List.not_mem_nil, or_false, not_or]
  exact ⟨by decide, h, by decide⟩

/-- The line of a buffer without other NULs is all of it. -/
theorem received_cmdlineBuf {exe : List UInt16} {args : List (List UInt16)} (hexe : 0 ∉ exe)
    (hargs : ∀ arg ∈ args, 0 ∉ arg) :
    received (cmdlineBuf exe args) = parse (quoted exe ++ quotedArguments args) := by
  have hline : ∀ c ∈ quoted exe ++ quotedArguments args, decide (c ≠ 0) = true := by
    intro c hc
    refine decide_eq_true fun he => ?_
    subst he
    rcases List.mem_append.mp hc with hprogram | hargument
    · exact zero_notMem_quoted hexe hprogram
    · obtain ⟨arg, harg, hmem⟩ := List.mem_flatMap.mp hargument
      rcases List.mem_cons.mp hmem with hspace | hquoted
      · exact absurd hspace (by decide)
      · exact zero_notMem_quoted (hargs arg harg) hquoted
  rw [received, cmdlineBuf_eq, List.takeWhile_append_of_pos hline]
  simp

/-- The detached child receives its own program and arguments if and only if no argument has
a quote in it or ends in a backslash. -/
theorem received_eq_iff {exe : List UInt16} {args : List (List UInt16)} (hquote : 0x22 ∉ exe)
    (hexe : 0 ∉ exe) (hargs : ∀ arg ∈ args, 0 ∉ arg) :
    received (cmdlineBuf exe args) = exe :: args ↔
      ∀ arg ∈ args, 0x22 ∉ arg ∧ arg.getLast? ≠ some 0x5C := by
  rw [received_cmdlineBuf hexe hargs]
  exact parse_quoted_iff hquote args

/-- The UTF-16 units of an ASCII text. -/
def wide (s : String) : List UInt16 := s.toList.map fun c => UInt16.ofNat c.toNat

/-- An empty argument and one with blanks. -/
theorem received_eq_iff_blanks :
    received (cmdlineBuf (wide "C:\\a b.exe") [[], wide "x y"]) =
      wide "C:\\a b.exe" :: [[], wide "x y"] :=
  (received_eq_iff (by decide) (by decide) (by decide)).mpr (by decide)

/-- A path that ends in a backslash takes the next argument with it, and a quote is lost. -/
theorem received_merges_arguments :
    received (cmdlineBuf (wide "a.exe") [wide "C:\\keys\\", wide "host"]) =
        [wide "a.exe", wide "C:\\keys\" host"] ∧
      received (cmdlineBuf (wide "a.exe") [wide "C:\\keys\\", wide "host"]) ≠
        wide "a.exe" :: [wide "C:\\keys\\", wide "host"] ∧
      received (cmdlineBuf (wide "a.exe") [wide "a\"b"]) ≠ wide "a.exe" :: [wide "a\"b"] := by
  decide +kernel

end RustyAutossh
