import Mathlib.Data.List.TakeWhile
import RustyAutossh.Source.Monitor

/-!
# The name in a path

`Path::file_name` and `Path::file_stem` over the bytes of a path. On Windows either slash
separates components, and a drive, a share or a device in front of them is none. A verbatim
path, behind `\\?\`, is taken as it is written.
-/

namespace RustyAutossh

/-- The bytes of an operating-system string. -/
def OsString.bytes : OsString → List UInt8
  | .utf8 s => intoBytes s
  | .other bytes => bytes

/-- `is_sep_byte`. -/
def isSepByte (target : Target) (b : UInt8) : Bool :=
  match target with
  | .unix => b == 47
  | .windows => b == 47 || b == 92

/-- `is_verbatim_sep` on Windows. -/
def isVerbatimSep (b : UInt8) : Bool := b == 92

/-- `std::path::Prefix`, which a path can begin with on Windows. -/
inductive Prefix where
  | verbatim (name : List UInt8)
  | verbatimUnc (server share : List UInt8)
  | verbatimDisk
  | deviceNs (name : List UInt8)
  | unc (server share : List UInt8)
  | disk
  deriving DecidableEq, Repr

namespace Prefix

/-- `Prefix::is_verbatim`. -/
def isVerbatim : Prefix → Bool
  | verbatim _ | verbatimUnc _ _ | verbatimDisk => true
  | deviceNs _ | unc _ _ | disk => false

/-- `Prefix::len`. -/
def len : Prefix → Nat
  | verbatim name => 4 + name.length
  | verbatimUnc server share =>
    8 + server.length + if share.length > 0 then 1 + share.length else 0
  | verbatimDisk => 6
  | unc server share => 2 + server.length + if share.length > 0 then 1 + share.length else 0
  | deviceNs name => 4 + name.length
  | disk => 2

end Prefix

/-- `parse_next_component`: the next component, and the rest behind its separator. -/
def parseNextComponent (path : List UInt8) (verbatim : Bool) : List UInt8 × List UInt8 :=
  let separator := if verbatim then isVerbatimSep else isSepByte .windows
  (path.takeWhile fun b => !separator b, (path.dropWhile fun b => !separator b).tail)

/-- Whether `parse_drive` finds a drive: a letter and a colon. -/
def parseDrive : List UInt8 → Bool
  | drive :: 58 :: _ => (65 ≤ drive && drive ≤ 90) || (97 ≤ drive && drive ≤ 122)
  | _ => false

/-- Whether `parse_drive_exact` does: nothing else may stand in the component. -/
def parseDriveExact (path : List UInt8) : Bool :=
  path[2]?.all (isSepByte .windows) && parseDrive path

/-- `parse_prefix` on Windows. -/
def parsePrefix (path : List UInt8) : Option Prefix :=
  -- `PrefixParser` compares with either slash, on at most the first eight bytes
  let strip (start : String) : Option (List UInt8) :=
    if (intoBytes start).isPrefixOf (path.map fun b => if b = 47 then 92 else b) then
      some (path.drop (intoBytes start).length)
    else none
  match strip "\\\\" with
  | some unprefixed =>
    -- a verbatim path has to be written with the backslash
    match (strip "\\\\?\\").filter fun _ => 47 ∉ path.take 4 with
    | some path =>
      match strip "\\\\?\\UNC\\" with
      | some path =>
        let (server, path) := parseNextComponent path true
        some (.verbatimUnc server (parseNextComponent path true).1)
      | none =>
        if parseDriveExact path then some .verbatimDisk
        else some (.verbatim (parseNextComponent path true).1)
    | none =>
      match strip "\\\\.\\" with
      | some path => some (.deviceNs (parseNextComponent path false).1)
      | none =>
        let (server, path) := parseNextComponent unprefixed false
        let share := (parseNextComponent path false).1
        if server ≠ [] ∧ share ≠ [] then some (.unc server share) else none
  | none => if parseDrive path then some .disk else none

/-- `Path::file_name`: the last component, where that is an ordinary one. -/
def fileName (target : Target) (path : PathBuf) : Option (List UInt8) :=
  let front := match target with
    | .unix => none
    | .windows => parsePrefix path.bytes
  let verbatim := front.any Prefix.isVerbatim
  let rest := path.bytes.drop (front.elim 0 Prefix.len)
  -- behind the prefix stands the root, which takes one separator
  let body := if rest.head?.any (isSepByte target) then rest.tail else rest
  let parts := body.splitOnP (if verbatim then isVerbatimSep else isSepByte target)
  -- an empty part is no component, nor is `.` in a path that is not verbatim
  let components := parts.filter fun part => part ≠ [] ∧ (verbatim ∨ part ≠ intoBytes ".")
  components.getLast?.filter fun name => name ≠ intoBytes "." ∧ name ≠ intoBytes ".."

example : fileName .windows (.utf8 "C:\\bin/autossh.bak") = some (intoBytes "autossh.bak") ∧
    fileName .windows (.utf8 "\\\\?\\C:\\bin\\a/b") = some (intoBytes "a/b") ∧
    fileName .windows (.utf8 "\\\\host\\autossh") = none ∧
    fileName .unix (.utf8 "C:\\bin/..") = none := by decide +kernel

/-- `Path::file_stem`: the name before its last dot, where a dot stands inside it. -/
def fileStem (target : Target) (path : PathBuf) : Option (List UInt8) :=
  (fileName target path).map fun name =>
    match name.reverse.dropWhile (· ≠ 46) with
    | [] => name
    | _ :: before => if before = [] then name else before.reverse

/-- A stem without dots comes from the name itself or from the name with one extension. -/
theorem fileStem_eq_some_iff {target : Target} {path : PathBuf} {stem : List UInt8}
    (hne : stem ≠ []) (hdot : 46 ∉ stem) :
    fileStem target path = some stem ↔ fileName target path = some stem ∨
      ∃ ext, 46 ∉ ext ∧ fileName target path = some (stem ++ 46 :: ext) := by
  -- the scan from the end passes over what has no dot
  have hpass : ∀ {bytes : List UInt8}, 46 ∉ bytes → ∀ b ∈ bytes.reverse, decide (b ≠ 46) := by
    intro bytes hbytes b hb
    have hb' : b ≠ 46 := by
      rintro rfl
      exact hbytes (List.mem_reverse.mp hb)
    simpa using hb'
  unfold fileStem
  cases fileName target path with
  | none => simp
  | some name =>
    simp only [Option.map_some, Option.some.injEq]
    constructor
    · intro h
      have hname := congrArg List.reverse
        (List.takeWhile_append_dropWhile (p := (· ≠ 46)) (l := name.reverse))
      rw [List.reverse_append, List.reverse_reverse] at hname
      cases hdrop : name.reverse.dropWhile (· ≠ 46) with
      | nil =>
        rw [hdrop] at h
        exact .inl h
      | cons c before =>
        have hc : c = 46 := by
          have hhead := List.head?_dropWhile_not (· ≠ 46) name.reverse
          rw [hdrop] at hhead
          simpa using hhead
        subst hc
        rw [hdrop] at h hname
        by_cases hbefore : before = []
        · exact .inl (by simpa [hbefore] using h)
        · have hstem : before.reverse = stem := by simpa [hbefore] using h
          refine .inr ⟨(name.reverse.takeWhile (· ≠ 46)).reverse, ?_, ?_⟩
          · intro hmem
            simpa using List.mem_takeWhile_imp (List.mem_reverse.mp hmem)
          · rw [List.reverse_cons, hstem, List.append_assoc, List.singleton_append] at hname
            exact hname.symm
    · rintro (rfl | ⟨ext, hext, rfl⟩)
      · have hdrop : name.reverse.dropWhile (· ≠ 46) = [] :=
          List.dropWhile_eq_nil_iff.mpr (hpass hdot)
        rw [hdrop]
      · have hdrop : (stem ++ 46 :: ext).reverse.dropWhile (· ≠ 46) = 46 :: stem.reverse := by
          rw [List.reverse_append, List.reverse_cons, List.append_assoc,
            List.dropWhile_append_of_pos (hpass hext)]
          simp
        rw [hdrop]
        simp [hne]

end RustyAutossh
