import SqlSession.Error
import SqlSession.Text.Digit

/-!
# Versions of an engine

An engine reports its version somewhere within a text.  The version starts with the first decimal
digit of the text and has up to three numbers with points between them.
-/

namespace SqlSession

structure Version where
  major : UInt32
  minor : UInt32
  patch : Option UInt32
deriving DecidableEq, Repr

namespace Version

/-- A version as it is shown.  A patch that is not there is not shown. -/
def text (v : Version) : String :=
  match v.patch with
  | some patch => s!"{v.major}.{v.minor}.{patch}"
  | none => s!"{v.major}.{v.minor}"

/-- Versions are ordered by major, minor and patch, and no patch comes before every patch. -/
def order (a b : Version) : Ordering :=
  (compare a.major b.major).then ((compare a.minor b.minor).then (compare a.patch b.patch))

/-- A point and the digits after it, if there are any, and what follows them. -/
def nextNumber? (cs : List Char) : Option (List Char × List Char) :=
  match cs with
  | '.' :: rest =>
    match rest.takeWhile Text.isDecimalDigit with
    | [] => none
    | digits => some (digits, rest.dropWhile Text.isDecimalDigit)
  | _ => none

/-- The up to three runs of digits that are the version in a text.  Digits of every script count. -/
def runs (cs : List Char) : List (List Char) :=
  let start := cs.dropWhile fun c => !Text.isDecimalDigit c
  match start.takeWhile Text.isDecimalDigit with
  | [] => []
  | major =>
    match nextNumber? (start.dropWhile Text.isDecimalDigit) with
    | none => [major]
    | some (minor, rest) =>
      match nextNumber? rest with
      | none => [major, minor]
      | some (patch, _) => [major, minor, patch]

/-- The number of a run.  Only ASCII digits have one. -/
def number (raw : String) (digits : List Char) : Except Error UInt32 :=
  match Unsigned.read (String.ofList digits) with
  | .ok n => .ok n
  | .error reason => .error (.version (.badNumber raw reason))

/-- The version in a text.  A missing minor number is zero, and a missing patch is none. -/
def parse (raw : String) : Except Error Version := do
  match ← (runs raw.toList).mapM (number raw) with
  | [] => throw (.version (.noDigits raw))
  | [major] => return ⟨major, 0, none⟩
  | [major, minor] => return ⟨major, minor, none⟩
  | major :: minor :: patch :: _ => return ⟨major, minor, some patch⟩

end Version
end SqlSession
