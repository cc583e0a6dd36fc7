/-!
# Names that differ in ASCII case only

Placeholder names and column names are looked up exactly first and then with the letters A to Z
folded.  Letters outside ASCII never match another letter.
-/

namespace SqlSession
namespace Text

/-- A text with its ASCII capitals made small. -/
def fold (s : String) : List Char :=
  s.toList.map Char.toLower

/-- Whether two names are equal up to ASCII case. -/
def sameFolded (a b : String) : Bool :=
  fold a == fold b

theorem sameFolded_refl (a : String) : sameFolded a a = true := by
  simp [sameFolded]

/-- The first entry whose name is exactly `name`, or else the first whose name is equal up to case.
An exact match wins wherever it stands, and an entry without a name never matches. -/
def findNamed? (nameOf : α → Option String) (name : String) (entries : List α) : Option α :=
  match entries.find? (fun entry => nameOf entry == some name) with
  | some found => some found
  | none => entries.find? fun entry => (nameOf entry).any (sameFolded · name)

end Text
end SqlSession
