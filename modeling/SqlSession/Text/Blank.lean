/-!
# Blank characters

The blanks that surround a statement, a query key or a savepoint name are the characters with the
Unicode property `White_Space`.  Trimming works on character lists, because everything that is
proved about statement texts is said about characters.
-/

namespace SqlSession
namespace Text

/-- The code points with the property `White_Space`.  The zero-width space, the byte order mark
and the separators U+001C to U+001F do not have it. -/
def isBlank (c : Char) : Bool :=
  let n := c.toNat
  (0x09 ≤ n && n ≤ 0x0D) || n == 0x20 || n == 0x85 || n == 0xA0 || n == 0x1680 ||
    (0x2000 ≤ n && n ≤ 0x200A) || n == 0x2028 || n == 0x2029 || n == 0x202F || n == 0x205F ||
    n == 0x3000

/-- The characters without the blanks before the first and after the last other character. -/
def trimBlanks (cs : List Char) : List Char :=
  ((cs.dropWhile isBlank).reverse.dropWhile isBlank).reverse

/-- A text without its surrounding blanks. -/
def trim (s : String) : String :=
  String.ofList (trimBlanks s.toList)

/-- Whether a text is empty or holds nothing but blanks. -/
def allBlank (s : String) : Bool :=
  s.toList.all isBlank

theorem toList_trim (s : String) : (trim s).toList = trimBlanks s.toList :=
  String.toList_ofList

end Text
end SqlSession
