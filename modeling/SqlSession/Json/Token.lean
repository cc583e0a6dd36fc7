import SqlSession.Json.Numeral

/-!
# The tokens of JSON text

Text is cut into brackets, marks and scalars first.  Blanks separate tokens and are not kept.
-/

namespace SqlSession
namespace Json

inductive Token where
  | openArray
  | closeArray
  | openObject
  | closeObject
  | comma
  | colon
  /-- A string, which is a value or the name of a member. -/
  | string (s : String)
  /-- A value that is written without brackets and without quotes. -/
  | scalar (v : Json)

namespace Token

def isSpace (c : Char) : Bool :=
  c == ' ' || c == '\t' || c == '\n' || c == '\r'

def hexDigit? (c : Char) : Option Nat :=
  if c.isDigit then some (c.toNat - '0'.toNat)
  else if 'a' ≤ c ∧ c ≤ 'f' then some (c.toNat - 'a'.toNat + 10)
  else if 'A' ≤ c ∧ c ≤ 'F' then some (c.toNat - 'A'.toNat + 10)
  else none

def hex4? (a b c d : Char) : Option Nat := do
  return ((← hexDigit? a) * 16 + (← hexDigit? b)) * 256 + (← hexDigit? c) * 16 + (← hexDigit? d)

/-- The character that a single letter after a backslash stands for. -/
def escaped? : Char → Option Char
  | '"' => some '"'
  | '\\' => some '\\'
  | '/' => some '/'
  | 'b' => some '\x08'
  | 'f' => some '\x0c'
  | 'n' => some '\n'
  | 'r' => some '\r'
  | 't' => some '\t'
  | _ => none

def pair (high low : Nat) : Char :=
  Char.ofNat (0x10000 + (high - 0xD800) * 0x400 + (low - 0xDC00))

/-- The rest of a string after the opening quote: its characters, and what follows the closing
quote.  Halves of a surrogate pair and raw control characters are refused. -/
def scanString? : List Char → Option (List Char × List Char)
  | '"' :: rest => some ([], rest)
  | '\\' :: 'u' :: a :: b :: c :: d :: '\\' :: 'u' :: e :: f :: g :: h :: rest =>
    match hex4? a b c d with
    | none => none
    | some unit =>
      if 0xDC00 ≤ unit ∧ unit ≤ 0xDFFF then none
      else if 0xD800 ≤ unit ∧ unit ≤ 0xDBFF then
        match hex4? e f g h with
        | none => none
        | some low =>
          if 0xDC00 ≤ low ∧ low ≤ 0xDFFF then
            (fun (cs, rest) => (pair unit low :: cs, rest)) <$> scanString? rest
          else none
      else
        (fun (cs, rest) => (Char.ofNat unit :: cs, rest)) <$>
          scanString? ('\\' :: 'u' :: e :: f :: g :: h :: rest)
  | '\\' :: 'u' :: a :: b :: c :: d :: rest =>
    match hex4? a b c d with
    | none => none
    | some unit =>
      if 0xD800 ≤ unit ∧ unit ≤ 0xDFFF then none
      else (fun (cs, rest) => (Char.ofNat unit :: cs, rest)) <$> scanString? rest
  | '\\' :: c :: rest =>
    match escaped? c with
    | none => none
    | some plain => (fun (cs, rest) => (plain :: cs, rest)) <$> scanString? rest
  | c :: rest =>
    if c == '\\' || c.toNat < 0x20 then none
    else (fun (cs, rest) => (c :: cs, rest)) <$> scanString? rest
  | [] => none

/-- The token at the start of a text that does not start with a blank, and what follows it. -/
def next? : List Char → Option (Token × List Char)
  | '[' :: rest => some (.openArray, rest)
  | ']' :: rest => some (.closeArray, rest)
  | '{' :: rest => some (.openObject, rest)
  | '}' :: rest => some (.closeObject, rest)
  | ',' :: rest => some (.comma, rest)
  | ':' :: rest => some (.colon, rest)
  | '"' :: rest => (fun (cs, rest) => (.string (String.ofList cs), rest)) <$> scanString? rest
  | 'n' :: 'u' :: 'l' :: 'l' :: rest => some (.scalar .null, rest)
  | 't' :: 'r' :: 'u' :: 'e' :: rest => some (.scalar (.bool true), rest)
  | 'f' :: 'a' :: 'l' :: 's' :: 'e' :: rest => some (.scalar (.bool false), rest)
  | cs => do
    let (numeral, rest) ← Numeral.scan? cs
    let v ← numeral.value?
    return (.scalar v, rest)

/-- All tokens of a text, given a bound on their number. -/
def scan? : Nat → List Char → Option (List Token)
  | bound, cs =>
    match cs.dropWhile isSpace with
    | [] => some []
    | cs =>
      match bound with
      | 0 => none
      | bound + 1 => do
        let (token, rest) ← next? cs
        let tokens ← scan? bound rest
        return token :: tokens

/-- All tokens of a text.  A token has at least one character, so the length bounds their number. -/
def ofText? (s : String) : Option (List Token) :=
  scan? s.toList.length s.toList

end Token
end Json
end SqlSession
