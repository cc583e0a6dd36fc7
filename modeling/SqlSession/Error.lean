import SqlSession.Connection.Phase
import SqlSession.Diagnostic
import SqlSession.Number.Layout
import SqlSession.Number.Unsigned
import SqlSession.Value.Target

/-!
# Errors

An error says what was wrong.  Its kind is its constructor, its cause the argument, and the wording
is in one place for each kind.
-/

namespace SqlSession

inductive BindingFault
  /-- Some parameters have names and some have none. -/
  | mixedStyles
  /-- A placeholder has a name that no parameter has. -/
  | missing (name : String)
  | unencodable (kind : Kind) (type : Oid)

namespace BindingFault

def text : BindingFault → String
  | mixedStyles => "Mixing named and positional parameters isn't supported"
  | missing name => s!"No parameter named '{name}' was supplied"
  | unencodable kind type => s!"Can't encode a {kind.label} value as type {type}"

end BindingFault

inductive CastFault
  | null (target : Target)
  | mismatch (kind : Kind) (target : Target)
  /-- An integer does not fit a narrower integer. -/
  | outOfRange (v : Int64) (target : Target)
  /-- An integer is not a float. -/
  | inexact (v : Int64)
  /-- A float is larger than the floats of 32 bits. -/
  | overflow (v : Binary64)
  | invalidJson

namespace CastFault

def text : CastFault → String
  | null target => s!"Column is null and cannot be read as {target.label}"
  | mismatch kind target => s!"Can't read a {kind.label} value as {target.label}"
  | outOfRange v target => s!"{v.toInt} is out of range for {target.label}"
  | inexact v => s!"{v.toInt} cannot be represented exactly as {Target.binary64.label}"
  | overflow v => s!"{v.plainText} is out of range for {Target.binary32.label}"
  | invalidJson => "text is not valid JSON"

end CastFault

/-- Why the rows of the type catalog cannot be understood. -/
inductive CatalogFault
  | noTable
  | columns (count : Nat)
  | emptyKind
  | nullOid
  | notText (column : Nat) (kind : Kind)
  | notOid (column : Nat) (kind : Kind)
  | badOid (column : Nat) (reason : NumberFault)

namespace CatalogFault

def expectedColumns : Nat := 6

def text : CatalogFault → String
  | noTable => "type catalog query produced no tuple table"
  | columns count => s!"type catalog query returned {count} columns, expected {expectedColumns}"
  | emptyKind => "type catalog row has an empty typtype"
  | nullOid => "type catalog row has a null oid"
  | notText column kind => s!"type catalog column {column} should be text, got {kind.label}"
  | notOid column kind => s!"type catalog column {column} should be an OID, got {kind.label}"
  | badOid column reason => s!"type catalog column {column} is not an OID: {reason.text}"

end CatalogFault

inductive StateFault
  | notOpen
  | busy (phase : Phase)
  | alreadyOpen (phase : Phase)
  | cursorClosed
  | noRow
  /-- The engine fails to fetch a row. -/
  | fetch (row : Nat)
  /-- A datum was never handed out. -/
  | deadDatum (index : Nat)
  /-- The engine fails to decode values of a type. -/
  | decode (type : Oid)
  | catalog (fault : CatalogFault)

namespace StateFault

def text : StateFault → String
  | notOpen => "Connection is not open"
  | busy phase => s!"Connection is busy (state {phase.label})"
  | alreadyOpen phase => s!"Connection already open (state {phase.label})"
  | cursorClosed => "Reader is closed"
  | noRow => "No row is available"
  | fetch row => s!"fetch of row {row} failed"
  | deadDatum index => s!"datum {index} is not live"
  | decode type => s!"decode of type {type} failed"
  | catalog fault => fault.text

end StateFault

inductive UnsupportedFault
  /-- The isolation level without any guarantee. -/
  | chaos
  /-- The catalog has a type of a kind that does not exist. -/
  | typeKind (kind : Char) (name : String)

namespace UnsupportedFault

def text : UnsupportedFault → String
  | chaos => "Unsupported IsolationLevel: Chaos"
  | typeKind kind name => s!"unknown type kind '{kind}' for type '{name}' in pg_type"

end UnsupportedFault

inductive RangeFault
  | ordinal (ordinal : Nat) (count : Nat)
  | column (name : String)
  /-- There is no such row in a table. -/
  | row (index : Nat) (table : Nat)

namespace RangeFault

def text : RangeFault → String
  | ordinal i count => s!"ordinal {i} is outside the {count} column(s) of the current result"
  | column name => s!"Field not found in row: {name}"
  | row index table => s!"row {index} is not in table {table}"

end RangeFault

inductive ArgumentFault
  | blankCommand
  | blankSavepoint

namespace ArgumentFault

def text : ArgumentFault → String
  | blankCommand => "The command text was not set"
  | blankSavepoint => "savepoint name can't be empty"

end ArgumentFault

inductive VersionFault
  | noDigits (raw : String)
  | badNumber (raw : String) (reason : NumberFault)

namespace VersionFault

def text : VersionFault → String
  | noDigits raw => s!"Unable to parse server version '{raw}'"
  | badNumber raw reason => s!"Invalid server version '{raw}': {reason.text}"

end VersionFault

inductive Error
  | database (e : DatabaseError)
  | binding (fault : BindingFault)
  | cast (fault : CastFault)
  | state (fault : StateFault)
  | unsupported (fault : UnsupportedFault)
  | unknownType (oid : Oid)
  | range (fault : RangeFault)
  | argument (fault : ArgumentFault)
  | version (fault : VersionFault)

namespace Error

def message : Error → String
  | database e => e.text
  | binding fault => "Parameter binding error: " ++ fault.text
  | cast fault => "Invalid cast: " ++ fault.text
  | state fault => "Invalid operation: " ++ fault.text
  | unsupported fault => "Unsupported configuration: " ++ fault.text
  | unknownType oid => s!"Type with OID {oid} is not present in the type registry"
  | range fault => "Index out of range: " ++ fault.text
  | argument fault => "Invalid argument: " ++ fault.text
  | version fault => "Configuration error: " ++ fault.text

end Error
end SqlSession
