import SqlSession.Catalog.Descriptor
import SqlSession.Error
import SqlSession.Keyed

/-!
# The types of a catalog

The catalog lists types one row after the other.  Types of the kinds that a column can have become
descriptors, and an array finds its element among the rows before it.
-/

namespace SqlSession

/-- One type of the catalog. -/
structure CatalogRow where
  identity : TypeIdentity
  kind : Char
  element : Option Oid
deriving DecidableEq

/-- Descriptors by their identifiers. -/
abbrev TypeMap := List (Oid × TypeDescriptor)

namespace TypeMap

def find? (m : TypeMap) (oid : Oid) : Option TypeDescriptor := Keyed.find? oid m

/-- Adds a type under its own identifier. -/
def add (m : TypeMap) (t : TypeDescriptor) : TypeMap := Keyed.insert t.oid t m

/-- What a row adds to the types of the rows before it.  Pseudo-types count as base types.  Ranges,
multiranges, enumerations, composites and domains add nothing, and neither does an array of a type
that has not been added. -/
def addRow (m : TypeMap) (row : CatalogRow) : Except Error TypeMap :=
  match row.kind with
  | 'b' | 'p' => .ok (m.add (.base row.identity))
  | 'a' =>
    match row.element.bind m.find? with
    | some element => .ok (m.add (.array row.identity element))
    | none => .ok m
  | 'r' | 'm' | 'e' | 'c' | 'd' => .ok m
  | kind => .error (.unsupported (.typeKind kind row.identity.name))

/-- The types of a catalog. -/
def ofRows (rows : List CatalogRow) : Except Error TypeMap :=
  rows.foldlM addRow []

theorem find?_add_self (m : TypeMap) (t : TypeDescriptor) : (m.add t).find? t.oid = some t :=
  Keyed.find?_insert_self _ _ _

theorem find?_add_of_ne {m : TypeMap} {t : TypeDescriptor} {oid : Oid} (h : oid ≠ t.oid) :
    (m.add t).find? oid = m.find? oid :=
  Keyed.find?_insert_of_ne h _ _

end TypeMap
end SqlSession
