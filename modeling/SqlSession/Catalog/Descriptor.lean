import SqlSession.Catalog.Facets
import SqlSession.Oid

/-!
# Type descriptors

A type is a base type or an array of another type.
-/

namespace SqlSession

/-- How the engine identifies a type: by its number, and by its name within a schema. -/
structure TypeIdentity where
  schema : String
  name : String
  oid : Oid
deriving DecidableEq, Repr

inductive TypeDescriptor
  | base (identity : TypeIdentity)
  | array (identity : TypeIdentity) (element : TypeDescriptor)
deriving DecidableEq, Repr

namespace TypeDescriptor

def identity : TypeDescriptor → TypeIdentity
  | base identity => identity
  | array identity _ => identity

def oid (t : TypeDescriptor) : Oid := t.identity.oid

def element? : TypeDescriptor → Option TypeDescriptor
  | base _ => none
  | array _ element => some element

/-- The name together with its schema. -/
def qualifiedName (t : TypeDescriptor) : String :=
  t.identity.schema ++ "." ++ t.identity.name

/-- The schema of the built-in types, which is left out of displayed names. -/
def systemSchema : String := "pg_catalog"

/-- The type as SQL writes it, with the facets in a modifier.  The modifier of an array column is
that of its elements, and so are the name and the schema that are shown. -/
def displayWith (modifier : Int32) : TypeDescriptor → String
  | base identity =>
    let shown := Facets.sqlNameWith identity.name modifier
    if identity.schema = systemSchema then shown else identity.schema ++ "." ++ shown
  | array _ element => element.displayWith modifier ++ "[]"

/-- The type as SQL writes it without facets. -/
def display (t : TypeDescriptor) : String := t.displayWith Facets.undeclared

end TypeDescriptor
end SqlSession
