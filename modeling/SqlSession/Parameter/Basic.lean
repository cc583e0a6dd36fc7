import SqlSession.Error
import SqlSession.Text.Folding

/-!
# Parameters of a command

A parameter has a value, may have a name, and may have a declared type.  A command has either named
or positional parameters.
-/

namespace SqlSession

structure Parameter where
  name : Option String := none
  type : Option SqlType := none
  value : Value

/-- How the parameters of a command find their places. -/
inductive BindingStyle
  | positional
  | named
deriving DecidableEq, Repr

namespace Parameter

def positional (value : Value) : Parameter := { value }

/-- A parameter whose name may be given with the sigils of a placeholder. -/
def named (name : String) (value : Value) : Parameter :=
  { name := some (String.ofList (name.toList.dropWhile fun c => c == '@' || c == ':')), value }

/-- A parameter without a name, or with an empty one, is positional. -/
def style (p : Parameter) : BindingStyle :=
  if p.name.all String.isEmpty then .positional else .named

/-- The declared type, or else the one that goes with the value. -/
def typeOid (p : Parameter) : Oid :=
  match p.type with
  | some type => type.toOid
  | none => p.value.kind.inferredOid

/-- The style that all parameters share, which is none if there are no parameters. -/
def commonStyle (parameters : List Parameter) : Except Error (Option BindingStyle) :=
  match parameters with
  | [] => .ok none
  | p :: rest =>
    if rest.all fun q => q.style == p.style then .ok (some p.style)
    else .error (.binding .mixedStyles)

/-- The parameter for a placeholder of this name. -/
def find (parameters : List Parameter) (name : String) : Except Error Parameter :=
  match Text.findNamed? Parameter.name name parameters with
  | some p => .ok p
  | none => .error (.binding (.missing name))

/-- The parameters for the placeholders of a statement, in the order of their numbers. -/
def arrange (names : List String) (parameters : List Parameter) : Except Error (List Parameter) :=
  names.mapM (find parameters)

end Parameter
end SqlSession
