import SqlSession.Parameter.Basic
import SqlSession.Statement.Split

/-!
# Commands and what they send

A command is a text with parameters, or several of them as a batch.  Before anything is sent all
texts are cut into statements and every statement gets its arguments.
-/

namespace SqlSession

/-- What a caller wants of the cursor of a command. -/
structure Behavior where
  /-- The end of the cursor closes the connection. -/
  closeConnection : Bool := false
  /-- The cursor shows columns but no rows. -/
  schemaOnly : Bool := false
deriving DecidableEq, Repr

/-- A text with its parameters. -/
structure CommandPart where
  text : String
  parameters : List Parameter := []

structure Command where
  parts : List CommandPart
  behavior : Behavior := {}

/-- A statement with its arguments. -/
structure PlannedStatement where
  sql : String
  parameters : List Parameter

namespace Command

/-- A command with one text. -/
def single (text : String) (parameters : List Parameter) (behavior : Behavior) : Command :=
  ⟨[⟨text, parameters⟩], behavior⟩

/-- The statements of a part.  A statement with numbered placeholders gets the arguments they name,
and every other one all parameters of the part. -/
def planPart (numbered : Bool) (part : CommandPart) : Except Error (List PlannedStatement) :=
  (Statement.split numbered part.text).mapM fun statement =>
    match statement.names with
    | [] => .ok ⟨statement.sql, part.parameters⟩
    | names => PlannedStatement.mk statement.sql <$> Parameter.arrange names part.parameters

/-- The statements of all parts.  Every part needs a text, and all parameters together share one
style.  Placeholders are numbered if the parameters have names and numbering is wanted. -/
def plan (numberNamed : Bool) (parts : List CommandPart) : Except Error (List PlannedStatement) :=
  if parts.isEmpty || parts.any fun part => Text.allBlank part.text then
    .error (.argument .blankCommand)
  else do
    let style ← Parameter.commonStyle (parts.flatMap CommandPart.parameters)
    let planned ← parts.mapM (planPart (style == some .named && numberNamed))
    return planned.flatten

end Command
end SqlSession
