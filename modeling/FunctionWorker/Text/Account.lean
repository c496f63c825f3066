/-!
Short accounts of values for people who look into a running program: a name, and fields in braces.
-/

namespace FunctionWorker.Text

/-- The account of something with fields. -/
def account (name : String) (fields : List (String × String)) : String :=
  name ++ " \x7b " ++ ", ".intercalate (fields.map fun (field, value) => field ++ ": " ++ value)
    ++ " \x7d"

/-- The account of what may be missing. -/
def optional : Option String → String
  | some account => "Some(" ++ account ++ ")"
  | none => "None"

end FunctionWorker.Text
