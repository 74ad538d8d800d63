/-
  The environment of a program: variables with their values.
-/

namespace BrokerQuery

/-- The variables that are set, each with its value. -/
structure Environment where
  lookup : String → Option String

namespace Environment

/-- No variable is set. -/
def empty : Environment := ⟨fun _ => none⟩

/-- The first value of each name counts. -/
def ofList (values : List (String × String)) : Environment := ⟨fun name => values.lookup name⟩

/-- The environment with a variable, unless it is set already. -/
def define (env : Environment) (name value : String) : Environment :=
  if (env.lookup name).isSome then env
  else ⟨fun other => if other = name then some value else env.lookup other⟩

end Environment
end BrokerQuery
