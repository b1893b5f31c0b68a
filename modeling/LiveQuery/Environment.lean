import LiveQuery.Text.Glyph

/-!
# The environment

The variables that are set when the program starts. Their values are octets; most readers want
texts, and for them a value that is none counts as not set.
-/

namespace LiveQuery

/-- The variables that are set. -/
abbrev Environment := List (String × Bytes)

/-- The value of a variable, if it is set to a text. -/
def Environment.text? (env : Environment) (name : String) : Option String :=
  (env.lookup name).bind Bytes.toString?

end LiveQuery
