/-!
# YAML values

The values of documents in which settings are written.
-/

namespace TinyScript

/-- A YAML value. Of lists nothing is kept; keys of mappings are scalars. -/
inductive Yaml where
  | plain (text : String)
  | quoted (text : String)
  | list
  | mapping (entries : List (String × Yaml))

/-- The text of a scalar. -/
def Yaml.scalar? : Yaml → Option String
  | plain text => some text
  | quoted text => some text
  | _ => none

end TinyScript
