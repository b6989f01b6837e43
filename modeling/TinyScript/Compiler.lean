import TinyScript.Program.Parser
import TinyScript.Cpp.Emit

/-!
# Compiling source text

From source text to C++ text in one step.
-/

namespace TinyScript

/-- The C++ text for a source text. -/
def compile (indent source : String) : Except CompileError String := do
  let program ← (Program.parse source).mapError .parse
  (Cpp.emit indent program).mapError .emit

end TinyScript
