import CallAtlas.Grammar.PythonRules
import CallAtlas.Grammar.ParseTable
import CallAtlas.Syntax.Build
import CallAtlas.Syntax.Tree

/-!
# The grammar of Python
-/

namespace CallAtlas.Python

/-- The parse table of Python. -/
def table : Grammar.ParseTable := Grammar.ParseTable.ofDescription Grammar.Python.description

/-- The syntax trees of Python programs. -/
def grammar : Syntax.Grammar := fun source => Syntax.Node.ofText table source.bytes

end CallAtlas.Python
