import Polyglot.Config.Example
import Polyglot.Config.Reader

/-!
# The configuration that needs no file
-/

namespace Polyglot.Config

/-- The standard configuration; its text is known to be valid. -/
def standard : Config :=
  (parseToml exampleText).toOption.getD {}

end Polyglot.Config
