import Polyglot.Tool.File
import Polyglot.Tool.Filter
import Polyglot.Tool.Sed

/-!
# Programs by name

Every program but the one that runs scripts.
-/

namespace Polyglot.Tool

/-- What the program of a name does; none for a program that is not one of these. -/
def program? : String → Option (Call → Effect)
  | "cat" => some cat
  | "cp" => some cp
  | "basename" => some basename
  | "ls" => some ls
  | "head" => some head
  | "tail" => some tail
  | "cksum" => some cksum
  | "tr" => some tr
  | "seq" => some seq
  | "grep" => some grep
  | "sed" => some sed
  | "printf" => some (printf { extended := true })
  | "true" => some Call.done
  | _ => none

end Polyglot.Tool
