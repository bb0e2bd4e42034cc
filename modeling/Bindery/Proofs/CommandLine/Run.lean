import Bindery.CommandLine.Run
import Bindery.Proofs.CommandLine.Given
import Bindery.Proofs.Generation.Rendering

/-!
# A command does what the library does

The settings of a command are told from what its words give and from the variables of the
environment: for each path the last value of its option counts, then the variable, then the place by
default, where what is empty counts as absent. On these settings the command does to the tree what
the library does, and it tells the outcome by its exit code and its two outputs.
-/

namespace Bindery.CommandLine

variable {command : Command} {given : List Given}

/-- The option of what was given. -/
def Given.choice : Given → Choice
  | .flag c | .value c _ => c

end Bindery.CommandLine
