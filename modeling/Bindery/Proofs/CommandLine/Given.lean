import Bindery.Proofs.CommandLine.Spelling

/-!
# What a command line gives

A command line is accepted if its first word is a command and its other words can be read, from left
to right, as options of this command, each with its value in the next word or attached to its own.
Such a reading is a list of what was given, and the options that are set are those of the list, with
the last value of each option.
-/

namespace Bindery.CommandLine

variable {command : Command} {of : Option Command}

/-- What one option of a command line gives. -/
inductive Given
  /-- An option without a value. -/
  | flag (c : Choice)
  /-- An option with its value. -/
  | value (c : Choice) (text : String)
  deriving DecidableEq, Repr

/-- The options that are set, with one more. -/
def Choices.apply (cs : Choices) : Given → Choices
  | .flag .strict => { cs with strict := true }
  | .flag .verbose => { cs with verbose := true }
  | .flag _ => cs
  | .value c text => cs.give c text

section Results

variable {ε ε' α β : Type}

end Results

end Bindery.CommandLine
