import Bindery.Text.Quoted

/-!
# Commands and their options

The commands of the program, the options that each of them knows, and what can be wrong with the
words of a command line.
-/

namespace Bindery.CommandLine

/-- A command. -/
inductive Command
  | version
  | header
  | docs
  | all
  deriving DecidableEq, Repr

namespace Command

/-- The word that selects a command. -/
def name : Command → String
  | version => "version"
  | header => "header"
  | docs => "docs"
  | all => "all"

/-- All commands, in the order of the help. -/
def list : List Command := [version, header, docs, all]

/-- The command of a word. -/
def ofName? (word : String) : Option Command := list.find? fun c => c.name = word

end Command

/-- An option. -/
inductive Choice
  | help
  | sources
  | strict
  | verbose
  | events
  | out
  | headerOut
  | docsOut
  deriving DecidableEq, Repr

namespace Choice

/-- How an option is spelled. -/
def spellings : Choice → List String
  | help => ["-h", "--help"]
  | sources => ["--capi-dir"]
  | strict => ["--strict"]
  | verbose => ["-v", "--verbose"]
  | events => ["--events"]
  | out => ["--out"]
  | headerOut => ["--header-out"]
  | docsOut => ["--docs-out"]

/-- Whether a value follows the option. No option of one letter has one. -/
def takesValue : Choice → Bool
  | help | strict | verbose => false
  | sources | events | out | headerOut | docsOut => true

/-- An option as messages show it. -/
def text (c : Choice) : String := "/".intercalate c.spellings

end Choice

/-- The options of a command, or of the program in front of its command. -/
def choicesOf : Option Command → List Choice
  | none => [.help]
  | some .version => [.help]
  | some .header => [.help, .sources, .strict, .verbose, .events, .out]
  | some .docs => [.help, .sources, .strict, .verbose, .out]
  | some .all => [.help, .sources, .strict, .verbose, .events, .headerOut, .docsOut]

/-- What is wrong with the words of a command line. -/
inductive Misuse
  | ambiguous (word : String) (candidates : List String)
  | ignoredArgument (choice : Choice) (argument : String)
  | missingArgument (choice : Choice)
  | missingCommand
  | unknownCommand (word : String)
  | unrecognized (words : List String)
  deriving DecidableEq, Repr

/-- The text of a misuse. -/
def Misuse.message : Misuse → String
  | .ambiguous word candidates =>
    "ambiguous option: " ++ word ++ " could match " ++ ", ".intercalate candidates
  | .ignoredArgument choice argument =>
    "argument " ++ choice.text ++ ": ignored explicit argument " ++ Text.quoted argument
  | .missingArgument choice => "argument " ++ choice.text ++ ": expected one argument"
  | .missingCommand => "the following arguments are required: cmd"
  | .unknownCommand word =>
    "argument cmd: invalid choice: " ++ Text.quoted word ++ " (choose from " ++
      ", ".intercalate (Command.list.map fun c => Text.quoted c.name) ++ ")"
  | .unrecognized words => "unrecognized arguments: " ++ " ".intercalate words

/-- Why a command line selects nothing to do: the help was asked for, or it is misused. The help
and the misuse are those of the program or of one command. -/
inductive Stop
  | help (of : Option Command)
  | misuse (of : Option Command) (what : Misuse)
  deriving DecidableEq, Repr

end Bindery.CommandLine
