import Bindery.CommandLine.Word

/-!
# Invocations

What a command line asks for: a command, and the options that it sets. Options take effect from
left to right, and the last of several values of one option counts. Words that nothing takes are
refused at the end.
-/

namespace Bindery.CommandLine

/-- The options that are set. -/
structure Choices where
  /-- The values of options. -/
  values : List (Choice × String) := []
  /-- Whether duplicates are refused. -/
  strict : Bool := false
  /-- Whether everything is reported. -/
  verbose : Bool := false
  deriving DecidableEq, Repr

/-- The value of an option, if it is set and not empty. -/
def Choices.value? (cs : Choices) (c : Choice) : Option String :=
  (Keyed.get? c cs.values).filter (!·.isEmpty)

/-- An option with a value takes effect, in place of any value that it had. -/
def Choices.give (cs : Choices) (c : Choice) (value : String) : Choices :=
  { cs with values := Keyed.put c value cs.values }

/-- An option without a value takes effect; the help ends everything. -/
def Choices.set (of : Option Command) (cs : Choices) : Choice → Except Stop Choices
  | .help => .error (.help of)
  | .strict => .ok { cs with strict := true }
  | .verbose => .ok { cs with verbose := true }
  | .sources | .events | .out | .headerOut | .docsOut => .ok cs

/-- The options of one letter in the argument attached to an option without a value. -/
def letters (choices : List Choice) (c : Choice) : List Char → Except Misuse (List Choice)
  | [] => .error (.ignoredArgument c "")
  | letter :: rest =>
    match spelled? choices ['-', letter] with
    | none => .error (.ignoredArgument c (String.ofList (letter :: rest)))
    | some next => if rest.isEmpty then .ok [c, next] else (letters choices next rest).map (c :: ·)

/-- The value of an attached argument. Two dashes attach none. -/
def attachedValue (argument : String) : String := if argument = "--" then "" else argument

/-- An option with an attached argument takes effect. -/
def Choices.attach (of : Option Command) (cs : Choices) (found : Named) (argument : String) :
    Except Stop Choices :=
  if found.choice.takesValue then .ok (cs.give found.choice (attachedValue argument))
  else if beginsWith ['-', '-'] found.spelling.toList then
    .error (.misuse of (.ignoredArgument found.choice argument))
  else
    match letters (choicesOf of) found.choice argument.toList with
    | .error m => .error (.misuse of m)
    | .ok several => several.foldlM (Choices.set of) cs

/-- The options that words set, and the words that nothing takes, in order. -/
def interpret (of : Option Command) (cs : Choices) : List Word → Except Stop (Choices × List String)
  | [] => .ok (cs, [])
  | .named _ found :: rest =>
    match found.argument with
    | some argument => do interpret of (← cs.attach of found argument) rest
    | none =>
      if found.choice.takesValue then
        match rest with
        | .plain value :: rest => interpret of (cs.give found.choice value) rest
        | _ => .error (.misuse of (.missingArgument found.choice))
      else do interpret of (← cs.set of found.choice) rest
  | word :: rest => do
    let (cs, extras) ← interpret of cs rest
    return (cs, word.text :: extras)

/-- What stands in front of the command: the words that nothing takes, the command's word, and the
words after it. Two dashes cannot be stepped over, and stand for the command themselves. -/
def commandWord : List Word → Except Stop (List String × String × List String)
  | [] => .error (.misuse none .missingCommand)
  | .unknown text :: rest => do
    let (extras, found) ← commandWord rest
    return (text :: extras, found)
  | .named _ found :: rest =>
    match found.argument with
    | some argument => do
      let _ ← ({} : Choices).attach none found argument
      commandWord rest
    | none => do
      let _ ← ({} : Choices).set none found.choice
      commandWord rest
  | .plain text :: rest => .ok ([], text, rest.map Word.text)
  | [.dashes] => .error (.misuse none .missingCommand)
  | .dashes :: rest => .ok ([], "--", rest.map Word.text)

/-- Words told apart, with a misuse counted to the command whose options they may be. -/
def words (of : Option Command) (texts : List String) : Except Stop (List Word) :=
  (classifyAll (choicesOf of) texts).mapError (.misuse of)

/-- What a command line asks for. -/
def invocation (texts : List String) : Except Stop (Command × Choices) := do
  let (before, word, rest) ← commandWord (← words none texts)
  match Command.ofName? word with
  | none => .error (.misuse none (.unknownCommand word))
  | some command =>
    let (choices, extras) ← interpret (some command) {} (← words (some command) rest)
    match before ++ extras with
    | [] => return (command, choices)
    | unrecognized => .error (.misuse none (.unrecognized unrecognized))

end Bindery.CommandLine
