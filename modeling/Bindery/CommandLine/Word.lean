import Bindery.CommandLine.Option
import Bindery.Keyed
import Bindery.Text.Cut
import Bindery.Text.DecimalDigit

/-!
# Words of a command line

Which words are options and which are not. All words are told apart before any of them takes
effect. An option may be shortened as long as no other one of the command begins alike, and may
have its value attached.
-/

namespace Bindery.CommandLine

/-- A word that names an option, as it is spelled out, with the argument that is attached to it.
-/
structure Named where
  /-- The option. -/
  choice : Choice
  /-- Its full spelling. -/
  spelling : String
  /-- What is attached to it. -/
  argument : Option String
  deriving DecidableEq, Repr

/-- What a word is. -/
inductive Word
  /-- A value, or a command. -/
  | plain (text : String)
  /-- An option of the command. -/
  | named (text : String) (found : Named)
  /-- A word that has the form of an option and is none. -/
  | unknown (text : String)
  /-- Two dashes, after which no word is an option. -/
  | dashes
  deriving DecidableEq, Repr

/-- A word as it was written. -/
def Word.text : Word → String
  | .plain text | .named text _ | .unknown text => text
  | .dashes => "--"

/-- The spellings of some options, each with its option. -/
def spellingsOf (choices : List Choice) : List (String × Choice) :=
  choices.flatMap fun c => c.spellings.map (·, c)

/-- The option of a full spelling. -/
def spelled? (choices : List Choice) (word : List Char) : Option Choice :=
  Keyed.get? (String.ofList word) (spellingsOf choices)

/-- Whether a text begins with another. -/
def beginsWith (front text : List Char) : Bool := (Text.dropFront? front text).isSome

/-- A word cut at its first equals sign, if it has one. -/
def atEquals (word : List Char) : List Char × Option String :=
  match Text.cutAt? ['='] word with
  | some (before, after) => (before, some (String.ofList after))
  | none => (word, none)

/-- The options that a shortened word can stand for. A word with one dash is also an option of one
letter with the rest of the word attached. -/
def candidates (choices : List Choice) (word : List Char) : List Named :=
  match word with
  | '-' :: '-' :: _ =>
    let (front, argument) := atEquals word
    (spellingsOf choices).filterMap fun (spelling, c) =>
      if beginsWith front spelling.toList then some ⟨c, spelling, argument⟩ else none
  | _ =>
    (spellingsOf choices).filterMap fun (spelling, c) =>
      if spelling.toList = word.take 2 then some ⟨c, spelling, some (String.ofList (word.drop 2))⟩
      else if beginsWith word spelling.toList then some ⟨c, spelling, none⟩
      else none

/-- Whether a text is a number without sign: digits, perhaps with a point before the last of them,
and perhaps with a line feed at its end. -/
def isNumber (cs : List Char) : Bool :=
  let body := if cs.getLast? = some '\n' then cs.dropLast else cs
  let digits (ds : List Char) : Bool := ds.all Text.isDecimalDigit
  match Text.cutAt? ['.'] body with
  | some (whole, part) => digits whole && digits part && !part.isEmpty
  | none => digits body && !body.isEmpty

/-- What a word is that does not follow two dashes. -/
def classify (choices : List Choice) (text : String) : Except Misuse Word :=
  match text.toList with
  | '-' :: rest =>
    let word := '-' :: rest
    match spelled? choices word with
    | some c => .ok (.named text ⟨c, text, none⟩)
    | none =>
      if rest.isEmpty then .ok (.plain text)
      else
        let (before, argument) := atEquals word
        match argument.bind fun _ => spelled? choices before with
        | some c => .ok (.named text ⟨c, String.ofList before, argument⟩)
        | none =>
          match candidates choices word with
          | [found] => .ok (.named text found)
          | [] => .ok (if isNumber rest || rest.contains ' ' then .plain text else .unknown text)
          | several => .error (.ambiguous text (several.map Named.spelling))
  | _ => .ok (.plain text)

/-- What the words of a command line are. -/
def classifyAll (choices : List Choice) : List String → Except Misuse (List Word)
  | [] => .ok []
  | text :: rest =>
    if text = "--" then .ok (.dashes :: rest.map .plain)
    else do
      let word ← classify choices text
      let words ← classifyAll choices rest
      return word :: words

end Bindery.CommandLine
