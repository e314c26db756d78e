import Scaffold.CommandLine.Flag
import Scaffold.Keyed

/-!
# Arguments

The words of a command line are read as a command with its arguments.  A command line that asks for
help or for the version, or that cannot be understood, gives no command.
-/

namespace Scaffold.CommandLine

/-- Why a command line gives no command. -/
inductive Refusal where
  | help
  | version
  | misuse
  deriving DecidableEq, Repr

/-- A flag with its value, which is empty for a flag that takes none. -/
abbrev Given := Flag × String

/-- The arguments of a command so far. -/
structure Reading where
  given : List Given := []
  operand : Option String := none
  /-- There were words that the command does not take. -/
  surplus : Bool := false

/-- The flag of one letter at the start of a text, with what is attached to it. -/
def letterFlag? (table : FlagTable) : List Char → Option NamedFlag
  | [] => none
  | letter :: others =>
      (table.find? (String.ofList ['-', letter])).map fun flag =>
        ⟨flag, true, if others.isEmpty then none else some (String.ofList others)⟩

/-- The flags of a word with their values, and what the word leaves of the words after it. -/
structure FlagGroup where
  given : List Given
  behind : List Word

/--
The flags that stand together in one word, with the values that they take.  What is attached to a
flag of one letter that takes no value consists of further flags.
-/
def flagsOf? (table : FlagTable) : Nat → NamedFlag → List Word → Option FlagGroup
  | 0, _, _ => none
  | fuel + 1, named, rest =>
      match named.attached, named.flag.takesValue with
      | some text, true => some ⟨[(named.flag, text)], rest⟩
      | some text, false =>
          if !named.short then none
          else
            match letterFlag? table text.toList with
            | none => none
            | some next =>
                (flagsOf? table fuel next rest).map fun group =>
                  { group with given := (named.flag, "") :: group.given }
      | none, true =>
          match rest with
          | .operand value :: behind => some ⟨[(named.flag, value)], behind⟩
          | _ => none
      | none, false => some ⟨[(named.flag, "")], rest⟩

/-- The flags of a word, unless one of them ends the reading. -/
def takeFlags (table : FlagTable) (named : NamedFlag) (rest : List Word) :
    Except Refusal FlagGroup :=
  let fuel := ((named.attached.map String.length).getD 0) + 1
  match flagsOf? table fuel named rest with
  | none => .error .misuse
  | some group =>
      match group.given.find? fun entry => entry.1 == .help || entry.1 == .version with
      | some (.help, _) => .error .help
      | some _ => .error .version
      | none => .ok group

/-- Read the arguments of a command that takes one operand, or none. -/
def readArguments (table : FlagTable) (takesOperand : Bool) :
    Nat → Reading → List Word → Except Refusal Reading
  | 0, _, _ => .error .misuse
  | _ + 1, reading, [] => .ok reading
  | fuel + 1, reading, .flag named :: rest =>
      match takeFlags table named rest with
      | .error refusal => .error refusal
      | .ok group =>
          let next := { reading with given := reading.given ++ group.given }
          readArguments table takesOperand fuel next group.behind
  | fuel + 1, reading, .unknownFlag :: rest =>
      readArguments table takesOperand fuel { reading with surplus := true } rest
  | fuel + 1, reading, word :: rest =>
      let surplus := fun () =>
        readArguments table takesOperand fuel { reading with surplus := true } rest
      if !takesOperand || reading.operand.isSome then surplus ()
      else
        let take := fun (text : String) (behind : List Word) =>
          readArguments table takesOperand fuel { reading with operand := some text } behind
        match word, rest with
        | .operand text, .dashes :: behind => take text behind
        | .operand text, behind => take text behind
        | .dashes, .operand text :: behind => take text behind
        | _, _ => surplus ()

/-- The arguments of the command that makes modules. -/
structure MakeArguments where
  module : String
  config : Option String := none
  append : Bool := false
  /-- Class names under the names of the kinds of single files. -/
  files : Keyed String := []
  modulesPath : Option String := none
  stubsPath : Option String := none
  strictReferences : Bool := false
  noOverwrite : Bool := false
  validateOnly : Bool := false
  dryRun : Bool := false
  quiet : Bool := false
  deriving DecidableEq, Repr

/-- The arguments with one more flag; of several values of a flag the last one counts. -/
def MakeArguments.add (arguments : MakeArguments) (given : Given) : MakeArguments :=
  let value := given.2
  match given.1 with
  | .config => { arguments with config := some value }
  | .append => { arguments with append := true }
  | .file kind => { arguments with files := Keyed.put arguments.files kind.name value }
  | .modulesPath => { arguments with modulesPath := some value }
  | .stubsPath => { arguments with stubsPath := some value }
  | .strictReferences => { arguments with strictReferences := true }
  | .noOverwrite => { arguments with noOverwrite := true }
  | .validateOnly => { arguments with validateOnly := true }
  | .dryRun => { arguments with dryRun := true }
  | .quiet => { arguments with quiet := true }
  | .help | .version | .verbose => arguments

/-- The arguments of the command that publishes stubs and examples. -/
structure SetupArguments where
  modulesPath : Option String := none
  quiet : Bool := false
  deriving DecidableEq, Repr

/-- The arguments with one more flag; of several values of a flag the last one counts. -/
def SetupArguments.add (arguments : SetupArguments) (given : Given) : SetupArguments :=
  match given.1 with
  | .modulesPath => { arguments with modulesPath := some given.2 }
  | .quiet => { arguments with quiet := true }
  | _ => arguments

/-- A command with its arguments. -/
inductive Command where
  | make (arguments : MakeArguments)
  | setup (arguments : SetupArguments)
  deriving DecidableEq, Repr

namespace Command

/-- The name of a command. -/
def name : Command → String
  | .make _ => "make"
  | .setup _ => "setup"

/-- Only the answer of the command is wanted, and no log. -/
def isQuiet : Command → Bool
  | .make arguments => arguments.quiet
  | .setup arguments => arguments.quiet

/-- Read the arguments of a command from its words. -/
def argumentsOf (table : FlagTable) (takesOperand : Bool) (words : List String) :
    Except Refusal Reading :=
  match wordsOf? table words with
  | none => .error .misuse
  | some forms => readArguments table takesOperand (forms.length + 1) {} forms

/-- Read a command from its name and the words after it. -/
def ofName (name : String) (words : List String) : Except Refusal Command :=
  if name == "make" then
    match argumentsOf makeFlags true words with
    | .error refusal => .error refusal
    | .ok reading =>
        match reading.operand with
        | some module =>
            if reading.surplus then .error .misuse
            else .ok (.make (reading.given.foldl MakeArguments.add { module }))
        | none => .error .misuse
  else if name == "setup" then
    match argumentsOf setupFlags false words with
    | .error refusal => .error refusal
    | .ok reading =>
        if reading.surplus then .error .misuse
        else .ok (.setup (reading.given.foldl SetupArguments.add {}))
  else .error .misuse

/-- Read the words in front of a command, and then the command. -/
def ofForms (surplus : Bool) : List Word → List String → Except Refusal Command
  | .flag named :: forms, _ :: words =>
      match takeFlags mainFlags named forms with
      | .error refusal => .error refusal
      | .ok _ => ofForms surplus forms words
  | .unknownFlag :: forms, _ :: words => ofForms true forms words
  | .operand name :: _, _ :: words =>
      match ofName name words with
      | .error refusal => .error refusal
      | .ok command => if surplus then .error .misuse else .ok command
  | _, _ => .error .misuse

/-- Read a command line. -/
def read (words : List String) : Except Refusal Command :=
  match wordsOf? mainFlags words with
  | none => .error .misuse
  | some forms => ofForms false forms words

end Command

end Scaffold.CommandLine
