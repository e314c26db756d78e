import Scaffold.Output.Entity
import Scaffold.Text.DecimalDigit
import Scaffold.Text.Identifier

/-!
# Flags

A flag is an option of a command line.  It has a long name, and perhaps a short one; some flags take
a value.  A word of the command line names a flag exactly, or by the start of a long name that no
other one shares, and may have a value attached.
-/

namespace Scaffold.CommandLine

/-- An option of a command line. -/
inductive Flag where
  | help
  | version
  | config
  | append
  /-- A single file of a kind is asked for. -/
  | file (kind : FileKind)
  | modulesPath
  | stubsPath
  | strictReferences
  | noOverwrite
  | validateOnly
  | dryRun
  | verbose
  | quiet
  deriving DecidableEq, Repr

/-- A flag takes a value. -/
def Flag.takesValue : Flag → Bool
  | .config | .file _ | .modulesPath | .stubsPath => true
  | _ => false

/-- The names of flags. -/
abbrev FlagTable := List (String × Flag)

/-- The flags in front of the command. -/
def mainFlags : FlagTable :=
  [("-h", .help), ("--help", .help), ("--version", .version)]

/-- The flags of the command that makes modules. -/
def makeFlags : FlagTable :=
  [("-h", .help), ("--help", .help), ("-c", .config), ("--config", .config), ("--append", .append),
    ("--model", .file .model), ("--controller", .file .controller), ("--request", .file .request),
    ("--service", .file .service), ("--repository", .file .repository),
    ("--migration", .file .migration), ("--modules-path", .modulesPath),
    ("--stubs-path", .stubsPath), ("--strict-references", .strictReferences),
    ("--no-overwrite", .noOverwrite), ("--validate-only", .validateOnly), ("--dry-run", .dryRun),
    ("-v", .verbose), ("--verbose", .verbose), ("-q", .quiet), ("--quiet", .quiet)]

/-- The flags of the command that publishes stubs and examples. -/
def setupFlags : FlagTable :=
  [("-h", .help), ("--help", .help), ("--modules-path", .modulesPath), ("-v", .verbose),
    ("--verbose", .verbose), ("-q", .quiet), ("--quiet", .quiet)]

/-- A flag as a word names it. -/
structure NamedFlag where
  flag : Flag
  /-- The name is one letter after one dash. -/
  short : Bool
  /-- What stands behind the name in the word. -/
  attached : Option String
  deriving DecidableEq, Repr

/-- What a word of a command line is. -/
inductive Word where
  | operand (text : String)
  /-- Two dashes, after which all words are operands. -/
  | dashes
  | flag (named : NamedFlag)
  | unknownFlag
  deriving DecidableEq, Repr

/-- The flag of an exact name. -/
def FlagTable.find? (table : FlagTable) (name : String) : Option Flag :=
  (List.find? (·.1 == name) table).map (·.2)

/-- A text before and after its first equals sign. -/
def splitEquals? (text : List Char) : Option (List Char × List Char) :=
  match text.dropWhile (· != '=') with
  | '=' :: rest => some (text.takeWhile (· != '='), rest)
  | _ => none

/-- A word that is spelled like a negative number is an operand. -/
def isNegativeNumber (text : List Char) : Bool :=
  match Text.withoutLineEnd text with
  | '-' :: digits =>
      match digits.dropWhile Text.isDecimalDigit with
      | [] => !digits.isEmpty
      | '.' :: decimals => !decimals.isEmpty && decimals.all Text.isDecimalDigit
      | _ => false
  | _ => false

/-- The flags whose long names start with a word, which may have a value attached. -/
def longMatches (table : FlagTable) (text : List Char) : List NamedFlag :=
  let (start, attached) :=
    match splitEquals? text with
    | some (start, value) => (start, some (String.ofList value))
    | none => (text, none)
  (table.filter fun entry => start.isPrefixOf entry.1.toList).map fun entry =>
    ⟨entry.2, false, attached⟩

/-- The flags of one letter that a word starts with. -/
def shortMatches (table : FlagTable) (text : List Char) : List NamedFlag :=
  (table.filter fun entry => entry.1.toList == text.take 2).map fun entry =>
    ⟨entry.2, true, some (String.ofList (text.drop 2))⟩

/-- The flags that a word can name. -/
def flagMatches (table : FlagTable) (text : List Char) : List NamedFlag :=
  match text with
  | '-' :: '-' :: _ => longMatches table text
  | _ => shortMatches table text

/-- A name is one letter after one dash. -/
def isShortName (text : List Char) : Bool :=
  text.length = 2 && text != ['-', '-']

/-- The flag that a word names exactly, apart from an attached value. -/
def exactMatch? (table : FlagTable) (text : List Char) : Option NamedFlag :=
  match table.find? (String.ofList text) with
  | some flag => some ⟨flag, isShortName text, none⟩
  | none =>
      match splitEquals? text with
      | some (name, value) =>
          (table.find? (String.ofList name)).map fun flag =>
            ⟨flag, isShortName name, some (String.ofList value)⟩
      | none => none

/-- What a word is; none for the start of several names. -/
def wordOf? (table : FlagTable) (text : String) : Option Word :=
  let characters := text.toList
  if characters.length < 2 || characters.head? != some '-' then some (.operand text)
  else
    match exactMatch? table characters with
    | some named => some (.flag named)
    | none =>
        match flagMatches table characters with
        | [named] => some (.flag named)
        | _ :: _ :: _ => none
        | [] =>
            if isNegativeNumber characters || characters.contains ' ' then some (.operand text)
            else some .unknownFlag

/-- What all words are; none if one of them is the start of several names. -/
def wordsOf? (table : FlagTable) : List String → Option (List Word)
  | [] => some []
  | text :: rest =>
      if text == "--" then some (.dashes :: rest.map .operand)
      else
        match wordOf? table text with
        | some word => (wordsOf? table rest).map (word :: ·)
        | none => none

end Scaffold.CommandLine
