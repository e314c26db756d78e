import Scaffold.Decimal.Numeral
import Scaffold.Decimal.Written
import Scaffold.Text.Quoted

/-!
# Errors of YAML texts

A text may be no YAML at all, or hold a scalar that has no value.  Most scalar errors have a wording;
a few are defects for which none is given.
-/

namespace Scaffold.Document.Yaml

/-- Why a scalar that is spelled like a value has none. -/
inductive ScalarError where
  /-- A day or an instant is out of range. -/
  | outOfRange (rule : String)
  | notInt (base : Nat) (digits : String)
  | notDouble (text : String)
  | tooLong (digits : Nat)
  /-- An escape gives a code beyond the last character. -/
  | codeOutOfRange
  deriving DecidableEq, Repr

/-- The greatest number of characters of a text that an error quotes. -/
def quoteLimit : Nat :=
  200

/-- The wording of an error. -/
def ScalarError.message : ScalarError → String
  | .outOfRange rule => rule
  | .notInt base digits =>
      "invalid literal for int() with base " ++ Decimal.writtenInt base ++ ": " ++
        String.ofList ((Text.quoted digits).toList.take quoteLimit)
  | .notDouble text => "could not convert string to float: " ++ Text.quoted text
  | .tooLong digits => Decimal.tooLongMessage digits
  | .codeOutOfRange => "chr() arg not in range(0x110000)"

/-- Why a scalar has no value, where no wording is given. -/
inductive ScalarDefect where
  /-- A word is no truth value. -/
  | unknownWord
  /-- A text is no day and no instant. -/
  | notStamp
  /-- A number has no characters. -/
  | emptyNumber
  /-- A mapping stands for a day or an instant. -/
  | stampOfMapping
  /-- An escape gives a code of more than 31 bits. -/
  | codeTooLarge
  /-- A mapping that stands for its own value stands inside itself. -/
  | endless
  deriving DecidableEq, Repr

/-- Why a text cannot be read. -/
inductive ReadError where
  /-- The text is no YAML, or has a value that documents cannot hold. -/
  | invalid
  | scalar (error : ScalarError)
  | defect (defect : ScalarDefect)
  deriving DecidableEq, Repr

end Scaffold.Document.Yaml
