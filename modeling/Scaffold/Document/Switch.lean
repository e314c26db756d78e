import Scaffold.Document.Fault
import Scaffold.Text.Words

/-!
# Switches

A switch is on or off.  A document may spell it as a truth value, a word in any case, or a number.
-/

namespace Scaffold.Document

/-- Spellings of a switch that is on. -/
def onWords : List String :=
  ["1", "on", "t", "true", "y", "yes"]

/-- Spellings of a switch that is off. -/
def offWords : List String :=
  ["0", "off", "f", "false", "n", "no"]

/-- An integer of 64 bits with a sign. -/
def isLong (value : Int) : Bool :=
  -9223372036854775808 ≤ value && value ≤ 9223372036854775807

/-- A number without a fraction whose size is below two to the power of 63. -/
def isLongDouble (value : Decimal.Double) : Bool :=
  value.isWhole &&
    match value.size? with
    | some (numerator, denominator) => numerator / denominator < 9223372036854775808
    | none => false

/-- The switch that a word spells. -/
def readSwitchWord (spelling : String) : Except Fault Bool :=
  let word := String.ofList (Text.lowered spelling.toList)
  if onWords.contains word then .ok true
  else if offWords.contains word then .ok false
  else .error .unreadableBoolean

/-- A switch: a truth value, one of its spellings in any case, or the number zero or one. -/
def readSwitch : Value → Except Fault Bool
  | .bool value => .ok value
  | .int value =>
      if value = 1 then .ok true
      else if value = 0 then .ok false
      else if isLong value then .error .unreadableBoolean
      else .error .notBoolean
  | .double value =>
      if value.isOne then .ok true
      else if value.isZero then .ok false
      else if isLongDouble value then .error .unreadableBoolean
      else .error .notBoolean
  | .text spelling => readSwitchWord spelling
  | .bytes values =>
      match textOf (.bytes values) with
      | .ok spelling => readSwitchWord spelling
      | .error _ => .error .unreadableBoolean
  | .illFormed _ => .error .illFormedText
  | _ => .error .notBoolean

end Scaffold.Document
