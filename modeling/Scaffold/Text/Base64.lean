/-!
# Bytes as text

Three bytes are written as four letters of an alphabet of sixty-four.  At the end of a text that
does not fill four letters an equals sign stands for each one that is missing; all other characters
that are no letters are left out.
-/

namespace Scaffold.Text

/-- The value of a letter. -/
def base64Value? (c : Char) : Option Nat :=
  if c.isUpper then some (c.toNat - 'A'.toNat)
  else if c.isLower then some (c.toNat - 'a'.toNat + 26)
  else if c.isDigit then some (c.toNat - '0'.toNat + 52)
  else if c == '+' then some 62
  else if c == '/' then some 63
  else none

/-- The byte that the last bits of one letter and the first bits of the next make up. -/
def base64Byte (position last value : Nat) : UInt8 :=
  match position with
  | 1 => UInt8.ofNat (last * 4 + value / 16)
  | 2 => UInt8.ofNat (last * 16 + value / 4)
  | _ => UInt8.ofNat (last * 64 + value)

/--
The bytes of a text, given the letters since the last full group of four, the bits that the last one
of them has left over, and the equals signs since then.
-/
def base64Rest? (position last signs : Nat) : List Char → Option (List UInt8)
  | [] => if position = 0 then some [] else none
  | c :: rest =>
      if c == '=' then
        let signs := if 2 ≤ position then signs + 1 else signs
        if 2 ≤ position && 4 ≤ position + signs then some []
        else base64Rest? position last signs rest
      else
        match base64Value? c with
        | none => base64Rest? position last signs rest
        | some value =>
            if position = 0 then base64Rest? 1 value 0 rest
            else
              let left := if position = 1 then value % 16 else if position = 2 then value % 4 else 0
              (base64Rest? ((position + 1) % 4) left 0 rest).map
                (base64Byte position last value :: ·)

/-- The bytes that a text encodes. -/
def base64Bytes? (text : List Char) : Option (List UInt8) :=
  base64Rest? 0 0 0 text

end Scaffold.Text
