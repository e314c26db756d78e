import Scaffold.Document.Yaml.Directive
import Scaffold.Document.Yaml.Spelling

/-!
# Kinds of nodes

The tag of a node decides which kind of value it stands for.  A node without a tag is a list, a
mapping or a text, unless it is a plain scalar that is spelled like another value.
-/

namespace Scaffold.Document.Yaml

/-- The kind of a tag in full. -/
def NodeKind.ofTag (tag : String) : NodeKind :=
  let start := standardStart.toList
  if !start.isPrefixOf tag.toList then .unknown
  else
    match String.ofList (tag.toList.drop start.length) with
    | "null" => .null
    | "bool" => .bool
    | "int" => .int
    | "float" => .double
    | "binary" => .bytes
    | "timestamp" => .stamp
    | "str" => .text
    | "seq" => .list
    | "omap" => .pairs
    | "pairs" => .pairs
    | "set" => .set
    | "map" => .mapping
    | "merge" => .merge
    | "value" => .standard
    | _ => .unknown

/-- The text of a scalar, which is spelled in ASCII where its kind depends on it. -/
def spellingOf (codes : List Nat) : String :=
  Text.shownCodes codes

/-- The kind of a scalar. -/
def scalarKind (tag : Option String) (codes : List Nat) (plain : Bool) : NodeKind :=
  match tag with
  | none => if plain then kindOf (spellingOf codes) else .text
  | some tag => if tag == openTag then kindOf (spellingOf codes) else .ofTag tag

/-- The kind of a list or mapping, which has one of its own unless a tag gives another. -/
def collectionKind (own : NodeKind) (tag : Option String) : NodeKind :=
  match tag with
  | none => own
  | some tag => if tag == openTag then own else .ofTag tag

end Scaffold.Document.Yaml
