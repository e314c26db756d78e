import Scaffold.Attribute.Record
import Scaffold.Schema.Basic

/-!
# Records of a schema

The attribute and index records of an entity, read in order; the first violation stops the reading.
-/

namespace Scaffold

open Scaffold.Document (Value)

/-- Read attribute records in order. -/
def Attribute.ofRecords (entity : Option String) : List Value → Except Violation (List Attribute)
  | [] => .ok []
  | record :: rest => do
      let attr ← Attribute.ofRecord entity record
      let others ← Attribute.ofRecords entity rest
      return attr :: others

/-- Read index records in order, the first of them at a given position. -/
def Index.ofRecords (entity : Option String) (position : Nat) :
    List Value → Except Violation (List Index)
  | [] => .ok []
  | record :: rest => do
      let index ← Index.ofRecord entity position record
      let others ← Index.ofRecords entity (position + 1) rest
      return index :: others

/-- Read attribute and index records and compile them into a schema. -/
def Schema.ofRecords (entity : Option String) (attributes indexes : List Value) :
    Except Violation Schema := do
  let attributes ← Attribute.ofRecords entity attributes
  let indexes ← Index.ofRecords entity 0 indexes
  Schema.compile entity attributes indexes

end Scaffold
