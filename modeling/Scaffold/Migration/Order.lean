import Scaffold.Entity.Descriptor

/-!
# The order of migrations

A table is created before the tables whose foreign keys point to it, as far as both belong to the
same run.  Apart from that the order of declaration is kept, and a cycle is broken where it closes.
-/

namespace Scaffold.Migration

/-- Descriptors in their new order, and their tables. -/
structure Placement where
  ordered : List Descriptor := []
  placed : List String := []

/-- The descriptor of a table; of several the last one counts. -/
def ofTable? (descriptors : List Descriptor) (table : String) : Option Descriptor :=
  descriptors.reverse.find? (·.table == table)

/--
Place a descriptor after those that its foreign keys point to.  The tables that are being placed are
given as `visiting`; `fuel` bounds their number.
-/
def place (descriptors : List Descriptor) :
    Nat → List String → Placement → Descriptor → Placement
  | 0, _, placement, _ => placement
  | fuel + 1, visiting, placement, descriptor =>
      let table := descriptor.table
      if placement.placed.contains table || visiting.contains table then placement
      else
        let targets := descriptor.referencedTables.filterMap (ofTable? descriptors)
        let before := targets.foldl (place descriptors fuel (table :: visiting)) placement
        ⟨before.ordered ++ [descriptor], table :: before.placed⟩

/-- Put descriptors in the order in which their tables are created. -/
def order (descriptors : List Descriptor) : List Descriptor :=
  (descriptors.foldl (place descriptors (descriptors.length + 1) []) {}).ordered

end Scaffold.Migration
