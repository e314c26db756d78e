import Scaffold.Ledger.Store

/-!
# Calls on ledgers

A loaded ledger takes calls that register entries or save it.  A call that fails leaves the ledger as
it is; a save that fails may have made folders in its tree.
-/

namespace Scaffold

open Scaffold.Disk (DiskError Path Tree WriteMode)

/-- A call on a ledger. -/
inductive LedgerCall where
  /-- Register an entry in the section of a name. -/
  | register (name entry : String)
  | save (mode : WriteMode)
  deriving DecidableEq, Repr

/-- What a call answers. -/
inductive LedgerAnswer where
  /-- The entry stands in its section, where it is new or was before. -/
  | registered (new : Bool)
  | unknownSection (name : String)
  | saved (file : Path)
  | failed (error : DiskError)
  deriving DecidableEq, Repr

/-- A ledger with the tree that its file lies in. -/
structure KeptLedger where
  tree : Tree
  ledger : Ledger
  deriving DecidableEq, Repr

namespace KeptLedger

/-- Perform a call on a ledger whose file lies in a folder. -/
def perform (folder : Path) (kept : KeptLedger) : LedgerCall → LedgerAnswer × KeptLedger
  | .register name entry =>
      match LedgerSection.ofName? name with
      | some part =>
          (.registered !(kept.ledger.contains part entry),
            { kept with ledger := kept.ledger.register part entry })
      | none => (.unknownSection name, kept)
  | .save mode =>
      match kept.ledger.save kept.tree mode folder with
      | (tree, ledger, none) => (.saved (Ledger.file folder), ⟨tree, ledger⟩)
      | (tree, ledger, some error) => (.failed error, ⟨tree, ledger⟩)

/-- Perform calls in order. -/
def performAll (folder : Path) (kept : KeptLedger) :
    List LedgerCall → List LedgerAnswer × KeptLedger
  | [] => ([], kept)
  | call :: rest =>
      let (answer, next) := kept.perform folder call
      let (answers, reached) := next.performAll folder rest
      (answer :: answers, reached)

end KeptLedger

end Scaffold
