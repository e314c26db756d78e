import Scaffold.CommandLine.Needs
import Scaffold.Disk.Tree

/-!
# The command line

The outer layer of the program: it reads the places of the file system that a command needs, runs the
command, and writes what has changed.
-/

namespace Scaffold.CommandLine

open Scaffold.Disk (Content Path Tree)

/-- The path of the working directory. -/
def workingPath : IO Path := do
  return Path.ofText (← IO.currentDir).toString

/-- The names in a folder; none if it is no folder. -/
def namesIn? (path : Path) : IO (Option (List String)) := do
  let place := (← IO.currentDir) / path.text
  if ← place.isDir then
    return some ((← place.readDir).toList.map (·.fileName))
  else return none

/-- The content of a file; none if there is no file. -/
def contentOf? (path : Path) : IO (Option Content) := do
  let place := (← IO.currentDir) / path.text
  if ← place.pathExists then
    return some (Content.ofBytes (← IO.FS.readBinFile place).toList)
  else return none

/-- Add to a tree what lies at a path, with all that lies below it. -/
partial def addFrom (tree : Tree) (path : Path) : IO Tree := do
  match ← namesIn? path with
  | some names =>
      names.foldlM (fun tree name => addFrom tree (path.child name)) (tree.ensureFolder path).1
  | none =>
      match ← contentOf? path with
      | some content => return (tree.writeFile .inPlace path content).1
      | none => return tree

/-- The tree that holds nothing but the working directory. -/
def startTree : IO Tree := do
  let home := (← workingPath).names
  let folders := (List.range home.length).map fun count => home.take (count + 1)
  return { home, folders }

/-- The places of the file system that a command needs. -/
def treeFor (command : Command) : IO Tree := do
  let start ← startTree
  let withFiles ← (command.files start).foldlM addFrom start
  (command.folders withFiles).foldlM addFrom withFiles

/-- Write what has changed from one tree to another. -/
def writeChanges (before after : Tree) : IO Unit := do
  let difference := before.difference after
  for folder in difference.addedFolders do
    IO.FS.createDirAll (Path.ofRoot folder).text
  for (location, content) in difference.changed do
    IO.FS.writeBinFile (Path.ofRoot location).text ⟨content.toBytes.toArray⟩

/-- The moment that the clock shows, taken from a file that was just made. -/
def momentNow : IO Migration.Moment := do
  let (_, place) ← IO.FS.createTempFile
  let made := (← place.metadata).modified.sec
  IO.FS.removeFile place
  return Migration.Moment.ofSeconds made.toNat

/-- Run a command on the file system, and answer with its exit code. -/
def runCommand (command : Command) : IO UInt32 := do
  let tree ← treeFor command
  let now ← momentNow
  let outcome := command.run ⟨tree, ⟨[], now⟩, now.iso ++ "+0000"⟩
  writeChanges tree outcome.tree
  for record in outcome.logs do
    IO.eprintln (record.level.name ++ " │ " ++ record.channel.name ++ " │ " ++ record.message)
  IO.print outcome.output
  return UInt32.ofNat (if outcome.stopped.isSome then 1 else outcome.status.code)

end Scaffold.CommandLine

open Scaffold.CommandLine in
/-- Run the command of a command line. -/
def main (words : List String) : IO UInt32 := do
  match Command.read words with
  | .ok command => runCommand command
  | .error .help =>
      IO.print usageText
      return 0
  | .error .version =>
      IO.print versionText
      return 0
  | .error .misuse =>
      IO.eprint usageText
      return 2
