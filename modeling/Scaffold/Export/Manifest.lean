import Scaffold.Disk.Path
import Scaffold.Document.JsonText
import Scaffold.Output.File

/-!
# Manifests

A manifest lists every file that an export has met, with its size, its digest and what became of it.
Skipped files are listed, but do not count for the totals.
-/

namespace Scaffold

open Scaffold.Disk (Path)
open Scaffold.Document (Value)

/-- What became of a file. -/
inductive FileStatus where
  | written
  /-- The file exists and is kept. -/
  | skipped
  /-- The file would have been written. -/
  | planned
  deriving DecidableEq, Repr

/-- The name of a status. -/
def FileStatus.name : FileStatus → String
  | .written => "written"
  | .skipped => "skipped"
  | .planned => "planned"

/-- A file that an export has met. -/
structure FileRecord where
  path : String
  size : Nat
  lineCount : Nat
  checksum : String
  status : FileStatus
  deriving DecidableEq, Repr

namespace FileRecord

/-- The record of a generated file. -/
def ofFile (file : OutputFile) (status : FileStatus) : FileRecord :=
  ⟨file.path, file.size, file.lineCount, file.checksum, status⟩

/-- A record as a document. -/
def document (record : FileRecord) : Value :=
  .mapping [(.text "relative_path", .text record.path), (.text "size_bytes", .int record.size),
    (.text "line_count", .int record.lineCount), (.text "sha256", .text record.checksum),
    (.text "status", .text record.status.name)]

end FileRecord

/-- The list of the files of an export. -/
structure Manifest where
  module : String
  /-- The time of the export. -/
  time : String
  folder : Path
  dryRun : Bool
  records : List FileRecord
  deriving DecidableEq, Repr

namespace Manifest

/-- The version that manifests name. -/
def version : String :=
  "1.0.0"

/-- The records of a status. -/
def withStatus (manifest : Manifest) (status : FileStatus) : List FileRecord :=
  manifest.records.filter (·.status == status)

/-- The records that count for the totals. -/
def counted (manifest : Manifest) : List FileRecord :=
  manifest.records.filter (·.status != .skipped)

/-- The number of files that count. -/
def fileCount (manifest : Manifest) : Nat :=
  manifest.counted.length

/-- The number of bytes of the files that count. -/
def byteCount (manifest : Manifest) : Nat :=
  (manifest.counted.map (·.size)).foldl (· + ·) 0

/-- The number of lines of the files that count. -/
def lineCount (manifest : Manifest) : Nat :=
  (manifest.counted.map (·.lineCount)).foldl (· + ·) 0

/-- A manifest as a document. -/
def document (manifest : Manifest) : Value :=
  .mapping [(.text "module_name", .text manifest.module),
    (.text "generator_version", .text version), (.text "export_timestamp", .text manifest.time),
    (.text "module_directory", .text manifest.folder.text),
    (.text "dry_run", .bool manifest.dryRun), (.text "total_files", .int manifest.fileCount),
    (.text "total_bytes", .int manifest.byteCount), (.text "total_lines", .int manifest.lineCount),
    (.text "files", .list (manifest.records.map (·.document)))]

/-- The text of the file that keeps a manifest. -/
def text (manifest : Manifest) : String :=
  Document.Json.written .unicode manifest.document

end Manifest

end Scaffold
