import SchemaBindings.CommandLine

/-! The program: runs its command line on the files around it. -/

namespace SchemaBindings

/-- What an action answers, if it does not fail. -/
def tried (action : IO α) : IO (Option α) := do
  try return some (← action) catch _ => return none

def succeeds (action : IO Unit) : IO Bool :=
  return (← tried action).isSome

/-- The files below the entries of a directory; links are not followed. -/
partial def filesBelowEntries (entries : List IO.FS.DirEntry) : IO (List (List String)) := do
  let below ← entries.mapM fun e => do
    match (← e.path.symlinkMetadata).type with
    | .file => return [[e.fileName]]
    | .dir => return (← filesBelowEntries (← e.path.readDir).toList).map (e.fileName :: ·)
    | _ => return []
  return below.flatten

def filesBelow (path : String) : IO (List (List String)) := do
  let place ← IO.FS.realPath path
  if ← place.isDir then filesBelowEntries (← place.readDir).toList else return [[]]

instance : FileSystem IO where
  read path := tried (IO.FS.readFile path)
  filesBelow path := tried (filesBelow path)
  makeDirectories path := succeeds (IO.FS.createDirAll path)
  write path text := succeeds (IO.FS.writeFile path text)
  rename source target := succeeds (IO.FS.rename source target)

end SchemaBindings

def main (arguments : List String) : IO UInt32 := do
  let report ← (SchemaBindings.CommandLine.run arguments : IO SchemaBindings.Report)
  IO.print report.stdout
  IO.eprint report.stderr
  return report.status.toUInt32
