import CrewRoster.Command

/-!
The command line: `inspect` or `complete`, and the options of either. Files are read before the command
runs and written after it.
-/

namespace CrewRoster

/-- The files that an instance may have. -/
def instanceFiles : List String :=
  ["scenario.json", "airports.json", "max_fdp.json", "flights.json", "employees.json", "solution.json"]

def readFile? (path : String) : IO (Option String) := do
  try return some (← IO.FS.readFile path) catch _ => return none

def readFolder (folder : Path) : IO (List (String × String)) :=
  instanceFiles.filterMapM fun name => do
    return (← readFile? (folder.child name).text).map (name, ·)

def writeFile (path text : String) : IO Unit := do
  let folder : Path := { Path.ofText path with parts := (Path.ofText path).parts.dropLast }
  IO.FS.createDirAll folder.text
  IO.FS.writeFile path text

def execute (c : Command) : IO UInt32 := do
  let files ← readFolder c.folder
  let t := c.run (files.lookup ·)
  IO.print t.text
  t.files.forM fun (path, text) => writeFile path text
  match t.fault with
  | none => return 0
  | some fault =>
    IO.eprintln (fault.message?.getD "The instance cannot be used.")
    return 1

end CrewRoster

open CrewRoster in
def main (args : List String) : IO UInt32 := do
  let command :=
    match args with
    | "inspect" :: args => Command.readInspect args
    | "complete" :: args => Command.readComplete args
    | _ => .error .misuse
  match command with
  | .ok c => execute c
  | .error stop => return UInt32.ofNat stop.exitCode
