import ElmIntake.CommandLine.Run

/-! # The program

    A run is computed from its arguments and a disk. Before a run, the program
    copies from the real disk what the run can ask for; after it, the program
    prints the report and brings back the entries of the durable cache. -/

namespace ElmIntake.Program

/-! ## From the disk -/

/-- What was copied so far. -/
structure Copy where
  disk : Disk
  /-- The directories that were copied with everything in them. -/
  complete : List (List String) := []

/-- An action that copies. -/
abbrev CopyM := StateT Copy IO

/-- The place that names lead to from the root. -/
def place (names : List String) : IO.FS.DirEntry := ⟨"/", "/".intercalate names⟩

/-- The result of an action, unless it fails. -/
def attempt {α : Type} (action : IO α) : IO (Option α) := do
  try return some (← action) catch _ => return none

/-- The tree with a node in it, and with directories on the way there. -/
def graft (node : Node) : List String → Node → Node
  | [], _ => node
  | name :: names, tree =>
    let below := (tree.entries.get? name).getD (.directory [])
    .directory (tree.entries.put name (graft node names below))

/-- Puts a node into the copy. -/
def putNode (names : List String) (node : Node) : CopyM Unit :=
  modify fun c => { c with disk.root := graft node names c.disk.root }

/-- Copies what some steps lead to from the directory `here`, and what lies on
    the way there. A directory is copied with everything in it if `deep` is set,
    but for the directories that hold no sources. -/
partial def copySteps (deep : Bool) (here : List String) : List String → CopyM Unit
  | [] => do
    if deep && !(← get).complete.contains here then
      modify fun c => { c with complete := here :: c.complete }
      for entry in (← attempt (place here).path.readDir).getD #[] do
        unless Path.hasExcludedName ⟨entry.fileName⟩ do
          copySteps deep here [entry.fileName]
  | "." :: rest => copySteps deep here rest
  | ".." :: rest => copySteps deep here.dropLast rest
  | name :: rest => do
    let there := here ++ [name]
    let path := (place there).path
    let some found ← attempt path.symlinkMetadata | return
    match found.type with
    | .dir =>
      unless ((← get).disk.root.find? there).isSome do
        putNode there (.directory [])
      copySteps deep there rest
    | .file =>
      if let some content ← attempt (IO.FS.readBinFile path) then
        putNode there (.file content.toList (some found.modified.sec))
    | .symlink =>
      if let some target ← attempt (IO.FS.realPath path) then
        putNode there (.link ⟨target.toString⟩)
        copySteps deep [] (Disk.steps ⟨target.toString⟩ ++ rest)
    | .other => return

/-- Copies what a path leads to. -/
def copyPath (deep : Bool) (path : Path) : CopyM Unit := do
  let cwd := (← get).disk.cwd
  copySteps deep (if path.isAbsolute then [] else cwd) (Disk.steps path)

/-- Copies what a run with some arguments can ask for. The result is the place of
    the durable cache, if the run has one. -/
def copyFor (arguments : List String) : CopyM (Option Path) := do
  let .ok a := CommandLine.Arguments.ofList arguments | return none
  a.config.forM (copyPath false)
  let .ok o := CommandLine.options (← get).disk a | return none
  let intake := Intake.ofOptions (CommandLine.currentDirectory (← get).disk) o
  let root := intake.options.projectRoot
  copyPath false root
  copyPath false intake.options.manifest
  match intake.entries (← get).disk.fileSystem with
  | .ok entries => entries.forM fun entry => copyPath true (root.join entry)
  | .error _ => pure ()
  if intake.options.useCache then
    let dir := (← get).disk.entryDirectory intake.options.cacheDirectory root
    copyPath true dir
    return some dir
  else return none

/-! ## Back to the disk -/

/-- Writes a file by way of a temporary one. -/
def writeWhole (dir : Path) (name : String) (content : Bytes) : IO Unit := do
  let temp := (dir.child s!".{name}.tmp").text
  IO.FS.writeBinFile temp ⟨content.toArray⟩
  IO.FS.rename temp (dir.child name).text

/-- Brings the folder of entries at a path from what it was before a run to what
    it is after. -/
def bringBack (dir : Path) (before after : EntryFolder) : IO Unit := do
  match before, after with
  | .present old, .present items =>
    for (name, _) in old do
      if (items.get? name).isNone then
        IO.FS.removeFile (dir.child name).text
  | .present _, _ => IO.FS.removeDirAll dir.text
  | _, _ => pure ()
  if let .present items := after then
    IO.FS.createDirAll dir.text
    for (name, item) in items do
      if let .file content := item then
        unless (before.read name).toOption == some content do
          writeWhole dir name content

end ElmIntake.Program

open ElmIntake in
/-- Makes one run and ends with its exit code. -/
def main (arguments : List String) : IO UInt32 := do
  let cwd := Disk.steps ⟨(← IO.currentDir).toString⟩
  let copy : Program.CopyM (Option Path) := do
    Program.copySteps false [] cwd
    Program.copyFor arguments
  let (dir, before) ← copy.run { disk := { cwd } }
  let (report, after) := CommandLine.run before.disk arguments
  report.output.forM IO.println
  report.errors.forM IO.eprintln
  if let some dir := dir then
    let update := Program.bringBack dir (before.disk.entryFolder dir) (after.entryFolder dir)
    discard (Program.attempt update)
  return report.code.toUInt32
