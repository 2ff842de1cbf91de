import ImportAtlas.CommandLine.Program

/-!
The program as it is called.

What a run may look at is copied from the disk into a tree of files, and what the run leaves behind
there is copied back. The layout program is not started from here.
-/

namespace ImportAtlas

open CommandLine

def placeFrom (here : Location) (text : String) : Location := Path.place here (.ofText text)

/-- Copies the file or directory at a place, which is no link. -/
def copyEntry (t : FileTree) (l : Location) : IO FileTree := do
  let path := (← IO.currentDir) / l.text
  if ← path.isDir then return t.makeDirectory l
  else if ← path.pathExists then return t.add l (.file (← IO.FS.readBinFile path).data)
  else return t

/-- Copies what stands at a place. A link is copied with what stands at its end. -/
def copyPlace (t : FileTree) (l : Location) : IO FileTree := do
  let path := (← IO.currentDir) / l.text
  try
    if (← path.symlinkMetadata).type == .symlink then
      let target := (← IO.FS.realPath path).toString
      copyEntry (t.add l (.link target)) (placeFrom .root target)
    else copyEntry t l
  catch _ => return t

/-- Copies what is met on the way along a path. -/
def copyPath (t : FileTree) (here : Location) (text : String) : IO FileTree := do
  let path := Path.ofText text
  let mut tree := t
  let mut l := if path.isAbsolute then .root else here
  for step in path.steps do
    match step with
    | .down name =>
      let next := l.child name
      tree ← copyPlace tree next
      l := (tree.resolve .root next.path).toOption.getD next
    | .up => l := l.parent
    | _ => pure ()
  return tree

partial def copyWithin (t : FileTree) (l : Location) : IO FileTree := do
  let path := (← IO.currentDir) / l.text
  let mut tree := t
  for found in ← path.readDir do
    if let some name := FileName.ofText? found.fileName then
      let place := l.child name
      let isDirectory := (← found.path.symlinkMetadata).type == .dir
      if isDirectory || name.isSource then tree ← copyPlace tree place
      if isDirectory then tree ← copyWithin tree place
  return tree

/-- Copies all that a run with the given options may look at. -/
def copyFor (o : Options) (here : Location) (temporary : String) : IO FileTree := do
  let mut t := FileTree.empty.makeDirectory here
  t ← copyPath t here (Path.join o.root initName.text)
  if let .ok root := t.packageRoot here o.root then t ← copyWithin t root
  let output := o.output.getD temporary
  let source := Path.withExtension output Format.dot.extension
  for path in [output, Path.withExtension output o.format.extension, source, documentPath source] do
    t ← copyPath t here path
  return t

def writeBack (before after : FileTree) : IO Unit :=
  for (l, e) in after.table.entries do
    if let .file content := e then
      if before.entry? l ≠ some e then IO.FS.writeBinFile l.text ⟨content⟩

def temporaryPath : IO String := do
  let directory := (← IO.getEnv "TMPDIR").getD "/tmp"
  let letters := "abcdefghijklmnopqrstuvwxyz0123456789".toList
  let name ← (List.range 6).mapM fun _ => return letters.getD (← IO.rand 0 35) 'a'
  return Path.join directory ("betsy-" ++ String.ofList name)

end ImportAtlas

open ImportAtlas in
def main (arguments : List String) : IO UInt32 := do
  let here := placeFrom .root (← IO.FS.realPath (← IO.currentDir)).toString
  let temporary ← temporaryPath
  let tree ← match CommandLine.Options.ofArguments arguments with
    | .ok o => copyFor o here temporary
    | .error _ => pure .empty
  let env : CommandLine.Environment := ⟨tree, here, temporary, ← IO.getEnv "RUST_LOG", .missing⟩
  let out := CommandLine.run env arguments
  IO.print out.stdout
  IO.eprint out.stderr
  writeBack tree out.tree
  return out.code.toUInt32
