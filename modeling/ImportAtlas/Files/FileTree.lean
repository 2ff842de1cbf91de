import ImportAtlas.Files.Path
import ImportAtlas.OrderedMap

/-!
Trees of files, directories and symbolic links.

Every entry but the root is in a directory. Paths are followed step by step: each step starts from
a directory, and a link is replaced by its target, forty times at most.
-/

namespace ImportAtlas

/-- What stands at a place. -/
inductive Entry where
  | directory
  | file (content : Array UInt8)
  | link (target : String)
  deriving DecidableEq

/-- Why a path does not lead to what is asked for. -/
inductive FileError where
  | missing
  | notDirectory
  | isDirectory
  | linkLoop
  | brokenName
  | notText
  deriving DecidableEq, Repr

def FileError.message : FileError → String
  | missing => "No such file or directory (os error 2)"
  | notDirectory => "Not a directory (os error 20)"
  | isDirectory => "Is a directory (os error 21)"
  | linkLoop => "Too many levels of symbolic links (os error 40)"
  | brokenName => "file name contained an unexpected NUL byte"
  | notText => "stream did not contain valid UTF-8"

namespace FileTree

/-- What a table has at a place; the root is always a directory. -/
def lookup (table : OrderedMap Location Entry) (l : Location) : Option Entry :=
  if l = .root then some .directory else table.find? l

end FileTree

structure FileTree where
  table : OrderedMap Location Entry
  isRooted : ∀ l ∈ table.keys, l ≠ .root ∧ FileTree.lookup table l.parent = some .directory

namespace FileTree

def empty : FileTree := ⟨.empty, by simp [OrderedMap.empty, OrderedMap.keys]⟩

instance : Inhabited FileTree := ⟨empty⟩

def entry? (t : FileTree) (l : Location) : Option Entry := lookup t.table l

/-- An entry other than a directory may be put there. -/
def isFree (t : FileTree) (l : Location) : Bool :=
  l ≠ .root && t.entry? l.parent = some .directory && t.entry? l ≠ some .directory

/-- The tree with an entry at a place, as long as that is in a directory and not a directory. -/
def put (t : FileTree) (l : Location) (e : Entry) : FileTree :=
  if h : t.isFree l = true then
    ⟨t.table.insert l e, by
      simp only [isFree, Bool.and_eq_true] at h
      have hroot := of_decide_eq_true h.1.1
      have hparent := of_decide_eq_true h.1.2
      have hnot := of_decide_eq_true h.2
      intro j hj
      have hmem : j = l ∨ j ∈ t.table.keys := OrderedMap.mem_keys_alter hj
      have hj' : j ≠ .root ∧ lookup t.table j.parent = some .directory := by
        rcases hmem with rfl | hmem
        · exact ⟨hroot, hparent⟩
        · exact t.isRooted j hmem
      -- the place is no directory, so it is the parent of no other one
      have hne : j.parent ≠ l := fun heq => hnot (heq ▸ hj'.2)
      refine ⟨hj'.1, ?_⟩
      have h2 := hj'.2
      unfold lookup at h2 ⊢
      split
      · rfl
      · next hp =>
        rw [if_neg hp] at h2
        simp only [OrderedMap.insert, OrderedMap.find?_alter, hne, if_false]
        exact h2⟩
  else t

def makeDirectory (t : FileTree) (l : Location) : FileTree :=
  (List.range l.names.length).foldl
    (fun t n =>
      let place : Location := ⟨l.names.take (n + 1)⟩
      if (t.entry? place).isNone then t.put place .directory else t) t

/-- The tree with an entry at a place and directories on the way to it. -/
def add (t : FileTree) (l : Location) (e : Entry) : FileTree := (t.makeDirectory l.parent).put l e

/-- The places within a directory, itself included, in the order of a walk. -/
def within (t : FileTree) (top : Location) : List Location :=
  t.table.keys.filter fun l => (l.within? top).isSome

/-- The place to which steps lead. If the last name may be new, it may be missing in its directory,
but then a slash must not follow. -/
def follow (t : FileTree) (mayBeNew : Bool) (links : Nat) (here : Location) :
    List Step → Except FileError Location
  | [] => .ok here
  | step :: steps =>
    if t.entry? here ≠ some .directory then .error .notDirectory
    else
      match step with
      | .broken => .error .missing
      | .stay _ => follow t mayBeNew links here steps
      | .up => follow t mayBeNew links here.parent steps
      | .down name =>
        -- a slash behind the last name asks for a directory
        if mayBeNew && !steps.isEmpty && steps.all (· = .stay true) then .error .isDirectory
        else
          match t.entry? (here.child name) with
          | none =>
            if mayBeNew && steps.isEmpty then .ok (here.child name) else .error .missing
          | some (.link target) =>
            match links with
            | 0 => .error .linkLoop
            | n + 1 =>
              let path := Path.ofText target
              -- the rest of the way goes on from the end of the link
              follow t mayBeNew n (if path.isAbsolute then .root else here) (path.steps ++ steps)
          | some _ => follow t mayBeNew links (here.child name) steps
termination_by steps => (links, steps.length)

/-- The place to which a path leads from `here`. -/
def resolve (t : FileTree) (here : Location) (path : Path) (mayBeNew : Bool := false) :
    Except FileError Location :=
  if path.steps.contains .broken then .error .brokenName
  else if !path.isAbsolute && path.steps.isEmpty then .error .missing
  else t.follow mayBeNew 40 (if path.isAbsolute then .root else here) path.steps

def resolveEntry? (t : FileTree) (here : Location) (path : Path) : Option Entry :=
  (t.resolve here path).toOption.bind t.entry?

def isDirectory (t : FileTree) (here : Location) (path : Path) : Bool :=
  t.resolveEntry? here path = some .directory

def isFile (t : FileTree) (here : Location) (path : Path) : Bool :=
  match t.resolveEntry? here path with
  | some (.file _) => true
  | _ => false

/-- The text of the file to which a path leads. -/
def readText (t : FileTree) (here : Location) (path : Path) : Except FileError String := do
  let l ← t.resolve here path
  match t.entry? l with
  | some (.file content) =>
    match String.fromUTF8? ⟨content⟩ with
    | some text => return text
    | none => throw .notText
  | some .directory => throw .isDirectory
  | _ => throw .missing

/-- The tree with a text in the file to which a path leads, which may be new. -/
def writeText (t : FileTree) (here : Location) (path : Path) (text : String) :
    Except FileError FileTree := do
  let l ← t.resolve here path true
  if t.entry? l = some .directory then throw .isDirectory
  return t.put l (.file text.toUTF8.data)

end FileTree

end ImportAtlas
