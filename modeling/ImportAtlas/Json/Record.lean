import ImportAtlas.ImportGraph
import ImportAtlas.Json.Value

/-!
Import graphs as JSON: a list with a record for each importer.

A record is written as an object of a name and a list of names. When it is read its fields may
stand in any order, among others that are passed over, or it may be a list of its two values.
Records that are written are read back as they were.
-/

namespace ImportAtlas.Json

/-- An importer and what it imports. -/
structure ImportRecord where
  name : String
  imports : List String
  deriving DecidableEq, Repr, Inhabited

def commaSeparated (texts : List (List Char)) : List Char := ModulePath.join ',' texts

namespace ImportRecord

def written (r : ImportRecord) : List Char :=
  "\x7b\"name\":".toList ++ quoted r.name ++ ",\"imports\":[".toList ++
    commaSeparated (r.imports.map quoted) ++ "]\x7d".toList

def writeAll (records : List ImportRecord) : String :=
  String.ofList ('[' :: commaSeparated (records.map written) ++ [']'])

end ImportRecord

namespace Reader

/-- An item comes next, and the comma in front of it is taken. -/
def hasItem (isFirst : Bool) : Reader Bool := do
  match ← next? with
  | none => fail .endInList
  | some ']' => return false
  | some c =>
    if isFirst then return true
    unless c = ',' do failNext .noListMark
    skip
    match ← next? with
    | none => fail .endInValue
    | some ']' => failNext .trailingComma
    | some _ => return true

/-- The items of a list up to its end, which is taken. -/
def items {α : Type} (item : Reader α) : (rounds : Nat) → (isFirst : Bool) → Reader (List α)
  | 0, _ => fail .endInList
  | n + 1, isFirst => do
    if ← hasItem isFirst then
      return (← item) :: (← items item n false)
    else
      skip
      return []

def list {α : Type} (item : Reader α) : Reader (List α) := do
  match ← next? with
  | none => fail .endInValue
  | some '[' =>
    skip
    items item (← rounds) true
  | some c => wrongShape .list c

def string : Reader String := do
  match ← next? with
  | none => fail .endInValue
  | some '"' =>
    skip
    text
  | some c => wrongShape .string c

def endOfList : Reader Unit := do
  match ← next? with
  | none => fail .endInList
  | some ']' => skip
  | some ',' =>
    skip
    if (← next?) = some ']' then failNext .trailingComma else failNext .trailingText
  | some _ => failNext .trailingText

/-- An item of a list that must have more than `count`. -/
def itemAfter {α : Type} (count : Nat) (item : Reader α) : Reader α := do
  if ← hasItem (count == 0) then item
  else
    skip
    fail (.tooFewItems count)

def recordItems : Reader ImportRecord := do
  let name ← itemAfter 0 string
  let imports ← itemAfter 1 (list string)
  endOfList
  return ⟨name, imports⟩

/-- A field comes next; the comma and the quote in front of its name are taken. -/
def hasField (isFirst : Bool) : Reader Bool := do
  match ← next? with
  | none => fail .endInObject
  | some '\x7d' => return false
  | some c =>
    if isFirst then
      unless c = '"' do failNext .noKey
    else
      unless c = ',' do failNext .noObjectMark
      skip
      match ← next? with
      | none => fail .endInValue
      | some '"' => pure ()
      | some '\x7d' => failNext .trailingComma
      | some _ => failNext .noKey
    skip
    return true

def colon : Reader Unit := do
  match ← next? with
  | none => fail .endInObject
  | some ':' => skip
  | some _ => failNext .noColon

/-- Fails at a field that was there before. -/
def repeated {α : Type} (name : String) : Reader α := do
  if (← next?) = some '\x7d' then skip
  fail (.repeatedField name)

/-- The rest of a record that is an object, of which some fields may be known. -/
def recordFields : (rounds : Nat) → (isFirst : Bool) → (name : Option String) →
    (imports : Option (List String)) → Reader ImportRecord
  | 0, _, _, _ => fail .endInObject
  | n + 1, isFirst, name, imports => do
    if ← hasField isFirst then
      match ← text with
      | "name" =>
        if name.isSome then repeated "name"
        colon
        recordFields n false (some (← string)) imports
      | "imports" =>
        if imports.isSome then repeated "imports"
        colon
        recordFields n false name (some (← list string))
      | _ =>
        colon
        -- any other field is passed over
        skipValue (← rounds)
        recordFields n false name imports
    else
      skip
      match name, imports with
      | some name, some imports => return ⟨name, imports⟩
      | none, _ => fail (.missingField "name")
      | _, none => fail (.missingField "imports")

def record : Reader ImportRecord := do
  match ← next? with
  | none => fail .endInValue
  | some '[' =>
    skip
    recordItems
  | some '\x7b' =>
    skip
    recordFields (← rounds) true none none
  | some c => wrongShape .record c

def document : Reader (List ImportRecord) := do
  let records ← list record
  if (← next?).isSome then failNext .trailingText
  return records

end Reader

namespace ImportRecord

/-- The records of a JSON text. -/
def readAll (text : String) : Except ReadError (List ImportRecord) :=
  (Reader.document.run (.ofString text)).map (·.1)

/-- The table of a list of records; records of the same name are merged. -/
def table (records : List ImportRecord) : ImportTable :=
  records.foldl (fun t r => t.addImports r.name r.imports) .empty

/-- The table of a JSON text. -/
def readTable (text : String) : Except ReadError ImportTable := (readAll text).map table

end ImportRecord

end ImportAtlas.Json

namespace ImportAtlas.ImportGraph

open Json

def records (g : ImportGraph) : List ImportRecord :=
  g.table.entries.map fun entry => ⟨entry.1, entry.2.toList⟩

def json (g : ImportGraph) : String := ImportRecord.writeAll g.records

end ImportAtlas.ImportGraph
