import ImportAtlas.Json.Number
import ImportAtlas.Json.Text

/-!
JSON values that are of no use: what they are, and how they are passed over.
-/

namespace ImportAtlas.Json.Reader

/-- Takes the value that begins with a given character and tells its shape. Of lists and objects
nothing is taken. -/
def shape (first : Char) : Reader Shape := do
  match first with
  | 'n' =>
    skip
    letters ['u', 'l', 'l']
    return .null
  | 't' =>
    skip
    letters ['r', 'u', 'e']
    return .boolean true
  | 'f' =>
    skip
    letters ['a', 'l', 's', 'e']
    return .boolean false
  | '-' =>
    skip
    number true
  | '"' =>
    skip
    return .string (← text)
  | '[' => return .list
  | '\x7b' => return .object
  | c => if isDigit c then number false else failNext .noValue

/-- Fails because the value that begins with a given character is not what is wanted. -/
def wrongShape {α : Type} (wanted : Wanted) (first : Char) : Reader α := do
  let found ← shape first
  fail (.wrongShape found wanted)

def skipScalar (first : Char) : Reader Unit := do
  match first with
  | 'n' =>
    skip
    letters ['u', 'l', 'l']
  | 't' =>
    skip
    letters ['r', 'u', 'e']
  | 'f' =>
    skip
    letters ['a', 'l', 's', 'e']
  | '-' =>
    skip
    let _ ← numeral true .badNumber
  | '"' =>
    skip
    skipText
  | c =>
    unless isDigit c do failNext .noValue
    let _ ← numeral false .badNumber

def skipKey : Reader Unit := do
  match ← next? with
  | none => fail .endInObject
  | some '"' =>
    skip
    skipText
    match ← next? with
    | none => fail .endInObject
    | some ':' => skip
    | some _ => failNext .noColon
  | some _ => failNext .noKey

mutual

/-- Takes a value of any kind. -/
def skipValue : (rounds : Nat) → Reader Unit
  | 0 => fail .endInValue
  | n + 1 => do
    match ← next? with
    | none => fail .endInValue
    | some '[' =>
      skip
      match ← next? with
      | none => fail .endInList
      | some ']' => skip
      | some _ => skipItems n
    | some '\x7b' =>
      skip
      match ← next? with
      | none => fail .endInObject
      | some '\x7d' => skip
      | some _ => skipFields n
    | some c => skipScalar c

def skipItems : (rounds : Nat) → Reader Unit
  | 0 => fail .endInList
  | n + 1 => do
    skipValue n
    match ← next? with
    | none => fail .endInList
    | some ',' =>
      skip
      skipItems n
    | some ']' => skip
    | some _ => failNext .noListMark

def skipFields : (rounds : Nat) → Reader Unit
  | 0 => fail .endInObject
  | n + 1 => do
    skipKey
    skipValue n
    match ← next? with
    | none => fail .endInObject
    | some ',' =>
      skip
      skipFields n
    | some '\x7d' => skip
    | some _ => failNext .noObjectMark

end

end ImportAtlas.Json.Reader
