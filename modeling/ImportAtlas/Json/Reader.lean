import ImportAtlas.Source.Position

/-!
Readers of JSON text: what can be wrong with a text and where.

A place is given by the line and by the number of its bytes that were read. A step that has taken
what offends fails at the cursor, one that only looked at it fails one byte further on.
-/

namespace ImportAtlas.Json

open Source

inductive Shape where
  | null
  | boolean (value : Bool)
  | integer (value : Int)
  | fraction (text : String)
  | string (text : String)
  | list
  | object
  deriving DecidableEq, Repr

inductive Wanted where
  | list
  | string
  | record
  deriving DecidableEq, Repr

inductive Fault where
  | endInValue
  | endInList
  | endInObject
  | endInString
  | noValue
  | noWord
  | noColon
  | noListMark
  | noObjectMark
  | noKey
  | trailingComma
  | trailingText
  | badNumber
  | hugeNumber
  | badEscape
  | loneSurrogate
  | halfPair
  | controlCharacter
  | wrongShape (found : Shape) (wanted : Wanted)
  | tooFewItems (count : Nat)
  | missingField (name : String)
  | repeatedField (name : String)
  deriving DecidableEq, Repr

/-- A fault with its line, counted from one, and the number of bytes read of it. -/
structure ReadError where
  fault : Fault
  line : Nat
  column : Nat
  deriving DecidableEq, Repr

abbrev Reader := StateT Cursor (Except ReadError)

/-- The place that is `n` bytes further on, or the end of the text. -/
def placeAfter : (n : Nat) → List Char → Position → Position
  | 0, _, p => p
  | _, [], p => p
  | n, c :: cs, p =>
    if c.utf8Size ≤ n then placeAfter (n - c.utf8Size) cs (p.next c)
    else ⟨p.line, p.column + n⟩

def isSpace (c : Char) : Bool := c = ' ' || c = '\n' || c = '\t' || c = '\r'

namespace Reader

def failAfter {α : Type} (n : Nat) (fault : Fault) : Reader α := do
  let c ← get
  let p := placeAfter n c.rest c.position
  throw ⟨fault, p.line, p.column - 1⟩

def fail {α : Type} (fault : Fault) : Reader α := failAfter 0 fault

def failNext {α : Type} (fault : Fault) : Reader α := failAfter 1 fault

def peek? : Reader (Option Char) := return (← get).rest.head?

def skip : Reader Unit := modify (·.drop 1)

/-- Takes white space and tells what is behind it. -/
def next? : Reader (Option Char) := do
  modify (·.dropWhile isSpace)
  peek?

/-- The number of rounds after which any loop over the text that is left has come to its end. -/
def rounds : Reader Nat := return 2 * (← get).rest.length + 2

/-- Takes the letters that are left of a word. -/
def letters : List Char → Reader Unit
  | [] => return ()
  | c :: cs => do
    match ← peek? with
    | none => fail .endInValue
    | some d => if c = d then skip else failNext .noWord
    letters cs

end Reader

end ImportAtlas.Json
