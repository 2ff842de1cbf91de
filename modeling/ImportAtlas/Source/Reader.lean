import ImportAtlas.Source.Layout
import ImportAtlas.Source.Tree

/-!
Readers: steps through a source text that produce a value or stop at a place.

`next` reads the gap in front of a lexeme, told what may stand there; `name`, `keyword` and
`symbol` take the lexeme itself. Loops are bounded by a count of rounds that the caller passes
on; each round takes at least one character, so the length of the text always suffices.
-/

namespace ImportAtlas.Source

structure State where
  cursor : Cursor
  /-- indentations of the open blocks, innermost first -/
  blocks : List Nat := []
  /-- a formatted string was opened and no string was closed since -/
  inFormat : Bool := false
  deriving DecidableEq, Repr

/-- A reader stops with the place where the text cannot be continued. -/
abbrev Reader := StateT State (Except Position)

/-- What `next` came upon. -/
inductive Next where
  | mark (mark : Mark)
  | lexeme
  deriving DecidableEq, Repr

namespace Reader

def position : Reader Position := return (← get).cursor.position

def rest : Reader (List Char) := return (← get).cursor.rest

def stop {α : Type} : Reader α := do throw (← position)

/-- The second reader runs where the first stops; if both stop, the later place counts. -/
def orElse {α : Type} (first second : Reader α) : Reader α := fun s =>
  match first s with
  | .ok r => .ok r
  | .error p =>
    match second s with
    | .ok r => .ok r
    | .error q => .error (p.max q)

/-- At most `rounds` steps, until one has nothing to add. -/
def iterate {α : Type} (step : α → Reader (Option α)) : (rounds : Nat) → α → Reader α
  | 0, _ => stop
  | n + 1, a => do
    match ← step a with
    | none => return a
    | some b => iterate step n b

/-- Reads the gap. A mark stays where it is, but an indent opens a block and a dedent closes one. -/
def next (e : Expect) : Reader Next := fun s =>
  match gap e s.blocks s.inFormat s.cursor with
  | .mark .newline c => .ok (.mark .newline, { s with cursor := c })
  | .mark (.indent w) c => .ok (.mark (.indent w), { s with cursor := c, blocks := w :: s.blocks })
  | .mark .dedent c =>
    if e.dedent then .ok (.mark .dedent, { s with cursor := c, blocks := s.blocks.drop 1 })
    else .error (c.dropWhile isSpace).position
  | .lexeme c => .ok (.lexeme, { s with cursor := c })
  | .hidden c => .error c.position

def lexeme (e : Expect := {}) : Reader Unit := do
  match ← next e with
  | .lexeme => return ()
  | .mark _ => stop

def word? : Reader (Option String) := return wordAt (← rest)

def symbol? : Reader (Option String) := return symbolAt (← rest)

def atSymbol (text : String) : Reader Bool := return (← symbol?) == some text

def atWord (text : String) : Reader Bool := return (← word?) == some text

/-- Takes `n` characters as a token. -/
def take (kind : TokenKind) (n : Nat) : Reader Tree := do
  let s ← get
  set { s with cursor := s.cursor.drop n }
  return .token ⟨kind, s.cursor.position, String.ofList (s.cursor.rest.take n)⟩

def symbol (text : String) : Reader Tree := do
  if ← atSymbol text then take .symbol text.length else stop

def keyword (text : String) : Reader Tree := do
  if ← atWord text then take .keyword text.length else stop

def name : Reader Tree := do
  match wordLength (← rest) with
  | 0 => stop
  | n => take .name n

def nextSymbol (text : String) (e : Expect := {}) : Reader Tree := do
  lexeme e
  symbol text

def nextKeyword (text : String) (e : Expect := {}) : Reader Tree := do
  lexeme e
  keyword text

def nextName (e : Expect := {}) : Reader Tree := do
  lexeme e
  name

/-- Runs a reader and comes back to where it began. -/
def peek {α : Type} (r : Reader α) : Reader α := do
  let s ← get
  let a ← r
  set s
  return a

end Reader

end ImportAtlas.Source
