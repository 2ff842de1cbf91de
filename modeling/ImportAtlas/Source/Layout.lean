import ImportAtlas.Source.Position
import ImportAtlas.Source.Lexeme

/-!
The gaps between lexemes: blanks, comments, line continuations and indentation.

Whether a gap ends a line, opens a block or closes one depends on what may stand at the place:
`Expect` says what may, `gap` reads the gap. A line end where none may stand is a blank. A line
that is indented less than its block closes the block even where no block may end, unless a line
end, a closing bracket or a string that begins the line may stand there.
-/

namespace ImportAtlas.Source

/-- What may stand at a place besides a plain lexeme. -/
structure Expect where
  newline : Bool := false
  indent : Bool := false
  dedent : Bool := false
  /-- a string -/
  quote : Bool := false
  /-- a closing bracket -/
  close : Bool := false
  /-- the keyword `except` -/
  except : Bool := false
  deriving DecidableEq, Repr

namespace Expect

/-- Comment lines are passed over while the indentation is measured. -/
def measuresComments (e : Expect) : Bool := e.newline || e.indent || e.dedent || e.except

end Expect

/-- A stretch of blanks with its indentation. -/
structure Run where
  /-- a line end was passed -/
  lineEnd : Bool := false
  width : Nat := 0
  /-- indentation of the first comment line that was passed -/
  comment : Option Nat := none
  rest : List Char := []
  deriving DecidableEq, Repr

namespace Run

def blank (r : Run) (c : Char) : Option Run :=
  if c = ' ' then some { r with width := r.width + 1 }
  else if c = '\t' then some { r with width := r.width + 8 }
  else if c = '\r' || c = '\x0c' then some { r with width := 0 }
  else if c = '\n' then some { r with lineEnd := true, width := 0 }
  else none

/--
Passes blanks, line continuations and, with `comments`, comment lines. There is no run if a
comment comes before any line end or a backslash continues no line. The end of the text counts as
a line end without indentation.
-/
def measure (comments : Bool) : (inComment : Bool) → Run → List Char → Option Run
  | _, r, [] => some { r with lineEnd := true, width := 0, rest := [] }
  | true, r, c :: cs =>
    if c = '\n' || c = '\x00' then measure comments false { r with width := 0 } cs
    else measure comments true r cs
  | false, r, ['\\'] => some { r with lineEnd := true, width := 0, rest := [] }
  | false, r, ['\\', '\r'] => some { r with lineEnd := true, width := 0, rest := [] }
  | false, r, '\\' :: '\n' :: cs => measure comments false r cs
  | false, r, '\\' :: '\r' :: '\n' :: cs => measure comments false r cs
  | false, r, c :: cs =>
    match r.blank c with
    | some r => measure comments false r cs
    | none =>
      if c = '#' && comments then
        if r.lineEnd then measure comments true { r with comment := r.comment.or (some r.width) } cs
        else none
      else if c = '\\' then none
      else some { r with rest := c :: cs }

end Run

inductive Mark where
  | newline
  | indent (width : Nat)
  | dedent
  deriving DecidableEq, Repr

def isQuote (c : Char) : Bool := c = '"' || c = '\'' || c = '\x60'

/--
The mark of a run inside blocks of the given indentations, innermost first. A comment line that
belongs to the block keeps it open.
-/
def Run.mark? (r : Run) (e : Expect) (blocks : List Nat) (inFormat : Bool) : Option Mark :=
  let current := blocks.headD 0
  let quoted := e.quote && (r.rest.head?.map isQuote).getD false
  let mayEnd := e.dedent || (!e.newline && !quoted && !e.close)
  let belongs := (r.comment.map fun width => decide (current ≤ width)).getD false
  if !r.lineEnd then none
  else if e.indent && current < r.width then some (.indent r.width)
  else if mayEnd && r.width < current && !inFormat && !belongs then some .dedent
  else if e.newline then some .newline
  else none

def isSpace (c : Char) : Bool :=
  c = ' ' || c = '\t' || c = '\n' || c = '\r' || c = '\x0c' || c = '\ufeff' || c = '\u2060' ||
    c = '\u200b'

/-- The blank space that no indentation is measured through. -/
def isInvisible (c : Char) : Bool := c = '\ufeff' || c = '\u2060' || c = '\u200b'

/-- The length of a comment or line continuation at the front; zero if there is none. -/
def passLength : List Char → Nat
  | '#' :: cs => 1 + (cs.takeWhile (· ≠ '\n')).length
  | ['\\'] => 1
  | '\\' :: '\n' :: _ => 2
  | '\\' :: '\x00' :: _ => 2
  | '\\' :: '\r' :: '\n' :: _ => 3
  | _ => 0

inductive Gap where
  | mark (mark : Mark) (cursor : Cursor)
  /-- a lexeme follows, or the end of the text -/
  | lexeme (cursor : Cursor)
  /-- a string follows where it cannot be seen -/
  | hidden (cursor : Cursor)
  deriving DecidableEq, Repr

/-- A string whose opening lies behind invisible space is not seen as one. -/
def afterSpace (c : Cursor) : Gap :=
  let d := c.dropWhile isSpace
  if (c.rest.takeWhile isSpace).any isInvisible && (quoteAt d.rest).isSome then .hidden d
  else .lexeme d

theorem ne_nil_of_passLength_ne_zero {cs : List Char} (h : passLength cs ≠ 0) : cs ≠ [] := by
  rintro rfl
  exact h rfl

/-- Reads the gap at a cursor: after each comment or continuation the measuring begins again. -/
def gap (e : Expect) (blocks : List Nat) (inFormat : Bool) (c : Cursor) : Gap :=
  match (Run.measure e.measuresComments false {} c.rest).bind (·.mark? e blocks inFormat) with
  | some m => .mark m c
  | none =>
    let d := c.dropWhile isSpace
    if passLength d.rest = 0 then afterSpace c
    else gap e blocks inFormat (d.drop (passLength d.rest))
termination_by c.rest.length
decreasing_by
  rename_i h
  have hpass : passLength (c.dropWhile isSpace).rest ≠ 0 := h
  have hne := ne_nil_of_passLength_ne_zero hpass
  have hlen : (c.dropWhile isSpace).rest.length ≤ c.rest.length := by
    rw [Cursor.rest_dropWhile]
    exact (List.dropWhile_sublist _).length_le
  have : 0 < (c.dropWhile isSpace).rest.length := List.length_pos_iff.mpr hne
  simp only [Cursor.rest_drop, List.length_drop]
  omega

end ImportAtlas.Source
