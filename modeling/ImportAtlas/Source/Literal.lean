import ImportAtlas.Source.Reader

/-!
Numbers and strings.

A string is its opening, pieces of text, escapes and interpolations, and its closing. Only a
formatted string holds interpolations; what stands in one is read by the reader that is passed in.
-/

namespace ImportAtlas.Source

open Reader

inductive Piece where
  /-- plain text of the given length -/
  | text (length : Nat)
  /-- the closing, with text that belongs to it -/
  | closing (length : Nat)
  /-- neither: an escape, an interpolation, or no string at all -/
  | other
  deriving DecidableEq, Repr

namespace Piece

/-- Text of length `n`, unless none was seen. -/
def textIf (seen : Bool) (n : Nat) : Piece := if seen then text n else other

/-- A closing of length `n`, unless text comes before it. -/
def closingOr (seen : Bool) (n length : Nat) : Piece :=
  if seen then text n else closing (n + length)

/--
The next piece after `n` characters, of which some were `seen` as text.

A backslash ends the text, except that a raw string keeps it together with an escaped quote or
line end, and a string of bytes keeps the escapes it does not know, with the character behind
them. A line end may only come first, unless the quotes are triple.
-/
def find (q : Quote) : (seen : Bool) → (n : Nat) → List Char → Piece
  | _, _, [] => other
  | seen, n, c :: cs =>
    if c = '\x00' then other
    else if q.format && (c = '\x7b' || c = '\x7d') then textIf seen n
    else if c = '\\' then
      if q.raw then
        match cs with
        | '\\' :: '\r' :: '\n' :: ds => find q seen (n + 4) ds
        | '\\' :: '\r' :: ds => find q seen (n + 3) ds
        | '\\' :: '\n' :: ds => find q seen (n + 3) ds
        | '\\' :: ds => find q seen (n + 2) ds
        | '\r' :: '\n' :: ds => find q seen (n + 3) ds
        | '\r' :: ds => find q seen (n + 2) ds
        | '\n' :: ds => find q seen (n + 2) ds
        | d :: ds =>
          if d = q.mark then
            match ds with
            | '\r' :: '\n' :: es => find q seen (n + 4) es
            | '\r' :: es => find q seen (n + 3) es
            | '\n' :: es => find q seen (n + 3) es
            | es => find q seen (n + 2) es
          else find q seen (n + 1) (d :: ds)
        | [] => other
      else if q.bytes then
        match cs with
        | 'N' :: _ :: ds | 'u' :: _ :: ds | 'U' :: _ :: ds => find q true (n + 3) ds
        | _ => textIf seen n
      else textIf seen n
    else if c = q.mark then
      if q.triple then
        match cs with
        | d :: e :: _ =>
          if d = c then if e = c then closingOr seen n 3 else text (n + 2) else text (n + 1)
        | [d] => if d = c then text (n + 2) else text (n + 1)
        | [] => text (n + 1)
      else closingOr seen n 1
    else if c = '\n' && seen && !q.triple then other
    else find q true (n + 1) cs

end Piece

def hexRun (limit : Nat) (cs : List Char) : Nat :=
  ((cs.take limit).takeWhile Number.isHexDigit).length

/-- The length of the escape at the front, which begins with a backslash; a backslash that
escapes nothing stands alone. -/
def escapeLength : List Char → Nat
  | '\\' :: c :: cs =>
    if c = 'x' && hexRun 2 cs = 2 then 4
    else if c = 'u' && hexRun 4 cs = 4 then 6
    else if c = 'U' && hexRun 8 cs = 8 then 10
    else if c = 'N' && cs.head? == some '\x7b' then
      let name := (cs.drop 1).takeWhile (· ≠ '\x7d')
      if name.isEmpty || cs.length ≤ name.length + 1 then 1 else name.length + 4
    else if c.isDigit then 2 + ((cs.take 2).takeWhile Char.isDigit).length
    else if c = '\r' && cs.head? == some '\n' then 3
    else if c = '\n' || ['\'', '"', 'a', 'b', 'f', 'n', 'r', 't', 'v', '\\'].contains c then 2
    else 1
  | _ => 1

/-- Takes blank space without measuring it. -/
def skipSpace : Reader Unit :=
  modify fun s => { s with cursor := s.cursor.dropWhile isSpace }

def setFormat (inFormat : Bool) : Reader Unit := modify fun s => { s with inFormat }

def stringPiece (q : Quote) (interpolation : Reader Tree) (pieces : List Tree × Bool) :
    Reader (Option (List Tree × Bool)) := do
  let (done, closed) := pieces
  if closed then return none
  let cs ← rest
  match cs with
  | '\x7b' :: '\x7b' :: _ | '\x7d' :: '\x7d' :: _ =>
    if q.format then
      let t ← take .text 2
      return some (t :: done, false)
  | _ => pure ()
  match Piece.find q false 0 cs with
  | .text n =>
    let t ← take .text n
    return some (t :: done, false)
  | .closing n =>
    let t ← take .text n
    setFormat false
    return some (t :: done, true)
  | .other =>
    if cs.head? == some '\\' then
      let t ← take .text (escapeLength cs)
      return some (t :: done, false)
    skipSpace
    let t ← interpolation
    return some (t :: done, false)

def string (rounds : Nat) (interpolation : Reader Tree) : Reader Tree := do
  let p ← position
  match quoteAt (← rest) with
  | none => stop
  | some q =>
    let opening ← take .text q.length
    setFormat q.format
    let (pieces, _) ← iterate (stringPiece q interpolation) rounds ([opening], false)
    return .node .string p pieces.reverse

def atString : Reader Bool := return (quoteAt (← rest)).isSome

def number : Reader Tree := do
  match numberAt (← rest) with
  | none => stop
  | some (n, integer) => take (if integer then .integer else .float) n

end ImportAtlas.Source
