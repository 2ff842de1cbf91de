import ImportAtlas.Source.Statement

/-!
The place that is reported for a text that is no program.

The text cannot be continued at some place. It can be continued there after a mend: lexemes in
front of the place are left out, or the lexeme at it is, or one is put in. Each mend has a cost,
which grows with what it leaves out, and the cheapest mend names the place.
-/

namespace ImportAtlas.Source

/-- A way to go on with a text: the text after it, its cost and the place it names. -/
structure Mend where
  text : List Char
  cost : Nat
  place : Position
  /-- the place that the mended text has to be read beyond -/
  goal : Position
  deriving Repr

namespace Mend

/-- The cost of any mend, of leaving out one phrase, and of putting in a lexeme. -/
def baseCost : Nat := 500
def phraseCost : Nat := 100
def insertCost : Nat := 110

/-- The mended text can be read beyond the goal. -/
def succeeds (m : Mend) : Bool :=
  match Tree.ofSource (String.ofList m.text) with
  | .ok _ => true
  | .error p => m.goal.before p

/-- The cheaper of two mends, the first if they cost the same. -/
def cheaper (m n : Mend) : Mend := if n.cost < m.cost then n else m

end Mend

/-- The length of a name with dots, of a number, of an operator, or of any other character. -/
def phraseLength (cs : List Char) : Nat :=
  let name := cs.takeWhile fun c => Text.isNameContinue c || c = '.'
  if 0 < wordLength cs then name.length
  else
    match numberAt cs, symbolAt cs with
    | some (n, _), _ => n
    | none, some s => s.length
    | none, none => 1

def phrasesBefore (p : Position) : (rounds offset : Nat) → Cursor → List (Nat × Nat × Position)
  | 0, _, _ => []
  | n + 1, offset, c =>
    if !c.position.before p then []
    else
      match c.rest with
      | [] => []
      | d :: _ =>
        if isSpace d then phrasesBefore p n (offset + 1) (c.drop 1)
        else
          let length := phraseLength c.rest
          (offset, length, c.position) :: phrasesBefore p n (offset + length) (c.drop length)

def blankOut (cs : List Char) (first last : Nat) : List Char :=
  cs.take first ++ List.replicate (last - first) ' ' ++ cs.drop last

def offsetOf (p : Position) : (offset : Nat) → Cursor → Nat
  | offset, ⟨[], _⟩ => offset
  | offset, ⟨c :: cs, q⟩ => if q.before p then offsetOf p (offset + 1) ⟨cs, q.next c⟩ else offset
termination_by _ c => c.rest.length

/-- The mends that leave out the last phrases in front of a place, fewest first. -/
def dropMends (cs : List Char) (p : Position) :
    (dropped : Nat) → (last : Nat) → List (Nat × Nat × Position) → List Mend
  | _, _, [] => []
  | dropped, last, (offset, _, place) :: phrases =>
    let cost := Mend.baseCost + Mend.phraseCost * (dropped + 1) + (last - offset)
    ⟨blankOut cs offset last, cost, place, p⟩ :: dropMends cs p (dropped + 1) last phrases

def mendsAt (source : String) (p : Position) : List Mend :=
  let start := Tree.skipMark (.ofString source)
  let cs := source.toList
  let skipped := cs.length - start.rest.length
  let offset := offsetOf p skipped start
  let phrases := (phrasesBefore p cs.length skipped start).reverse
  -- phrases on the line are left out, or those on the last line that has any
  let onLine := phrases.filter fun phrase => phrase.2.2.line == p.line
  let near :=
    if onLine.isEmpty then
      phrases.takeWhile fun phrase => some phrase.2.2.line == phrases.head?.map (·.2.2.line)
    else onLine
  let last := (near.head?.map fun phrase => phrase.1 + phrase.2.1).getD offset
  let length := phraseLength (cs.drop offset)
  let inserted := [" _ ", " ) ", " ] ", " \x7d "].map fun s =>
    { text := cs.take offset ++ s.toList ++ cs.drop offset
      cost := Mend.baseCost + Mend.insertCost
      place := p
      goal := ⟨p.line, p.column + 3⟩ : Mend }
  let skip : Mend :=
    ⟨blankOut cs offset (offset + length), Mend.baseCost + Mend.phraseCost + length, p, p⟩
  let separated := ((symbolAt (cs.drop offset)).map fun s => s != ".").getD false
  dropMends cs p 0 last near ++ (if separated then inserted else []) ++
    (if offset < cs.length then [skip] else [])

/-- The place reported for a text that cannot be continued at `p`. -/
def faultPosition (source : String) (p : Position) : Position :=
  match (mendsAt source p).filter Mend.succeeds with
  | [] => p
  | m :: ms => (ms.foldl Mend.cheaper m).place

end ImportAtlas.Source
