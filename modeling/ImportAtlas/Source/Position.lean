/-!
Places in a source text.

A `Cursor` is the text that is still to be read together with the place where it begins.
-/

namespace ImportAtlas.Source

structure Position where
  line : Nat
  column : Nat
  deriving DecidableEq, Repr, Inhabited

namespace Position

def start : Position := ⟨1, 1⟩

/-- The place after a character: a line feed opens the next line, anything else widens this one. -/
def next (p : Position) (c : Char) : Position :=
  if c = '\n' then ⟨p.line + 1, 1⟩ else ⟨p.line, p.column + c.utf8Size⟩

def before (p q : Position) : Bool :=
  p.line < q.line || (p.line == q.line && p.column < q.column)

def max (p q : Position) : Position := if p.before q then q else p

end Position

/-- The text that is left and the place where it begins. -/
structure Cursor where
  rest : List Char
  position : Position
  deriving DecidableEq, Repr, Inhabited

namespace Cursor

def ofString (s : String) : Cursor := ⟨s.toList, .start⟩

/-- The cursor behind its first `n` characters. -/
def drop : Nat → Cursor → Cursor
  | 0, c => c
  | _ + 1, ⟨[], p⟩ => ⟨[], p⟩
  | n + 1, ⟨c :: cs, p⟩ => drop n ⟨cs, p.next c⟩

/-- The cursor at the first character that fails the test. -/
def dropWhile (test : Char → Bool) : Cursor → Cursor
  | ⟨[], p⟩ => ⟨[], p⟩
  | ⟨c :: cs, p⟩ => if test c then dropWhile test ⟨cs, p.next c⟩ else ⟨c :: cs, p⟩
termination_by c => c.rest.length

/-- The text from `c` up to a later cursor `d` of the same source. -/
def upTo (c d : Cursor) : String := String.ofList (c.rest.take (c.rest.length - d.rest.length))

@[simp] theorem rest_drop (n : Nat) (c : Cursor) : (c.drop n).rest = c.rest.drop n := by
  induction n generalizing c with
  | zero => simp [drop]
  | succ n ih =>
    obtain ⟨cs, p⟩ := c
    cases cs <;> simp [drop, ih]

theorem rest_dropWhile (test : Char → Bool) (c : Cursor) :
    (c.dropWhile test).rest = c.rest.dropWhile test := by
  obtain ⟨cs, p⟩ := c
  induction cs generalizing p with
  | nil => simp [dropWhile]
  | cons c cs ih =>
    unfold dropWhile
    by_cases h : test c <;> simp [h, ih]

end Cursor

end ImportAtlas.Source
