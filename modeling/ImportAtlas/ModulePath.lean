/-!
Module paths: the names of modules as lists of segments, written with dots between them.

Reading a dotted name and writing it again gives the name back, for every string. The other way
round a path comes back unless it is the single empty segment or some segment has a dot in it.
-/

namespace ImportAtlas

/-- The segments of a module's name, outermost first. -/
structure ModulePath where
  segments : List String
  deriving DecidableEq, Repr, Inhabited

namespace ModulePath

/-- A text cut at every occurrence of a character; there is always a first piece. -/
def split (mark : Char) : List Char → List (List Char)
  | [] => [[]]
  | c :: cs =>
    if c = mark then [] :: split mark cs
    else
      match split mark cs with
      | [] => [[c]]
      | piece :: pieces => (c :: piece) :: pieces

/-- Texts put together with a character between them. -/
def join (mark : Char) : List (List Char) → List Char
  | [] => []
  | [piece] => piece
  | piece :: pieces => piece ++ mark :: join mark pieces

def empty : ModulePath := ⟨[]⟩

/-- The path that a dotted name spells; the empty name spells the empty path. -/
def ofDotted (name : String) : ModulePath :=
  if name = "" then empty else ⟨(split '.' name.toList).map String.ofList⟩

/-- The dotted name of a path. -/
def text (p : ModulePath) : String := String.ofList (join '.' (p.segments.map String.toList))

def length (p : ModulePath) : Nat := p.segments.length

def isEmpty (p : ModulePath) : Bool := p.segments.isEmpty

/-- The path without its last `levels` segments, if it has as many. -/
def ancestor? (p : ModulePath) (levels : Nat) : Option ModulePath :=
  if levels ≤ p.length then some ⟨p.segments.take (p.length - levels)⟩ else none

def append (p q : ModulePath) : ModulePath := ⟨p.segments ++ q.segments⟩

instance : Append ModulePath := ⟨append⟩

def child (p : ModulePath) (segment : String) : ModulePath := ⟨p.segments ++ [segment]⟩

/-- Paths are ordered by their segments; a path comes before those that go on from it. -/
instance : LT ModulePath := ⟨fun p q => p.segments < q.segments⟩

instance : DecidableLT ModulePath :=
  fun p q => inferInstanceAs (Decidable (p.segments < q.segments))

instance : Std.Irrefl (α := ModulePath) (· < ·) :=
  ⟨fun p => Std.Irrefl.irrefl (r := (· < · : List String → List String → Prop)) p.segments⟩

instance : Trans (α := ModulePath) (· < ·) (· < ·) (· < ·) :=
  ⟨fun {p q r} (h : p.segments < q.segments) (h' : q.segments < r.segments) =>
    (List.lt_trans h h' : p.segments < r.segments)⟩

instance : Std.Trichotomous (α := ModulePath) (· < ·) :=
  ⟨fun p q h h' => by
    have : p.segments = q.segments :=
      Std.Trichotomous.trichotomous (r := (· < · : List String → List String → Prop)) _ _ h h'
    cases p
    cases q
    simp_all⟩

@[simp] theorem segments_append (p q : ModulePath) :
    (p ++ q).segments = p.segments ++ q.segments := rfl

theorem split_ne_nil (mark : Char) (s : List Char) : split mark s ≠ [] := by
  cases s with
  | nil => simp [split]
  | cons c cs =>
    unfold split
    split
    · simp
    · split <;> simp

/-- Cutting and putting together again gives the text back. -/
theorem join_split (mark : Char) (s : List Char) : join mark (split mark s) = s := by
  induction s with
  | nil => rfl
  | cons c cs ih =>
    unfold split
    split
    · next h =>
      obtain ⟨piece, pieces, hp⟩ := List.exists_cons_of_ne_nil (split_ne_nil mark cs)
      rw [hp] at ih ⊢
      simp [join, ih, h]
    · next h =>
      obtain ⟨piece, pieces, hp⟩ := List.exists_cons_of_ne_nil (split_ne_nil mark cs)
      rw [hp] at ih ⊢
      cases pieces with
      | nil => simpa [join] using ih
      | cons q qs => simpa [join] using ih

end ModulePath

end ImportAtlas
