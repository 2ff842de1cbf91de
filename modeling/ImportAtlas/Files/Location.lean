/-!
Places in a tree of files, as the names on the way from its root.

A name is any text but the empty one and the two dotted names that stand for directories; it holds
no slash. Its stem is what stands in front of its last dot, and its extension what stands behind;
a name without a dot behind its first character is its own stem.

The order of places is that of a walk in which a directory comes before its contents and siblings
are met in the order of their names.
-/

namespace ImportAtlas

/-- The text is a name that an entry may have. -/
def isFileName (text : String) : Bool :=
  text != "" && text != "." && text != ".." && !text.toList.contains '/'

structure FileName where
  text : String
  isValid : isFileName text = true
  deriving DecidableEq, Repr

namespace FileName

def ofText? (text : String) : Option FileName :=
  if h : isFileName text = true then some ⟨text, h⟩ else none

theorem text_injective {a b : FileName} (h : a.text = b.text) : a = b := by
  cases a
  cases b
  simp_all

/-- The parts in front of and behind the last dot, if there is one behind the first character. -/
def cut? (name : List Char) : Option (List Char × List Char) :=
  match name.reverse.dropWhile (· ≠ '.') with
  | _ :: c :: cs => some ((c :: cs).reverse, (name.reverse.takeWhile (· ≠ '.')).reverse)
  | _ => none

/-- The name without its extension. -/
def stem (n : FileName) : String :=
  match cut? n.text.toList with
  | some (stem, _) => .ofList stem
  | none => n.text

def extension? (n : FileName) : Option String :=
  (cut? n.text.toList).map fun parts => .ofList parts.2

end FileName

/-- The names on the way from the root to an entry. -/
structure Location where
  names : List FileName
  deriving DecidableEq, Repr

namespace Location

def root : Location := ⟨[]⟩

def text (l : Location) : String :=
  if l.names = [] then "/" else String.join (l.names.map fun name => "/" ++ name.text)

/-- The directory that holds the entry; the root holds itself. -/
def parent (l : Location) : Location := ⟨l.names.dropLast⟩

def child (l : Location) (name : FileName) : Location := ⟨l.names ++ [name]⟩

/-- The last name of the place; the root has none. -/
def name? (l : Location) : Option FileName := l.names.getLast?

/-- The names on the way from one place to another, if that lies within it. -/
def within? (l top : Location) : Option (List FileName) :=
  if top.names <+: l.names then some (l.names.drop top.names.length) else none

def texts (l : Location) : List String := l.names.map FileName.text

theorem texts_injective {a b : Location} (h : a.texts = b.texts) : a = b := by
  obtain ⟨a⟩ := a
  obtain ⟨b⟩ := b
  congr
  simp only [texts] at h
  induction a generalizing b with
  | nil => exact (List.map_eq_nil_iff.mp h.symm).symm
  | cons x xs ih =>
    cases b with
    | nil => simp at h
    | cons y ys =>
      simp only [List.map_cons, List.cons.injEq] at h
      rw [FileName.text_injective h.1, ih ys h.2]

instance : LT Location := ⟨fun a b => a.texts < b.texts⟩

instance : DecidableLT Location := fun a b => inferInstanceAs (Decidable (a.texts < b.texts))

instance : Std.Irrefl (α := Location) (· < ·) :=
  ⟨fun a => Std.Irrefl.irrefl (r := (· < · : List String → List String → Prop)) a.texts⟩

instance : Trans (α := Location) (· < ·) (· < ·) (· < ·) :=
  ⟨fun {a b c} (h : a.texts < b.texts) (h' : b.texts < c.texts) =>
    (List.lt_trans h h' : a.texts < c.texts)⟩

instance : Std.Trichotomous (α := Location) (· < ·) :=
  ⟨fun _ _ h h' => texts_injective <|
    Std.Trichotomous.trichotomous (r := (· < · : List String → List String → Prop)) _ _ h h'⟩

@[simp] theorem parent_child (l : Location) (name : FileName) : (l.child name).parent = l := by
  simp [parent, child]

end Location

end ImportAtlas
