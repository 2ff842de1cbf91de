/-!
Finite sets as strictly ascending lists.

Two sets with the same members are equal, so sets can be compared, printed and sorted by their
lists. The order has to be irreflexive, transitive and total on different members.
-/

namespace ImportAtlas

/-- A finite set, its members in ascending order. -/
structure OrderedSet (α : Type) [LT α] where
  toList : List α
  ascending : toList.Pairwise (· < ·)

namespace OrderedSet

variable {α : Type} [LT α]

instance [DecidableEq α] : DecidableEq (OrderedSet α) := fun s t =>
  if h : s.toList = t.toList then isTrue (by cases s; cases t; simp_all)
  else isFalse (by rintro rfl; exact h rfl)

instance : Membership α (OrderedSet α) := ⟨fun s a => a ∈ s.toList⟩

theorem mem_def {a : α} {s : OrderedSet α} : a ∈ s ↔ a ∈ s.toList := Iff.rfl

theorem ext [Std.Irrefl (α := α) (· < ·)] [Trans (α := α) (· < ·) (· < ·) (· < ·)]
    {s t : OrderedSet α} (h : ∀ x, x ∈ s ↔ x ∈ t) : s = t := by
  obtain ⟨l, hl⟩ := s
  obtain ⟨m, hm⟩ := t
  simp only [mem_def] at h
  congr
  induction l generalizing m with
  | nil =>
    cases m with
    | nil => rfl
    | cons b m => exact absurd ((h b).mpr (List.mem_cons_self ..)) List.not_mem_nil
  | cons a l ih =>
    cases m with
    | nil => exact absurd ((h a).mp (List.mem_cons_self ..)) List.not_mem_nil
    | cons b m =>
      rw [List.pairwise_cons] at hl hm
      have hab : a = b := by
        rcases List.mem_cons.mp ((h a).mp (List.mem_cons_self ..)) with h1 | h1
        · exact h1
        · rcases List.mem_cons.mp ((h b).mpr (List.mem_cons_self ..)) with h2 | h2
          · exact h2.symm
          · exact absurd (Trans.trans (hl.1 b h2) (hm.1 a h1) : a < a)
              (Std.Irrefl.irrefl (r := (· < ·)) a)
      subst hab
      congr 1
      refine ih hl.2 m hm.2 fun x => ?_
      constructor
      · intro hx
        rcases List.mem_cons.mp ((h x).mp (List.mem_cons_of_mem _ hx)) with rfl | h1
        · exact absurd (hl.1 x hx) (Std.Irrefl.irrefl (r := (· < ·)) x)
        · exact h1
      · intro hx
        rcases List.mem_cons.mp ((h x).mpr (List.mem_cons_of_mem _ hx)) with rfl | h1
        · exact absurd (hm.1 x hx) (Std.Irrefl.irrefl (r := (· < ·)) x)
        · exact h1

def empty : OrderedSet α := ⟨[], .nil⟩

instance : EmptyCollection (OrderedSet α) := ⟨empty⟩

instance : Inhabited (OrderedSet α) := ⟨empty⟩

@[simp] theorem not_mem_empty {a : α} : ¬a ∈ (empty : OrderedSet α) := List.not_mem_nil

def size (s : OrderedSet α) : Nat := s.toList.length

/-- An ascending list with one more member at its place. -/
def insertList [DecidableLT α] (a : α) : List α → List α
  | [] => [a]
  | b :: bs => if a < b then a :: b :: bs else if b < a then b :: insertList a bs else b :: bs

theorem mem_insertList [DecidableLT α] [Std.Trichotomous (α := α) (· < ·)] {a x : α} {l : List α} :
    x ∈ insertList a l ↔ x = a ∨ x ∈ l := by
  induction l with
  | nil => simp [insertList]
  | cons b bs ih =>
    unfold insertList
    split
    · simp
    · split
      · simp only [List.mem_cons, ih]
        constructor
        · rintro (h | h | h) <;> simp [h]
        · rintro (h | h | h) <;> simp [h]
      · next h h' =>
        have : a = b := Std.Trichotomous.trichotomous (r := (· < ·)) a b h h'
        simp [this]

variable [DecidableLT α] [Std.Trichotomous (α := α) (· < ·)]
  [Trans (α := α) (· < ·) (· < ·) (· < ·)]

theorem ascending_insertList {a : α} {l : List α} (h : l.Pairwise (· < ·)) :
    (insertList a l).Pairwise (· < ·) := by
  induction l with
  | nil => simp [insertList]
  | cons b bs ih =>
    rw [List.pairwise_cons] at h
    unfold insertList
    split
    · next hab =>
      refine List.pairwise_cons.mpr ⟨?_, List.pairwise_cons.mpr h⟩
      intro x hx
      rcases List.mem_cons.mp hx with rfl | hx
      · exact hab
      · exact Trans.trans hab (h.1 x hx)
    · split
      · next hba =>
        refine List.pairwise_cons.mpr ⟨?_, ih h.2⟩
        intro x hx
        rcases mem_insertList.mp hx with rfl | hx
        · exact hba
        · exact h.1 x hx
      · exact List.pairwise_cons.mpr h

def insert (s : OrderedSet α) (a : α) : OrderedSet α :=
  ⟨insertList a s.toList, ascending_insertList s.ascending⟩

def insertAll (s : OrderedSet α) (l : List α) : OrderedSet α := l.foldl insert s

def ofList (l : List α) : OrderedSet α := insertAll empty l

@[simp] theorem mem_insert {s : OrderedSet α} {a x : α} : x ∈ s.insert a ↔ x = a ∨ x ∈ s :=
  mem_insertList

@[simp] theorem mem_insertAll {s : OrderedSet α} {l : List α} {x : α} :
    x ∈ s.insertAll l ↔ x ∈ s ∨ x ∈ l := by
  induction l generalizing s with
  | nil => simp [insertAll]
  | cons a l ih =>
    rw [show s.insertAll (a :: l) = (s.insert a).insertAll l from rfl, ih, mem_insert]
    simp only [List.mem_cons]
    constructor
    · rintro ((h | h) | h) <;> simp [h]
    · rintro (h | h | h) <;> simp [h]

@[simp] theorem mem_ofList {l : List α} {x : α} : x ∈ ofList l ↔ x ∈ l := by
  simp [ofList]

end OrderedSet

instance textLtIrrefl : Std.Irrefl (α := String) (· < ·) := ⟨String.lt_irrefl⟩

instance textLtTrans : Trans (α := String) (· < ·) (· < ·) (· < ·) := ⟨String.lt_trans⟩

instance textLtTrichotomous : Std.Trichotomous (α := String) (· < ·) :=
  ⟨fun _ _ h h' => String.le_antisymm (String.not_lt.mp h') (String.not_lt.mp h)⟩

/-- A set of names, ordered by code points. -/
abbrev NameSet := OrderedSet String

end ImportAtlas
