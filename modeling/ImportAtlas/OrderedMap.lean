/-!
Finite maps as lists of entries whose keys strictly ascend.

Altering the value of one key changes what is found at that key and nothing else.
-/

namespace ImportAtlas

/-- A finite map, its entries in ascending order of their keys. -/
structure OrderedMap (κ ν : Type) [LT κ] where
  entries : List (κ × ν)
  ascending : entries.Pairwise (·.1 < ·.1)

namespace OrderedMap

variable {κ ν : Type} [LT κ]

instance [DecidableEq κ] [DecidableEq ν] : DecidableEq (OrderedMap κ ν) := fun m n =>
  if h : m.entries = n.entries then isTrue (by cases m; cases n; simp_all)
  else isFalse (by rintro rfl; exact h rfl)

def empty : OrderedMap κ ν := ⟨[], .nil⟩

instance : EmptyCollection (OrderedMap κ ν) := ⟨empty⟩

instance : Inhabited (OrderedMap κ ν) := ⟨empty⟩

def size (m : OrderedMap κ ν) : Nat := m.entries.length

def keys (m : OrderedMap κ ν) : List κ := m.entries.map (·.1)

def values (m : OrderedMap κ ν) : List ν := m.entries.map (·.2)

def find? [DecidableEq κ] (m : OrderedMap κ ν) (k : κ) : Option ν := m.entries.lookup k

/-- A list of entries with the value of one key computed anew from the value it had. -/
def alterList [DecidableLT κ] (k : κ) (f : Option ν → ν) : List (κ × ν) → List (κ × ν)
  | [] => [(k, f none)]
  | (l, v) :: es =>
    if k < l then (k, f none) :: (l, v) :: es
    else if l < k then (l, v) :: alterList k f es
    else (l, f (some v)) :: es

theorem fst_mem_alterList [DecidableLT κ] [Std.Trichotomous (α := κ) (· < ·)] {k : κ}
    {f : Option ν → ν} {l : List (κ × ν)} {e : κ × ν} (h : e ∈ alterList k f l) :
    e.1 = k ∨ ∃ e' ∈ l, e'.1 = e.1 := by
  induction l with
  | nil => simp_all [alterList]
  | cons d es ih =>
    unfold alterList at h
    split at h
    · rcases List.mem_cons.mp h with rfl | h
      · exact .inl rfl
      · exact .inr ⟨e, h, rfl⟩
    · split at h
      · rcases List.mem_cons.mp h with rfl | h
        · exact .inr ⟨_, List.mem_cons_self .., rfl⟩
        · rcases ih h with h | ⟨e', h, h'⟩
          · exact .inl h
          · exact .inr ⟨e', List.mem_cons_of_mem _ h, h'⟩
      · rcases List.mem_cons.mp h with rfl | h
        · exact .inr ⟨_, List.mem_cons_self .., rfl⟩
        · exact .inr ⟨e, List.mem_cons_of_mem _ h, rfl⟩

theorem lookup_eq_none_of_lt [DecidableEq κ] [Std.Irrefl (α := κ) (· < ·)] {k : κ}
    {l : List (κ × ν)} (h : ∀ e ∈ l, k < e.1) : l.lookup k = none := by
  induction l with
  | nil => rfl
  | cons d es ih =>
    have hne : k ≠ d.1 := fun heq =>
      Std.Irrefl.irrefl (r := (· < ·)) k (heq ▸ h d (List.mem_cons_self ..) : k < k)
    rw [List.lookup_cons, beq_false_of_ne hne]
    exact ih fun e he => h e (List.mem_cons_of_mem _ he)

variable [DecidableLT κ] [Std.Trichotomous (α := κ) (· < ·)]
  [Trans (α := κ) (· < ·) (· < ·) (· < ·)]

theorem ascending_alterList {k : κ} {f : Option ν → ν} {l : List (κ × ν)}
    (h : l.Pairwise (·.1 < ·.1)) : (alterList k f l).Pairwise (·.1 < ·.1) := by
  induction l with
  | nil => simp [alterList]
  | cons d es ih =>
    rw [List.pairwise_cons] at h
    unfold alterList
    split
    · next hlt =>
      refine List.pairwise_cons.mpr ⟨?_, List.pairwise_cons.mpr h⟩
      intro e he
      rcases List.mem_cons.mp he with rfl | he
      · exact hlt
      · exact Trans.trans hlt (h.1 e he)
    · split
      · next hlt =>
        refine List.pairwise_cons.mpr ⟨?_, ih h.2⟩
        intro e he
        rcases fst_mem_alterList he with rfl | ⟨e', he', hk⟩
        · exact hlt
        · exact hk ▸ h.1 e' he'
      · exact List.pairwise_cons.mpr h

theorem lookup_alterList [DecidableEq κ] [Std.Irrefl (α := κ) (· < ·)] {k j : κ}
    {f : Option ν → ν} {l : List (κ × ν)} (h : l.Pairwise (·.1 < ·.1)) :
    (alterList k f l).lookup j = if j = k then some (f (l.lookup k)) else l.lookup j := by
  induction l with
  | nil => by_cases hj : j = k <;> simp [alterList, List.lookup_cons, hj, beq_false_of_ne]
  | cons d es ih =>
    obtain ⟨c, v⟩ := d
    rw [List.pairwise_cons] at h
    unfold alterList
    split
    · next hlt =>
      have hnone : ((c, v) :: es).lookup k = none := lookup_eq_none_of_lt (l := (c, v) :: es) <| by
        intro e he
        rcases List.mem_cons.mp he with rfl | he
        · exact hlt
        · exact Trans.trans hlt (h.1 e he)
      rw [hnone, List.lookup_cons]
      by_cases hj : j = k
      · simp [hj]
      · simp [hj, beq_false_of_ne hj]
    · split
      · next hlt =>
        have hne : k ≠ c := fun heq =>
          Std.Irrefl.irrefl (r := (· < ·)) c (heq ▸ hlt : c < c)
        rw [List.lookup_cons, ih h.2, List.lookup_cons, List.lookup_cons, beq_false_of_ne hne]
        by_cases hj : j = c
        · simp [hj, hne.symm]
        · simp [beq_false_of_ne hj]
      · next h1 h2 =>
        have heq : k = c := Std.Trichotomous.trichotomous (r := (· < ·)) k c h1 h2
        subst heq
        rw [List.lookup_cons, List.lookup_cons, List.lookup_cons]
        by_cases hj : j = k
        · simp [hj]
        · simp [hj, beq_false_of_ne hj]

/-- The map with the value of one key computed anew from the value it had. -/
def alter (m : OrderedMap κ ν) (k : κ) (f : Option ν → ν) : OrderedMap κ ν :=
  ⟨alterList k f m.entries, ascending_alterList m.ascending⟩

theorem find?_alter [DecidableEq κ] [Std.Irrefl (α := κ) (· < ·)] {m : OrderedMap κ ν} {k j : κ}
    {f : Option ν → ν} :
    (m.alter k f).find? j = if j = k then some (f (m.find? k)) else m.find? j :=
  lookup_alterList m.ascending

theorem mem_keys_alter {m : OrderedMap κ ν} {k j : κ} {f : Option ν → ν}
    (h : j ∈ (m.alter k f).keys) : j = k ∨ j ∈ m.keys := by
  obtain ⟨e, he, rfl⟩ := List.mem_map.mp h
  rcases fst_mem_alterList he with h | ⟨e', he', h⟩
  · exact .inl h
  · exact .inr (List.mem_map.mpr ⟨e', he', h⟩)

def insert (m : OrderedMap κ ν) (k : κ) (v : ν) : OrderedMap κ ν := m.alter k fun _ => v

theorem find?_insert [DecidableEq κ] [Std.Irrefl (α := κ) (· < ·)] {m : OrderedMap κ ν} {k j : κ}
    {v : ν} : (m.insert k v).find? j = if j = k then some v else m.find? j :=
  find?_alter

end OrderedMap

end ImportAtlas
