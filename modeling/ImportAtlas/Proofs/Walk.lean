import ImportAtlas.Package.Scan
import ImportAtlas.Proofs.ByteOrder
import ImportAtlas.Proofs.Place

/-!
Walks through a directory.

A walk meets a directory, then its entries in the order of the bytes of their names, and the
contents of an entry right behind it; it does not follow links. The order in which a walk meets
places is the order of places, so listing the places of a tree that lie within a directory is the
same as walking through it.
-/

namespace ImportAtlas

namespace Location

lemma lt_of_prefix {l x : Location} (h : l.names <+: x.names) (hne : x ≠ l) : l < x := by
  obtain ⟨rest, hrest⟩ := h
  show l.texts < x.texts
  have htexts : x.texts = l.texts ++ rest.map FileName.text := by simp [texts, ← hrest]
  cases rest with
  | nil =>
    have heq : x = l := by
      obtain ⟨names⟩ := x
      obtain ⟨names'⟩ := l
      simpa using hrest.symm
    exact absurd heq hne
  | cons n rest =>
    rw [htexts]
    conv_lhs => rw [← List.append_nil l.texts]
    exact List.append_left_lt (List.nil_lt_cons ..)

/-- What lies within an entry comes before what lies within a later one. -/
lemma lt_of_sibling_lt {l x y : Location} {a b : FileName} (h : a.text < b.text)
    (hx : (l.child a).names <+: x.names) (hy : (l.child b).names <+: y.names) : x < y := by
  obtain ⟨s, hs⟩ := hx
  obtain ⟨t, ht⟩ := hy
  show x.texts < y.texts
  have hxt : x.texts = l.texts ++ a.text :: s.map FileName.text := by simp [texts, child, ← hs]
  have hyt : y.texts = l.texts ++ b.text :: t.map FileName.text := by simp [texts, child, ← ht]
  rw [hxt, hyt]
  exact List.append_left_lt (List.cons_lt_cons_iff.mpr (.inl h))

end Location

namespace FileTree

variable {t : FileTree}

/-! ### The entries of a directory -/

/-- The names of the entries of a directory, in the order of their bytes. -/
def entryNames (t : FileTree) (l : Location) : List FileName :=
  ((t.table.keys.filter fun k => k.parent = l).filterMap Location.name?).mergeSort
    fun a b => !decide (utf8Bytes b.text < utf8Bytes a.text)

lemma mem_entryNames_iff {l : Location} {n : FileName} :
    n ∈ t.entryNames l ↔ l.child n ∈ t.table.keys := by
  simp only [entryNames, List.mem_mergeSort, List.mem_filterMap, List.mem_filter, decide_eq_true_eq]
  constructor
  · rintro ⟨k, ⟨hk, rfl⟩, hn⟩
    rwa [Location.child_parent hn]
  · intro h
    exact ⟨l.child n, ⟨h, Location.parent_child l n⟩, Location.name?_child⟩

lemma entryNames_nodup (t : FileTree) (l : Location) : (t.entryNames l).Nodup := by
  refine (List.mergeSort_perm _ _).nodup_iff.mpr (List.pairwise_filterMap.mpr ?_)
  refine ((OrderedMap.keys_nodup t.table).filter _).imp_of_mem ?_
  intro a b ha hb hne m hm n hn hmn
  have hpa : a.parent = l := by simpa using (List.mem_filter.mp ha).2
  have hpb : b.parent = l := by simpa using (List.mem_filter.mp hb).2
  rw [← Location.child_parent hm, ← Location.child_parent hn, hpa, hpb, hmn] at hne
  exact hne rfl

/-- The order of the bytes is the order of the texts, and no name is there twice. -/
lemma entryNames_pairwise (t : FileTree) (l : Location) :
    (t.entryNames l).Pairwise fun a b => a.text < b.text := by
  have hsorted : (t.entryNames l).Pairwise fun a b =>
      !decide (utf8Bytes b.text < utf8Bytes a.text) := by
    refine List.pairwise_mergeSort (fun a b c hab hbc => ?_) (fun a b => ?_) _
    · simp only [utf8Bytes_lt_iff, Bool.not_eq_true', decide_eq_false_iff_not] at hab hbc ⊢
      exact String.not_lt.mpr (String.le_trans (String.not_lt.mp hab) (String.not_lt.mp hbc))
    · simp only [utf8Bytes_lt_iff, Bool.or_eq_true, Bool.not_eq_true', decide_eq_false_iff_not]
      by_cases h : b.text < a.text
      · exact .inr (String.lt_asymm h)
      · exact .inl h
  refine hsorted.imp₂ ?_ (t.entryNames_nodup l)
  intro a b hle hne
  simp only [utf8Bytes_lt_iff, Bool.not_eq_true', decide_eq_false_iff_not] at hle
  by_contra hlt
  exact hne (FileName.text_injective (String.le_antisymm (String.not_lt.mp hle)
    (String.not_lt.mp hlt)))

/-! ### The walk -/

def depth (t : FileTree) : ℕ := (t.table.keys.map (·.names.length)).foldr max 0

lemma length_le_depth {l : Location} (h : l ∈ t.table.keys) : l.names.length ≤ t.depth := by
  unfold depth
  generalize t.table.keys = keys at h ⊢
  induction keys with
  | nil => simp at h
  | cons k ks ih =>
    rw [List.map_cons, List.foldr_cons]
    rcases List.mem_cons.mp h with rfl | h
    · exact Nat.le_max_left _ _
    · exact Nat.le_trans (ih h) (Nat.le_max_right _ _)

def walk (t : FileTree) (l : Location) : List Location :=
  l ::
    if t.entry? l = some .directory then
      (t.entryNames l).attach.flatMap fun n => t.walk (l.child n.1)
    else []
termination_by t.depth + 1 - l.names.length
decreasing_by
  have hle := length_le_depth (mem_entryNames_iff.mp n.2)
  simp only [Location.child, List.length_append, List.length_singleton] at hle ⊢
  omega

lemma walk_eq (t : FileTree) (l : Location) :
    t.walk l = l ::
      if t.entry? l = some .directory then (t.entryNames l).flatMap fun n => t.walk (l.child n)
      else [] := by
  rw [walk]
  simp

lemma mem_walk_iff_step {l x : Location} :
    x ∈ t.walk l ↔
      x = l ∨ t.entry? l = some .directory ∧ ∃ n ∈ t.entryNames l, x ∈ t.walk (l.child n) := by
  rw [walk_eq, List.mem_cons]
  split
  · next h => simp [h, List.mem_flatMap]
  · next h => simp [h]

/-- A walk meets the place where it begins and all entries that lie within it. -/
lemma mem_walk_iff {l x : Location} :
    x ∈ t.walk l ↔ x = l ∨ x ∈ t.table.keys ∧ l.names <+: x.names := by
  induction l using walk.induct t with
  | case1 l ih =>
    rw [mem_walk_iff_step]
    constructor
    · rintro (rfl | ⟨hdir, n, hn, hx⟩)
      · exact .inl rfl
      · rcases (ih ⟨n, hn⟩).mp hx with rfl | ⟨hkey, hpre⟩
        · exact .inr ⟨mem_entryNames_iff.mp hn, Location.prefix_child l n⟩
        · exact .inr ⟨hkey, (Location.prefix_child l n).trans hpre⟩
    · rintro (rfl | ⟨hkey, rest, hrest⟩)
      · exact .inl rfl
      · cases rest with
        | nil =>
          obtain ⟨names⟩ := x
          obtain ⟨names'⟩ := l
          exact .inl (by simpa using hrest.symm)
        | cons n rest =>
          -- the walk goes on at the next name on the way
          have hx : x = ⟨l.names ++ n :: rest⟩ := by rw [hrest]
          subst hx
          obtain ⟨hdir, hchild⟩ := directory_of_split hkey
          have hn : n ∈ t.entryNames l := mem_entryNames_iff.mpr hchild
          refine .inr ⟨hdir, n, hn, (ih ⟨n, hn⟩).mpr (.inr ⟨hkey, ?_⟩)⟩
          exact ⟨rest, by simp [Location.child]⟩

lemma walk_pairwise (t : FileTree) (l : Location) : (t.walk l).Pairwise (· < ·) := by
  have hpre : ∀ {l x : Location}, x ∈ t.walk l → l.names <+: x.names := by
    intro l x hx
    rcases mem_walk_iff.mp hx with rfl | ⟨-, h⟩
    · exact List.prefix_refl _
    · exact h
  induction l using walk.induct t with
  | case1 l ih =>
    rw [walk_eq]
    split
    · next hdir =>
      refine List.pairwise_cons.mpr ⟨fun x hx => ?_, List.pairwise_flatMap.mpr ⟨?_, ?_⟩⟩
      · -- the place itself comes before all that is in it
        obtain ⟨n, -, hx⟩ := List.mem_flatMap.mp hx
        have hchild := hpre hx
        refine Location.lt_of_prefix ((Location.prefix_child l n).trans hchild) ?_
        rintro rfl
        have hlen := hchild.length_le
        simp only [Location.child, List.length_append, List.length_singleton] at hlen
        omega
      · exact fun n hn => ih ⟨n, hn⟩
      · -- what lies in one entry comes before what lies in a later one
        refine (t.entryNames_pairwise l).imp fun {a b} hab x hx y hy => ?_
        exact Location.lt_of_sibling_lt hab (hpre hx) (hpre hy)
    · simp

/-! ### Source files -/

lemma mem_within_iff {top x : Location} :
    x ∈ t.within top ↔ x ∈ t.table.keys ∧ top.names <+: x.names := by
  unfold within Location.within?
  rw [List.mem_filter]
  by_cases h : top.names <+: x.names <;> simp [h]

def sourcesMet (t : FileTree) (top : Location) : List Location :=
  (t.walk top).filter t.isSourceFile

/-- The source files of a directory are met in a walk, in the same order. -/
lemma sourceFiles_eq_sourcesMet {top : Location} (h : t.entry? top = some .directory) :
    t.sourceFiles top = t.sourcesMet top := by
  have hantisymm : Std.Antisymm fun a b : Location => a < b :=
    ⟨fun a b hab hba => absurd (Trans.trans hab hba : a < a) (Std.Irrefl.irrefl (r := (· < ·)) a)⟩
  have hwithin : (t.within top).Pairwise (· < ·) := (OrderedMap.keys_pairwise t.table).filter _
  refine (hwithin.filter _).eq_of_mem_iff ((t.walk_pairwise top).filter _) fun x => ?_
  rw [sourcesMet, List.mem_filter, List.mem_filter, mem_within_iff, mem_walk_iff]
  constructor
  · rintro ⟨hx, hsource⟩
    exact ⟨.inr hx, hsource⟩
  · rintro ⟨rfl | hx, hsource⟩
    · -- the root itself is no source file, any other directory is an entry
      have hroot : x ≠ .root := by
        rintro rfl
        simp [isSourceFile, Location.name?, Location.root] at hsource
      exact ⟨⟨mem_keys_of_entry h hroot, List.prefix_refl _⟩, hsource⟩
    · exact ⟨hx, hsource⟩

end FileTree

end ImportAtlas
