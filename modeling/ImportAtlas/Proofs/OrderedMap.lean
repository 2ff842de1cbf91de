import ImportAtlas.OrderedMap
import Mathlib.Data.List.Sort

/-!
What is found in an ordered map.

An entry is found at its key and nowhere else, so the map is determined by what is found in it.
-/

namespace ImportAtlas.OrderedMap

variable {κ ν : Type} [LT κ] [DecidableEq κ] [Std.Irrefl (α := κ) (· < ·)]

lemma lookup_eq_some_iff {l : List (κ × ν)} (h : l.Pairwise (·.1 < ·.1)) {k : κ} {v : ν} :
    l.lookup k = some v ↔ (k, v) ∈ l := by
  induction l with
  | nil => simp
  | cons e es ih =>
    obtain ⟨c, w⟩ := e
    rw [List.pairwise_cons] at h
    rw [List.lookup_cons, List.mem_cons]
    by_cases hk : k = c
    · subst hk
      -- further on there are only larger keys
      have hnot : (k, v) ∉ es := fun hmem => Std.Irrefl.irrefl (r := (· < ·)) k (h.1 _ hmem)
      simp [hnot, eq_comm]
    · rw [beq_false_of_ne hk, ih h.2]
      simp [hk]

lemma find?_eq_some_iff {m : OrderedMap κ ν} {k : κ} {v : ν} :
    m.find? k = some v ↔ (k, v) ∈ m.entries :=
  lookup_eq_some_iff m.ascending

lemma mem_keys_iff {m : OrderedMap κ ν} {k : κ} : k ∈ m.keys ↔ ∃ v, m.find? k = some v := by
  simp only [find?_eq_some_iff, keys, List.mem_map]
  constructor
  · rintro ⟨⟨_, v⟩, h, rfl⟩
    exact ⟨v, h⟩
  · rintro ⟨v, h⟩
    exact ⟨(k, v), h, rfl⟩

omit [DecidableEq κ] [Std.Irrefl (α := κ) (· < ·)] in
lemma keys_pairwise (m : OrderedMap κ ν) : m.keys.Pairwise (· < ·) :=
  List.pairwise_map.mpr m.ascending

omit [DecidableEq κ] in
lemma keys_nodup (m : OrderedMap κ ν) : m.keys.Nodup := by
  refine m.keys_pairwise.imp ?_
  rintro a _ h rfl
  exact Std.Irrefl.irrefl (r := (· < ·)) a h

lemma ext [Trans (α := κ) (· < ·) (· < ·) (· < ·)] {m n : OrderedMap κ ν}
    (h : ∀ k, m.find? k = n.find? k) : m = n := by
  have hirrefl : Std.Irrefl fun a b : κ × ν => a.1 < b.1 :=
    ⟨fun a => Std.Irrefl.irrefl (r := (· < ·)) a.1⟩
  have hantisymm : Std.Antisymm fun a b : κ × ν => a.1 < b.1 :=
    ⟨fun a b hab hba =>
      absurd (Trans.trans hab hba : a.1 < a.1) (Std.Irrefl.irrefl (r := (· < ·)) a.1)⟩
  have hmem : ∀ e : κ × ν, e ∈ m.entries ↔ e ∈ n.entries := by
    rintro ⟨k, v⟩
    rw [← find?_eq_some_iff, ← find?_eq_some_iff, h]
  have hentries : m.entries = n.entries := m.ascending.eq_of_mem_iff n.ascending hmem
  cases m
  cases n
  simp_all

end ImportAtlas.OrderedMap
