import ImportAtlas.ModulePath
import Mathlib.Data.List.Basic
import Mathlib.Data.List.TakeWhile

/-!
Texts cut at a character: no piece has the character in it, and texts without it are the pieces of
what they are put together to.
-/

namespace ImportAtlas.ModulePath

variable {mark : Char} {cs rest s piece : List Char}

lemma split_append_mark : split mark (cs ++ mark :: rest) = split mark cs ++ split mark rest := by
  induction cs with
  | nil => simp [split]
  | cons c cs ih =>
    by_cases hc : c = mark
    · simp [split, hc, ih]
    · obtain ⟨piece, pieces, hsplit⟩ := List.exists_cons_of_ne_nil (split_ne_nil mark cs)
      simp [split, hc, ih, hsplit]

lemma split_self (h : mark ∉ cs) : split mark cs = [cs] := by
  induction cs with
  | nil => rfl
  | cons c cs ih =>
    rw [List.mem_cons, not_or] at h
    simp [split, Ne.symm h.1, ih h.2]

lemma split_append (h : mark ∉ cs) : split mark (cs ++ mark :: rest) = cs :: split mark rest := by
  rw [split_append_mark, split_self h, List.singleton_append]

lemma split_append_left {first : List Char} {others : List (List Char)} (h : mark ∉ cs)
    (hs : split mark s = first :: others) :
    split mark (cs ++ s) = (cs ++ first) :: others := by
  induction cs with
  | nil => exact hs
  | cons c cs ih =>
    rw [List.mem_cons, not_or] at h
    rw [List.cons_append, split, if_neg (Ne.symm h.1), ih h.2]
    rfl

lemma split_append_right (h : mark ∉ rest) (s : List Char) :
    ∃ lines last, split mark s = lines ++ [last] ∧
      split mark (s ++ rest) = lines ++ [last ++ rest] := by
  induction s with
  | nil => exact ⟨[], [], rfl, split_self h⟩
  | cons c cs ih =>
    obtain ⟨lines, last, hcs, hcst⟩ := ih
    by_cases hc : c = mark
    · exact ⟨[] :: lines, last, by simp [split, hc, hcs], by simp [split, hc, hcst]⟩
    · cases lines with
      | nil => exact ⟨[], c :: last, by simp [split, hc, hcs], by simp [split, hc, hcst]⟩
      | cons line lines =>
        exact ⟨(c :: line) :: lines, last, by simp [split, hc, hcs], by simp [split, hc, hcst]⟩

/-- The last piece is what stands behind the last mark. -/
lemma split_reverse_cases (mark : Char) (cs : List Char) :
    let last := cs.takeWhile (· ≠ mark)
    (cs = last ∧ split mark cs.reverse = [last.reverse]) ∨
      ∃ above, cs = last ++ mark :: above ∧
        split mark cs.reverse = split mark above.reverse ++ [last.reverse] := by
  intro last
  have hcs : last ++ cs.dropWhile (· ≠ mark) = cs := List.takeWhile_append_dropWhile
  have hlast : mark ∉ last.reverse := fun h => by
    simpa using List.mem_takeWhile_imp (List.mem_reverse.mp h)
  cases hrest : cs.dropWhile (· ≠ mark) with
  | nil =>
    rw [hrest, List.append_nil] at hcs
    exact .inl ⟨hcs.symm, hcs ▸ split_self hlast⟩
  | cons c above =>
    -- what ends the last piece is a mark
    obtain rfl : c = mark := by
      have hhead := List.head?_dropWhile_not (· ≠ mark) cs
      rw [hrest] at hhead
      simpa using hhead
    rw [hrest] at hcs
    refine .inr ⟨above, hcs.symm, ?_⟩
    rw [← hcs, List.reverse_append, List.reverse_cons, List.append_assoc, List.singleton_append,
      split_append_mark, split_self hlast]

lemma join_cons {pieces : List (List Char)} (h : pieces ≠ []) :
    join mark (piece :: pieces) = piece ++ mark :: join mark pieces := by
  obtain ⟨next, pieces, rfl⟩ := List.exists_cons_of_ne_nil h
  rfl

lemma join_append {ps qs : List (List Char)} (hp : ps ≠ []) (hq : qs ≠ []) :
    join mark (ps ++ qs) = join mark ps ++ mark :: join mark qs := by
  induction ps with
  | nil => exact absurd rfl hp
  | cons p ps ih =>
    by_cases hps : ps = []
    · subst hps
      exact join_cons hq
    · rw [List.cons_append, join_cons (List.append_ne_nil_of_left_ne_nil hps qs), ih hps,
        join_cons hps, List.append_assoc]
      rfl

/-- Pieces put together and cut again are cut further only where they have the mark in them. -/
lemma split_join {pieces : List (List Char)} (h : pieces ≠ []) :
    split mark (join mark pieces) = pieces.flatMap (split mark) := by
  induction pieces with
  | nil => exact absurd rfl h
  | cons piece pieces ih =>
    by_cases hpieces : pieces = []
    · subst hpieces
      simp [join]
    · rw [join_cons hpieces, split_append_mark, ih hpieces, List.flatMap_cons]

lemma not_mem_of_mem_split (h : piece ∈ split mark s) : mark ∉ piece := by
  induction s generalizing piece with
  | nil => simp_all [split]
  | cons c cs ih =>
    unfold split at h
    split at h
    · rcases List.mem_cons.mp h with rfl | h
      · exact List.not_mem_nil
      · exact ih h
    · rename_i hc
      split at h
      · simp_all [Ne.symm hc]
      · rename_i first others hsplit
        rw [hsplit] at ih
        rcases List.mem_cons.mp h with rfl | h
        · have := ih (List.mem_cons_self ..)
          simp [Ne.symm hc, this]
        · exact ih (List.mem_cons_of_mem _ h)

/-- Only texts without the mark are the pieces of what they are put together to. -/
lemma split_join_eq_self_iff {pieces : List (List Char)} (h : pieces ≠ []) :
    split mark (join mark pieces) = pieces ↔ ∀ piece ∈ pieces, mark ∉ piece := by
  constructor
  · intro heq piece hpiece
    rw [← heq] at hpiece
    exact not_mem_of_mem_split hpiece
  · intro hpieces
    rw [split_join h, List.flatMap_congr fun piece hpiece => split_self (hpieces piece hpiece)]
    exact List.flatMap_singleton' pieces

lemma infix_join_of_mem {pieces : List (List Char)} (h : piece ∈ pieces) :
    piece <:+: join mark pieces := by
  induction pieces with
  | nil => cases h
  | cons first pieces ih =>
    by_cases hpieces : pieces = []
    · rw [hpieces, List.mem_singleton] at h
      rw [h, hpieces]
      exact List.infix_rfl
    · rw [join_cons hpieces]
      rcases List.mem_cons.mp h with rfl | h
      · exact (List.prefix_append _ _).isInfix
      · exact (ih h).trans ((List.suffix_cons _ _).trans (List.suffix_append _ _)).isInfix

lemma infix_of_mem_split (h : piece ∈ split mark s) : piece <:+: s := by
  have hpart : piece <:+: join mark (split mark s) := infix_join_of_mem h
  rwa [join_split] at hpart

lemma mem_of_mem_split {c : Char} (h : piece ∈ split mark s) (hc : c ∈ piece) : c ∈ s :=
  (infix_of_mem_split h).subset hc

end ImportAtlas.ModulePath
