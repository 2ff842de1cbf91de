import ImportAtlas.Export.Page
import Mathlib.Data.List.Infix

/-!
Texts within texts, and other texts in their place.

A text is cut in front of a character that the text looked for does not have behind its first one:
no place where that is found reaches across the cut, so it is found, counted and replaced on either
side apart. Another text in its place changes a text exactly if it is found there.
-/

namespace ImportAtlas.Export

variable {c x : Char} {a b s old new : List Char}

/-! ### Beginnings -/

lemma isPrefixOf_append_cons (hx : x ∉ s) : s.isPrefixOf (a ++ x :: b) = s.isPrefixOf a := by
  induction s generalizing a with
  | nil => rfl
  | cons d ds ih =>
    rw [List.mem_cons, not_or] at hx
    cases a with
    | nil => simp [List.isPrefixOf, Ne.symm hx.1]
    | cons c cs => simp [List.isPrefixOf, ih hx.2]

/-- What begins in front of a cut ends there too. -/
lemma isPrefixOf_cut (hx : x ∉ old.tail) (ha : a ≠ []) :
    old.isPrefixOf (a ++ x :: b) = old.isPrefixOf a := by
  obtain ⟨c, a, rfl⟩ := List.exists_cons_of_ne_nil ha
  cases old with
  | nil => rfl
  | cons d ds =>
    rw [List.tail_cons] at hx
    simp only [List.cons_append, List.isPrefixOf, isPrefixOf_append_cons hx]

lemma isPrefixOf_cons_eq_false (hold : old ≠ []) (h : old.head? ≠ some c) :
    old.isPrefixOf (c :: s) = false := by
  obtain ⟨d, ds, rfl⟩ := List.exists_cons_of_ne_nil hold
  have hne : (d == c) = false := by simpa using h
  rw [List.isPrefixOf, hne, Bool.false_and]

/-! ### Places -/

/-- The number of places where a text is found in another one. -/
def occurrences (old s : List Char) : ℕ := s.tails.countP old.isPrefixOf

lemma occurrences_nil (hold : old ≠ []) : occurrences old [] = 0 := by
  cases old with
  | nil => exact absurd rfl hold
  | cons d ds => rfl

lemma occurrences_cons :
    occurrences old (c :: s) = occurrences old s + (old.isPrefixOf (c :: s)).toNat := by
  rw [occurrences, List.tails_cons, List.countP_cons, occurrences]
  cases old.isPrefixOf (c :: s) <;> rfl

lemma occurrences_eq_zero_iff : occurrences old s = 0 ↔ ¬old <:+: s := by
  rw [occurrences, List.countP_eq_zero, List.infix_iff_prefix_suffix]
  simp only [List.mem_tails, List.isPrefixOf_iff_prefix]
  push Not
  exact ⟨fun h t hp hs => h t hs hp, fun h t hs hp => h t hp hs⟩

lemma occurrences_cut (hold : old ≠ []) (hx : x ∉ old.tail) :
    occurrences old (a ++ x :: b) = occurrences old a + occurrences old (x :: b) := by
  induction a with
  | nil => rw [List.nil_append, occurrences_nil hold, Nat.zero_add]
  | cons c a ih =>
    have hbegin := isPrefixOf_cut (b := b) hx (List.cons_ne_nil c a)
    have hcons : occurrences old (c :: a) = _ := occurrences_cons
    rw [List.cons_append] at hbegin ⊢
    rw [occurrences_cons, ih, hbegin, hcons]
    omega

lemma head?_ne (hx : x ∉ old) : old.head? ≠ some x := fun h => hx (List.mem_of_mem_head? h)

/-- A character with which the text does not begin makes no place. -/
lemma occurrences_skip (hold : old ≠ []) (hx : old.head? ≠ some x) :
    occurrences old (x :: s) = occurrences old s := by
  rw [occurrences_cons, isPrefixOf_cons_eq_false hold hx]
  rfl

/-- A text is no part of two others across a character that it does not have. -/
lemma infix_append_cons_iff (hold : old ≠ []) (hx : x ∉ old) :
    old <:+: a ++ x :: b ↔ old <:+: a ∨ old <:+: b := by
  have hsum : occurrences old (a ++ x :: b) = occurrences old a + occurrences old b := by
    rw [occurrences_cut hold fun h => hx (List.mem_of_mem_tail h),
      occurrences_skip hold (head?_ne hx)]
  rw [← not_iff_not, not_or, ← occurrences_eq_zero_iff, ← occurrences_eq_zero_iff,
    ← occurrences_eq_zero_iff, hsum, Nat.add_eq_zero_iff]

/-- A text without a line feed is in no text if it is in none of its lines. -/
lemma not_infix_lines {lines : List String} (hold : old ≠ []) (hfeed : '\n' ∉ old)
    (h : ∀ line ∈ lines, ¬old <:+: line.toList) : ¬old <:+: ("\n".intercalate lines).toList := by
  induction lines with
  | nil => simpa using hold
  | cons line lines ih =>
    obtain ⟨hline, hlines⟩ := List.forall_mem_cons.mp h
    cases lines with
    | nil => simpa using hline
    | cons next lines =>
      have hcut : ("\n".intercalate (line :: next :: lines)).toList =
          line.toList ++ '\n' :: ("\n".intercalate (next :: lines)).toList := by
        simp [String.intercalate_cons_cons]
      rw [hcut, infix_append_cons_iff hold hfeed, not_or]
      exact ⟨hline, ih hlines⟩

/-! ### Replacing -/

lemma replaceAll_nil : replaceAll old new [] = [] := by rw [replaceAll]

lemma replaceAll_found (hold : old ≠ []) :
    replaceAll old new (old ++ s) = new ++ replaceAll old new s := by
  obtain ⟨d, ds, rfl⟩ := List.exists_cons_of_ne_nil hold
  have hfound : (d :: ds).isPrefixOf (d :: (ds ++ s)) = true :=
    List.isPrefixOf_iff_prefix.mpr (List.prefix_append (d :: ds) s)
  rw [List.cons_append, replaceAll, if_pos hfound]
  simp

lemma replaceAll_place (hold : old ≠ []) : replaceAll old new old = new := by
  have hfound : replaceAll old new (old ++ []) = new ++ replaceAll old new [] :=
    replaceAll_found hold
  rwa [List.append_nil, replaceAll_nil, List.append_nil] at hfound

lemma replaceAll_passed (h : old.isPrefixOf (c :: s) = false) :
    replaceAll old new (c :: s) = c :: replaceAll old new s := by
  rw [replaceAll, if_neg (by simp [h])]

/-- A text is gone through by what is found and by characters that are passed. -/
lemma replaced_induction {motive : List Char → Prop} (old : List Char) (hold : old ≠ [])
    (nil : motive []) (found : ∀ s, motive s → motive (old ++ s))
    (passed : ∀ c s, old.isPrefixOf (c :: s) = false → motive s → motive (c :: s))
    (s : List Char) : motive s := by
  induction s using replaceAll.induct old with
  | case1 => exact nil
  | case2 c cs hfound ih =>
    obtain ⟨rest, hrest⟩ := List.isPrefixOf_iff_prefix.mp hfound
    obtain ⟨d, ds, rfl⟩ := List.exists_cons_of_ne_nil hold
    have hdrop : cs.drop ((d :: ds).length - 1) = rest := by
      rw [List.cons_append] at hrest
      rw [← (List.cons.inj hrest).2]
      simp
    rw [hdrop] at ih
    exact hrest ▸ found rest ih
  | case3 c cs hfound ih => exact passed c cs (Bool.not_eq_true _ ▸ hfound) ih

lemma replaceAll_of_absent (h : ¬old <:+: s) : replaceAll old new s = s := by
  induction s with
  | nil => exact replaceAll_nil
  | cons c s ih =>
    rw [List.infix_cons_iff, not_or, ← List.isPrefixOf_iff_prefix, Bool.not_eq_true] at h
    rw [replaceAll_passed h.1, ih h.2]

/-- On either side of a cut a text is replaced apart. -/
lemma replaceAll_cut (hold : old ≠ []) (hx : x ∉ old.tail) :
    replaceAll old new (a ++ x :: b) = replaceAll old new a ++ replaceAll old new (x :: b) := by
  induction a using replaced_induction old hold with
  | nil => rw [replaceAll_nil, List.nil_append, List.nil_append]
  | found a ih =>
    rw [List.append_assoc, replaceAll_found hold, replaceAll_found hold, ih, List.append_assoc]
  | passed c a h ih =>
    have h' : old.isPrefixOf (c :: (a ++ x :: b)) = false := by
      rw [← List.cons_append, isPrefixOf_cut hx (List.cons_ne_nil c a), h]
    rw [List.cons_append, replaceAll_passed h', replaceAll_passed h, ih, List.cons_append]

lemma replaceAll_self (hold : old ≠ []) : replaceAll old old s = s := by
  induction s using replaced_induction old hold with
  | nil => exact replaceAll_nil
  | found s ih => rw [replaceAll_found hold, ih]
  | passed c s h ih => rw [replaceAll_passed h, ih]

lemma length_le_length_replaceAll (hold : old ≠ []) (hlength : old.length ≤ new.length) :
    s.length ≤ (replaceAll old new s).length := by
  induction s using replaced_induction old hold with
  | nil => exact Nat.zero_le _
  | found s ih =>
    rw [replaceAll_found hold, List.length_append, List.length_append]
    omega
  | passed c s h ih =>
    rw [replaceAll_passed h, List.length_cons, List.length_cons]
    omega

/-- Another text that is no shorter changes every text in which it is put in place of one. -/
lemma replaceAll_eq_self_iff (hold : old ≠ []) (hlength : old.length ≤ new.length)
    (hne : new ≠ old) : replaceAll old new s = s ↔ ¬old <:+: s := by
  refine ⟨fun heq hpart => ?_, replaceAll_of_absent⟩
  induction s using replaced_induction old hold with
  | nil => exact hold (List.infix_nil.mp hpart)
  | found s ih =>
    rw [replaceAll_found hold] at heq
    have hrest := length_le_length_replaceAll (s := s) hold hlength
    have hsum := congrArg List.length heq
    rw [List.length_append, List.length_append] at hsum
    exact hne (List.append_inj heq (by omega)).1
  | passed c s h ih =>
    rw [replaceAll_passed h] at heq
    rw [List.infix_cons_iff, ← List.isPrefixOf_iff_prefix, h] at hpart
    exact ih (List.cons.inj heq).2 (hpart.resolve_left (by simp))

lemma not_mem_replaceAll (hold : old ≠ []) (hs : x ∉ s) (hnew : x ∉ new) :
    x ∉ replaceAll old new s := by
  induction s using replaced_induction old hold with
  | nil => rwa [replaceAll_nil]
  | found s ih =>
    rw [List.mem_append, not_or] at hs
    rw [replaceAll_found hold, List.mem_append, not_or]
    exact ⟨hnew, ih hs.2⟩
  | passed c s h ih =>
    rw [List.mem_cons, not_or] at hs
    rw [replaceAll_passed h, List.mem_cons, not_or]
    exact ⟨hs.1, ih hs.2⟩

/-! ### Cuts -/

/-- The second text begins with a character that the one looked for does not have behind its first
one. -/
def Cuts (old b : List Char) : Prop := ∃ x rest, b = x :: rest ∧ x ∉ old.tail

lemma Cuts.append (h : Cuts old a) (b : List Char) : Cuts old (a ++ b) := by
  obtain ⟨x, rest, rfl, hx⟩ := h
  exact ⟨x, rest ++ b, rfl, hx⟩

lemma Cuts.occurrences_append (hold : old ≠ []) (h : Cuts old b) :
    occurrences old (a ++ b) = occurrences old a + occurrences old b := by
  obtain ⟨x, rest, rfl, hx⟩ := h
  exact occurrences_cut hold hx

lemma Cuts.replaceAll_append (hold : old ≠ []) (h : Cuts old b) :
    replaceAll old new (a ++ b) = replaceAll old new a ++ replaceAll old new b := by
  obtain ⟨x, rest, rfl, hx⟩ := h
  exact replaceAll_cut hold hx

end ImportAtlas.Export
