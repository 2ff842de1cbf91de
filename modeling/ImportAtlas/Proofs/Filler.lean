import ImportAtlas.Proofs.ReaderGives

/-!
What stands between lexemes: blanks, comments and line continuations.

Where a lexeme follows, all of this is passed. Which text is left is told by the text alone: neither
the place nor the open blocks count, though they decide whether a lexeme may follow.
-/

namespace ImportAtlas.Source

open Reader

/-- What may stand between two lexemes. -/
inductive Filler where
  | blank (c : Char) (isBlank : isSpace c = true)
  /-- a comment up to the end of its line -/
  | comment (text : List Char) (inLine : '\n' ∉ text)
  | continuation (lineEnd : List Char) (isLineEnd : lineEnd ∈ [['\n'], ['\x00'], ['\r', '\n']])

namespace Filler

def chars : Filler → List Char
  | blank c _ => [c]
  | comment text _ => '#' :: text ++ ['\n']
  | continuation lineEnd _ => '\\' :: lineEnd

def dots : Filler → ℕ
  | comment text _ => text.count '.'
  | blank .. | continuation .. => 0

lemma count_dot_chars (f : Filler) : f.chars.count '.' = f.dots := by
  cases f with
  | blank c h =>
    refine List.count_eq_zero.mpr fun hdot => ?_
    obtain rfl := List.mem_singleton.mp hdot
    cases h
  | comment text h => simp [chars, dots]
  | continuation lineEnd h =>
    simp only [List.mem_cons, List.not_mem_nil, or_false] at h
    rcases h with rfl | rfl | rfl <;> rfl

lemma length_chars_pos (f : Filler) : 0 < f.chars.length := by
  cases f <;> exact Nat.succ_pos _

end Filler

variable {c : Char} {s text cs : List Char}

/-! ### The text behind a gap -/

/-- The text behind the blanks, comments and continuations at the front. -/
def skip (cs : List Char) : List Char :=
  if passLength (cs.dropWhile isSpace) = 0 then cs.dropWhile isSpace
  else skip ((cs.dropWhile isSpace).drop (passLength (cs.dropWhile isSpace)))
termination_by cs.length
decreasing_by
  rename_i h
  have hpos := List.length_pos_iff.mpr (ne_nil_of_passLength_ne_zero h)
  have hle : (cs.dropWhile isSpace).length ≤ cs.length := (List.dropWhile_sublist _).length_le
  simp only [List.length_drop]
  omega

lemma skip_nil : skip [] = [] := by
  rw [skip.eq_def]
  rfl

lemma skip_space (h : isSpace c = true) : skip (c :: s) = skip s := by
  rw [skip.eq_def, List.dropWhile_cons_of_pos h, ← skip.eq_def]

lemma skip_of_passLength_eq_zero (hc : isSpace c = false) (h : passLength (c :: s) = 0) :
    skip (c :: s) = c :: s := by
  rw [skip.eq_def, List.dropWhile_cons_of_neg (by simp [hc]), if_pos h]

lemma skip_of_passLength_ne_zero (hc : isSpace c = false) (h : passLength (c :: s) ≠ 0) :
    skip (c :: s) = skip ((c :: s).drop (passLength (c :: s))) := by
  rw [skip.eq_def, List.dropWhile_cons_of_neg (by simp [hc]), if_neg h]

lemma skip_dot : skip ('.' :: s) = '.' :: s := skip_of_passLength_eq_zero (by decide) rfl

lemma skip_hash (s : List Char) : skip ('#' :: s) = skip (s.dropWhile (· ≠ '\n')) := by
  have hdrop := @List.drop_left _ (s.takeWhile (· ≠ '\n')) (s.dropWhile (· ≠ '\n'))
  rw [List.takeWhile_append_dropWhile] at hdrop
  rw [skip_of_passLength_ne_zero (by decide) (by simp [passLength]), passLength, Nat.add_comm,
    List.drop_succ_cons, hdrop]

lemma skip_comment (h : '\n' ∉ text) : skip ('#' :: (text ++ '\n' :: s)) = skip s := by
  have hline : (text ++ '\n' :: s).dropWhile (· ≠ '\n') = '\n' :: s := by
    rw [List.dropWhile_append_of_pos]
    · rfl
    · intro c hc
      exact decide_eq_true fun heq => h (heq ▸ hc)
  rw [skip_hash, hline, skip_space (by decide)]

lemma skip_continuation {lineEnd : List Char} (h : lineEnd ∈ [['\n'], ['\x00'], ['\r', '\n']]) :
    skip ('\\' :: (lineEnd ++ s)) = skip s := by
  simp only [List.mem_cons, List.not_mem_nil, or_false] at h
  rcases h with rfl | rfl | rfl
  all_goals exact skip_of_passLength_ne_zero (by decide) (by simp [passLength])

lemma skip_filler (f : Filler) (s : List Char) : skip (f.chars ++ s) = skip s := by
  cases f with
  | blank c h => exact skip_space h
  | comment text h =>
    rw [Filler.chars, List.append_assoc]
    exact skip_comment h
  | continuation lineEnd h => exact skip_continuation h

/-- Fillers are passed, however many there are. -/
@[simp]
lemma skip_fillers (fs : List Filler) (s : List Char) :
    skip (fs.flatMap Filler.chars ++ s) = skip s := by
  induction fs with
  | nil => rfl
  | cons f fs ih => rw [List.flatMap_cons, List.append_assoc, skip_filler, ih]

/-- A comment may reach up to the end of the text, and a continuation too. -/
lemma exists_filler_of_passLength_ne_zero (h : passLength cs ≠ 0) :
    (∃ (f : Filler) (s : List Char), cs = f.chars ++ s) ∨ skip cs = [] := by
  unfold passLength at h
  split at h
  · rename_i line
    by_cases hend : '\n' ∈ line
    · obtain ⟨text, rest, rfl, htext⟩ := List.eq_append_cons_of_mem hend
      exact .inl ⟨.comment text htext, rest, by simp [Filler.chars]⟩
    · have hall : line.dropWhile (· ≠ '\n') = [] :=
        List.dropWhile_eq_nil_iff.mpr fun c hc => decide_eq_true fun heq => hend (heq ▸ hc)
      exact .inr (by rw [skip_hash, hall, skip_nil])
  · exact .inr ((skip_of_passLength_ne_zero (by decide) (by decide)).trans skip_nil)
  · exact .inl ⟨.continuation ['\n'] (by simp), _, rfl⟩
  · exact .inl ⟨.continuation ['\x00'] (by simp), _, rfl⟩
  · exact .inl ⟨.continuation ['\r', '\n'] (by simp), _, rfl⟩
  · exact absurd rfl h

/-- A text begins with a filler, or nothing of it is passed, or all of it. -/
lemma exists_filler (cs : List Char) :
    (∃ (f : Filler) (s : List Char), cs = f.chars ++ s) ∨ skip cs = cs ∨ skip cs = [] := by
  cases cs with
  | nil => exact .inr (.inr skip_nil)
  | cons c s =>
    cases hc : isSpace c with
    | true => exact .inl ⟨.blank c hc, s, rfl⟩
    | false =>
      by_cases h : passLength (c :: s) = 0
      · exact .inr (.inl (skip_of_passLength_eq_zero hc h))
      · exact (exists_filler_of_passLength_ne_zero h).imp_right .inr

/-- Nothing but fillers is passed in front of a lexeme. -/
lemma exists_fillers (cs : List Char) (h : skip cs ≠ []) :
    ∃ fs : List Filler, cs = fs.flatMap Filler.chars ++ skip cs := by
  induction hn : cs.length using Nat.strong_induction_on generalizing cs with
  | _ n ih =>
    obtain ⟨f, s, rfl⟩ | hsame | hnone := exists_filler cs
    · rw [skip_filler] at h ⊢
      have hlength : s.length < n := by
        rw [← hn, List.length_append]
        exact Nat.lt_add_of_pos_left f.length_chars_pos
      obtain ⟨fs, hfs⟩ := ih s.length hlength s h rfl
      refine ⟨f :: fs, ?_⟩
      rw [List.flatMap_cons, List.append_assoc, ← hfs]
    · exact ⟨[], hsame.symm⟩
    · exact absurd hnone h

/-! ### Readers that pass a gap -/

lemma rest_of_afterSpace_eq_lexeme {c d : Cursor} (h : afterSpace c = .lexeme d) :
    d.rest = c.rest.dropWhile isSpace := by
  simp only [afterSpace] at h
  split at h
  · cases h
  · cases h
    exact Cursor.rest_dropWhile ..

/-- In front of a lexeme the gap is skipped, whatever the layout is. -/
lemma rest_of_gap_eq_lexeme {e : Expect} {blocks : List ℕ} {inFormat : Bool} {c d : Cursor}
    (h : gap e blocks inFormat c = .lexeme d) : d.rest = skip c.rest := by
  fun_induction gap e blocks inFormat c with
  | case1 c m hm => cases h
  | case2 c hm space hpass =>
    have hrest : space.rest = c.rest.dropWhile isSpace := Cursor.rest_dropWhile ..
    rw [hrest] at hpass
    rw [skip.eq_def, if_pos hpass, rest_of_afterSpace_eq_lexeme h]
  | case3 c hm space hpass ih =>
    have hrest : space.rest = c.rest.dropWhile isSpace := Cursor.rest_dropWhile ..
    rw [hrest] at hpass
    rw [skip.eq_def, if_neg hpass, ih h, Cursor.rest_drop, hrest]

lemma next_eq_lexeme {e : Expect} {st st' : State} (h : next e st = .ok (.lexeme, st')) :
    ∃ c : Cursor, c.rest = skip st.cursor.rest ∧ st' = { st with cursor := c } := by
  unfold next at h
  split at h
  · cases h
  · cases h
  · split at h <;> cases h
  · rename_i c hgap
    cases h
    exact ⟨c, rest_of_gap_eq_lexeme hgap, rfl⟩
  · cases h

lemma lexeme_eq_ok {e : Expect} {st st' : State} (h : lexeme e st = .ok ((), st')) :
    ∃ c : Cursor, c.rest = skip st.cursor.rest ∧ st' = { st with cursor := c } := by
  obtain ⟨found, mid, hnext, h⟩ := run_bind_eq_ok_iff.mp h
  cases found with
  | mark m => cases h
  | lexeme =>
    cases h
    exact next_eq_lexeme hnext

end ImportAtlas.Source
