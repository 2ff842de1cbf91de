import ImportAtlas.Proofs.ReadImport

/-!
The lines of a program, seen from where a statement begins and from where it ends.

A reader stands behind the indentation when a statement begins and in front of the line end when
it is over. What follows a statement is therefore told as a line end, an indentation and the text
behind it.
-/

namespace ImportAtlas.Program

open ImportAtlas.Source ImportAtlas.Source.Reader

variable {d n : ℕ} {s t : List Char}

/-! ### Statements without their first indentation and their last line end -/

mutual

def Statement.core (depth : ℕ) : Statement → List Char
  | .pass => "pass".toList
  | .imports i => i.chars
  | .block head s ss =>
    head.chars ++ ':' :: (lineText (4 * (depth + 1)) (s.core (depth + 1)) ++ follow (depth + 1) ss)
  | .attempt s ss handler t ts =>
    "try".toList ++ ':' :: (lineText (4 * (depth + 1)) (s.core (depth + 1)) ++
      follow (depth + 1) ss ++ lineText (4 * depth) (handler.chars ++
        ':' :: (lineText (4 * (depth + 1)) (t.core (depth + 1)) ++ follow (depth + 1) ts)))

/-- Statements with a line end in front of each. -/
def follow (depth : ℕ) : List Statement → List Char
  | [] => []
  | s :: ss => lineText (4 * depth) (s.core depth) ++ follow depth ss

end

lemma lineText_append : lineText n s ++ t = lineText n (s ++ t) := by simp [lineText]

/-- A line end goes over from behind a line to the place in front of it. -/
lemma cons_line : '\n' :: (line d s ++ t) = lineText (4 * d) s ++ '\n' :: t := by
  simp [line, lineText]

mutual

lemma cons_chars (d : ℕ) (t : List Char) : (s : Statement) →
    '\n' :: (s.chars d ++ t) = lineText (4 * d) (s.core d) ++ '\n' :: t
  | .pass => cons_line
  | .imports _ => cons_line
  | .block head s ss => by
    simp only [Statement.chars, List.append_assoc]
    rewrite [cons_line, cons_chars, cons_allChars, Statement.core]
    simp [lineText]
  | .attempt s ss handler u us => by
    simp only [Statement.chars, List.append_assoc]
    rewrite [cons_line, cons_chars, cons_allChars, cons_line, cons_chars, cons_allChars,
      Statement.core]
    simp [lineText]

lemma cons_allChars (d : ℕ) (t : List Char) : (ss : List Statement) →
    '\n' :: (allChars d ss ++ t) = follow d ss ++ '\n' :: t
  | [] => rfl
  | s :: ss => by
    rw [allChars, List.append_assoc, cons_chars, cons_allChars, follow, List.append_assoc]

end

lemma length_lineText : (lineText n s).length = n + s.length + 1 := by simp [lineText]

lemma length_le_follow (ss : List Statement) : ss.length ≤ (follow d ss).length := by
  induction ss with
  | nil => exact Nat.zero_le _
  | cons s ss ih =>
    rw [follow, List.length_append, length_lineText, List.length_cons]
    omega

/-! ### What a statement begins with -/

def openingWords : List String :=
  ["pass", "import", "from", "if", "while", "def", "class", "try"]

/-- The words of the clauses that go on with a statement. -/
def clauseWords : List String := ["elif", "else", "except", "finally"]

lemma isWord_of_opening {w : String} (hw : w ∈ openingWords) : isWord w.toList = true := by
  have hall : ∀ w ∈ openingWords, isWord w.toList = true := by decide
  exact hall w hw

lemma Import.word_mem (i : Import) : i.word ∈ openingWords := by
  cases i <;> simp [word, openingWords]

lemma Head.word_mem (head : Head) : head.word ∈ openingWords := by
  cases head <;> simp [word, openingWords]

lemma Statement.core_word (s : Statement) (ht : Stops t) :
    ∃ w ∈ openingWords, ∃ u, s.core d ++ t = w.toList ++ u ∧ Stops u := by
  have hspace (u : List Char) : Stops (' ' :: u) := stops_cons (by decide)
  cases s with
  | pass => exact ⟨"pass", by decide, t, rfl, ht⟩
  | imports i =>
    rw [core, Import.chars, List.append_assoc]
    exact ⟨i.word, i.word_mem, ' ' :: _, rfl, hspace _⟩
  | block head s ss =>
    rw [core, Head.chars, List.append_assoc, List.append_assoc]
    exact ⟨head.word, head.word_mem, ' ' :: _, rfl, hspace _⟩
  | attempt => exact ⟨"try", by decide, ':' :: _, List.append_assoc .., stops_cons (by decide)⟩

lemma Statement.wordAt_core (s : Statement) (ht : Stops t) :
    ∃ w ∈ openingWords, wordAt (s.core d ++ t) = some w := by
  obtain ⟨w, hw, u, htext, hu⟩ := s.core_word (d := d) ht
  exact ⟨w, hw, by rw [htext, wordAt_text (isWord_of_opening hw) hu]⟩

lemma Statement.solid_core (s : Statement) (ht : Stops t) : Solid (s.core d ++ t) := by
  obtain ⟨w, hw, u, htext, -⟩ := s.core_word (d := d) ht
  rw [htext]
  exact solid_word (isWord_of_opening hw)

/-! ### What follows a statement -/

/-- A line that is no deeper comes next, or the end of the text. -/
def Ends (d : ℕ) (s : List Char) : Prop :=
  ∃ j ≤ d, ∃ t, s = lineText (4 * j) t ∧ Begins (4 * j) t

/-- The next line is no deeper, and it does not go on with a statement at the same depth. -/
def Follows (d : ℕ) (s : List Char) : Prop :=
  ∃ j ≤ d, ∃ t, s = lineText (4 * j) t ∧ Begins (4 * j) t ∧
    (j = d → ∀ w ∈ wordAt t, w ∉ clauseWords)

lemma Follows.ends (h : Follows d s) : Ends d s := by
  obtain ⟨j, hj, t, hs, ht, -⟩ := h
  exact ⟨j, hj, t, hs, ht⟩

lemma Ends.follows (h : Ends d s) : Follows (d + 1) s := by
  obtain ⟨j, hj, t, hs, ht⟩ := h
  exact ⟨j, by omega, t, hs, ht, by omega⟩

lemma Ends.stops (h : Ends d s) : Stops s := by
  obtain ⟨j, -, t, rfl, -⟩ := h
  exact stops_cons (by decide)

lemma ends_lineText (ht : Begins (4 * d) t) : Ends d (lineText (4 * d) t) := ⟨d, le_rfl, t, rfl, ht⟩

/-- Statements of the depth may stand in between. -/
lemma Follows.append (h : Follows d t) (ss : List Statement) : Follows d (follow d ss ++ t) := by
  induction ss with
  | nil => exact h
  | cons s ss ih =>
    have hstops := ih.ends.stops
    obtain ⟨w, hw, hword⟩ := s.wordAt_core (d := d) hstops
    have hclause : ∀ w ∈ openingWords, w ∉ clauseWords := by decide
    rw [follow, List.append_assoc, lineText_append]
    refine ⟨d, le_rfl, _, rfl, .inl (s.solid_core hstops), fun _ v hv => ?_⟩
    rw [hword] at hv
    obtain rfl := Option.some.inj hv
    exact hclause w hw

/-- The line of a handler ends the block in front of it. -/
lemma Handler.solid_chars (handler : Handler) (t : List Char) : Solid (handler.chars ++ t) := by
  have hword : isWord handler.word.toList = true := by
    cases handler with
    | except => exact (show isWord "except".toList = true by decide)
    | cleanup => exact (show isWord "finally".toList = true by decide)
  rw [chars, List.append_assoc]
  exact solid_word hword

/-! ### The blocks around a statement -/

def openBlocks : ℕ → List ℕ
  | 0 => []
  | d + 1 => 4 * (d + 1) :: openBlocks d

lemma headD_openBlocks : (openBlocks d).headD 0 = 4 * d := by cases d <;> rfl

end ImportAtlas.Program
