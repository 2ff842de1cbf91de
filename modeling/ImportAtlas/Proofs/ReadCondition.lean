import ImportAtlas.Proofs.ReadName

/-!
A name read back as an expression: no sign stands in front of it, nothing is attached to it and
no operator goes on with it.
-/

namespace ImportAtlas.Program

open ImportAtlas.Text ImportAtlas.Source ImportAtlas.Source.Reader ImportAtlas.Source.Expression

variable {nested : Nested} {operand : Context → Reader Tree} {ctx : Context} {x : Identifier}
variable {s : List Char} {bs : List ℕ}

def colonLine (s : List Char) : List Char := ':' :: '\n' :: s

lemma symbolAt_colonLine : symbolAt (colonLine s) = some ":" := rfl

lemma wordAt_colonLine : wordAt (colonLine s) = none := wordAt_cons (by decide)

lemma stops_colonLine : Stops (colonLine s) := stops_cons (by decide)

lemma solid_colonLine : Solid (colonLine s) := solid_cons (by decide)

/-! ### Operands -/

lemma yields_wordOperand (hs : Stops s) :
    wordOperand.Yields ⟨x.chars ++ s, bs⟩ x.IsToken ⟨s, bs⟩ := by
  have hconstant : ¬x.text ∈ constants := by
    simp only [constants, List.mem_cons, List.not_mem_nil, or_false, not_or]
    exact ⟨x.text_ne (by decide), x.text_ne (by decide), x.text_ne (by decide)⟩
  unfold wordOperand
  simp only [yields_look, x.wordAt_chars hs, List.contains_iff_mem, hconstant, if_false]
  exact x.yields_name hs

/-- No string begins with the letters of an identifier in front of a colon. -/
lemma quoteAt_identifier : quoteAt (x.chars ++ colonLine s) = none := by
  have hword : x.chars.all isNameContinue = true := by
    rw [List.all_eq_true]
    intro c hc
    rcases List.mem_cons.mp hc with rfl | hc
    · exact isNameContinue_of_isOther (isOther_of_isFirst x.isFirst_first)
    · exact isNameContinue_of_isOther (List.all_eq_true.mp x.isOther_others c hc)
  exact quoteFrom_word hword fun _ _ _ _ => rfl

lemma numberAt_identifier : numberAt (x.chars ++ s) = none :=
  numberAt_cons (isNameStart_of_isWord x.isWord_chars)

lemma yields_atom :
    (atom nested ctx operand).Yields ⟨x.chars ++ colonLine s, bs⟩ x.IsToken
      ⟨colonLine s, bs⟩ := by
  unfold atom
  simp only [yields_look, id, quoteAt_identifier, numberAt_identifier,
    x.wordAt_chars stops_colonLine, Option.isSome_none, Option.isSome_some, Bool.false_eq_true,
    if_false, if_true]
  exact yields_wordOperand stops_colonLine

lemma yields_trailerStep_colon {object : Tree} :
    (trailerStep nested ctx operand object).Yields ⟨colonLine s, bs⟩ (· = none)
      ⟨colonLine s, bs⟩ := by
  unfold trailerStep
  refine (yields_next_solid solid_colonLine).then ?_
  simp only [yields_look, symbolAt_colonLine]
  exact yields_pure rfl

lemma yields_attached (hrounds : 0 < nested.rounds) :
    (attached nested ctx operand).Yields ⟨x.chars ++ colonLine s, bs⟩ x.IsToken
      ⟨colonLine s, bs⟩ := by
  unfold attached
  exact yields_atom.bind fun t ht => yields_iterate_none hrounds yields_trailerStep_colon ht

lemma yields_signStep :
    (signStep ctx ([], none)).Yields ⟨x.chars ++ colonLine s, bs⟩ (· = none)
      ⟨x.chars ++ colonLine s, bs⟩ := by
  have hawait : x.text ≠ "await" := x.text_ne (by decide)
  unfold signStep
  simp only [yields_look, symbolAt_word x.isWord_chars, x.wordAt_chars stops_colonLine,
    Option.isSome_none, Option.some.injEq, hawait, decide_false, Bool.false_eq_true, if_false]
  exact yields_pure rfl

lemma yields_signedWith (hrounds : 0 < nested.rounds) :
    (signedWith nested operand ctx).Yields ⟨x.chars ++ colonLine s, bs⟩ x.IsToken
      ⟨colonLine s, bs⟩ := by
  unfold signedWith
  refine (yields_iterate_none (P := (· = ([], none))) hrounds yields_signStep rfl).then ?_
  simp only [yields_look, symbolAt_word x.isWord_chars, reduceCtorEq, decide_false,
    Bool.false_eq_true, if_false]
  exact (yields_attached hrounds).bind fun t ht => yields_pure ht

lemma yields_operand (hrounds : 0 < nested.rounds) :
    (Expression.operand nested ctx).Yields ⟨x.chars ++ colonLine s, bs⟩ x.IsToken
      ⟨colonLine s, bs⟩ := by
  unfold Expression.operand
  obtain ⟨n, hn⟩ := Nat.exists_eq_add_one_of_ne_zero hrounds.ne'
  rw [hn, signed]
  exact yields_signedWith hrounds

/-! ### Operators -/

lemma yields_operationStep_colon {done : List Tree} :
    (operationStep nested ctx done).Yields ⟨colonLine s, bs⟩ (· = none) ⟨colonLine s, bs⟩ := by
  have hcolon : ¬":" ∈ binaryOperators := by decide
  unfold operationStep
  refine (yields_next_solid solid_colonLine).then ?_
  simp only [yields_look, symbolAt_colonLine, List.contains_iff_mem, hcolon, if_false]
  exact yields_pure rfl

lemma yields_operation (hrounds : 0 < nested.rounds) :
    (operation nested ctx).Yields ⟨x.chars ++ colonLine s, bs⟩ x.IsToken
      ⟨colonLine s, bs⟩ := by
  unfold operation
  refine (yields_operand hrounds).bind fun t ht => ?_
  refine (yields_iterate_none (P := (· = [t])) hrounds yields_operationStep_colon rfl).then ?_
  exact yields_pure ht

lemma yields_term (hrounds : 0 < nested.rounds) :
    (term nested ctx).Yields ⟨x.chars ++ colonLine s, bs⟩ x.IsToken
      ⟨colonLine s, bs⟩ := by
  unfold term
  simp only [yields_look, x.wordAt_chars stops_colonLine]
  split
  · rename_i h
    exact absurd (Option.some.inj h) (x.text_ne (by decide))
  · rename_i h
    exact absurd (Option.some.inj h) (x.text_ne (by decide))
  · refine (yields_operation hrounds).bind ?_
    rintro _ ⟨p, rfl⟩
    simp only [Tree.isName, beq_self_eq_true, if_true]
    refine (yields_next_solid solid_colonLine).then ?_
    simp only [yields_look, symbolAt_colonLine, Option.some.injEq, String.reduceEq, decide_false,
      Bool.false_eq_true, if_false]
    exact yields_pure ⟨p, rfl⟩

lemma yields_termStep_colon {done : List Tree} :
    (termStep nested ctx done).Yields ⟨colonLine s, bs⟩ (· = none) ⟨colonLine s, bs⟩ := by
  unfold termStep
  refine (yields_next_solid solid_colonLine).then ?_
  simp only [yields_look, wordAt_colonLine]
  exact yields_pure rfl

/-- A name in front of the colon of a line is an expression. -/
lemma yields_condition {n : ℕ} :
    (expression (n + 2) ctx).Yields ⟨x.chars ++ colonLine s, bs⟩ x.IsToken
      ⟨colonLine s, bs⟩ := by
  rw [expression]
  unfold whole
  refine (yields_term n.succ_pos).bind fun t ht => ?_
  refine (yields_iterate_none (P := (· = [t])) n.succ_pos yields_termStep_colon rfl).then ?_
  exact yields_pure ht

end ImportAtlas.Program
