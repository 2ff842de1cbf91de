import ImportAtlas.Proofs.ProgramLines
import ImportAtlas.Proofs.ReadCondition

/-!
Blocks read back: their heads, and the clauses that may go on with them.

What is written in a block does not matter here. It is enough that the suite behind the colon is
read and which imports are found in it.
-/

namespace ImportAtlas.Program

open ImportAtlas.Text ImportAtlas.Source ImportAtlas.Source.Reader ImportStatement

/-! ### Imports in trees -/

def importsOf (ts : List Tree) : List ImportStatement := ts.flatMap Tree.importStatements

section

variable {t : Tree} {ts us : List Tree} {k : NodeKind} {p : Position}

@[simp] lemma importsOf_nil : importsOf [] = [] := rfl

@[simp] lemma importsOf_cons : importsOf (t :: ts) = t.importStatements ++ importsOf ts := rfl

@[simp] lemma importsOf_append : importsOf (ts ++ us) = importsOf ts ++ importsOf us :=
  List.flatMap_append

@[simp] lemma importStatements_token {u : Token} :
    (Source.Tree.token u).importStatements = [] := rfl

@[simp]
lemma importStatements_node (himport : k ≠ .importStatement) (hfrom : k ≠ .fromImport)
    (hfuture : k ≠ .futureImport) : (Source.Tree.node k p ts).importStatements = importsOf ts := by
  have hnone : ofTree? (.node k p ts) = none := by cases k <;> simp_all [ofTree?]
  rw [Tree.importStatements, Tree.preorder, List.filterMap_cons_none hnone, Tree.preorderAll_eq,
    List.filterMap_flatMap]
  rfl

end

variable {nested : Nested} {statements : Bool → Reader (List Tree)} {inBlock : Bool}
variable {x : Identifier} {s : List Char} {bs : List ℕ} {c : Place} {is : List ImportStatement}

/-! ### Clauses that do not follow -/

lemma yields_clauseWord {e : Expect} {a : Place} (h : (next e).Yields a (· = .lexeme) ⟨s, bs⟩) :
    (Statement.clauseWord? e).Yields a (· = wordAt s) a := by
  unfold Statement.clauseWord?
  refine Yields.peek (b := ⟨s, bs⟩) (h.then ?_)
  exact yields_looked rfl

lemma yields_clauseWord_mark {e : Expect} {a b : Place} {m : Mark}
    (h : (next e).Yields a (· = .mark m) b) : (Statement.clauseWord? e).Yields a (· = none) a := by
  unfold Statement.clauseWord?
  refine Yields.peek (b := b) (h.then ?_)
  exact yields_pure rfl

/-- No clause goes on with the statement. -/
def NoClause (inBlock : Bool) (c : Place) : Prop :=
  ∀ except, (Statement.clauseWord? { Statement.start inBlock with except := except }).Yields c
    (fun w => ∀ v ∈ w, v ∉ clauseWords) c

lemma ne_of_noClause {w : Option String} {text : String} (hw : ∀ v ∈ w, v ∉ clauseWords)
    (htext : text ∈ clauseWords) : w ≠ some text := by
  rintro rfl
  exact hw text rfl htext

lemma yields_optionalClause_none {kind : NodeKind} {text : String} (h : NoClause inBlock c)
    (htext : text ∈ clauseWords) :
    (Statement.optionalClause nested statements kind text inBlock).Yields c (· = []) c := by
  unfold Statement.optionalClause
  refine (h false).bind fun w hw => ?_
  rw [if_neg (by simpa using ne_of_noClause hw htext)]
  exact yields_pure rfl

lemma yields_elifStep_none {done : List Tree} (h : NoClause inBlock c) :
    (Statement.elifStep nested statements inBlock done).Yields c (· = none) c := by
  unfold Statement.elifStep
  refine (h false).bind fun w hw => ?_
  rw [if_neg (by simpa using ne_of_noClause hw (by decide))]
  exact yields_pure rfl

lemma yields_exceptStep_none {done : List Tree} (h : NoClause inBlock c) :
    (Statement.exceptStep nested statements false inBlock done).Yields c (· = none) c := by
  unfold Statement.exceptStep
  refine (h true).bind fun w hw => ?_
  rw [if_neg (by simpa using ne_of_noClause hw (by decide))]
  exact yields_pure rfl

/-! ### Definitions without types -/

lemma yields_typeParameters_none (hs : Solid s) (h : symbolAt s ≠ some "[") :
    (Statement.typeParameters nested).Yields ⟨s, bs⟩ (· = []) ⟨s, bs⟩ := by
  unfold Statement.typeParameters
  refine (yields_next_solid hs).lexeme.then ?_
  simp only [yields_look, h, decide_false, Bool.false_eq_true, if_false]
  exact yields_pure rfl

lemma yields_parameters_none :
    (Statement.parameters nested).Yields ⟨'(' :: ')' :: s, bs⟩ (fun t => t.importStatements = [])
      ⟨s, bs⟩ := by
  have hclose : symbolAt (')' :: s) = some ")" := rfl
  unfold Statement.parameters
  refine (yields_nextSymbol (yields_next_solid (solid_cons (by decide)))
    (yields_mark (by decide) rfl)).bind ?_
  rintro _ ⟨p, rfl⟩
  refine (yields_next_solid (solid_cons (by decide))).lexeme.then ?_
  simp only [yields_look, hclose, decide_true, if_true]
  refine (yields_mark (by decide) hclose).bind ?_
  rintro _ ⟨q, rfl⟩
  exact yields_pure (by simp)

/-! ### Heads -/

/-- Expressions are read that are names in front of a colon. -/
def ReadsConditions (nested : Nested) : Prop :=
  ∀ x s bs, (nested.expression {}).Yields ⟨Identifier.chars x ++ colonLine s, bs⟩ x.IsToken
    ⟨colonLine s, bs⟩

variable (hrounds : 0 < nested.rounds) (hconditions : ReadsConditions nested)
variable (hclause : NoClause inBlock c)
variable (hsuite : (Statement.suite nested statements).Yields ⟨'\n' :: s, bs⟩
  (fun t => t.importStatements = is) c)

include hsuite

lemma yields_body :
    (Statement.body nested statements).Yields ⟨colonLine s, bs⟩
      (fun ts => importsOf ts = is) c := by
  unfold Statement.body
  refine (yields_nextSymbol (yields_next_solid solid_colonLine)
    (yields_mark (by decide) symbolAt_colonLine)).bind ?_
  rintro _ ⟨p, rfl⟩
  refine hsuite.bind fun t ht => yields_pure ?_
  simp [ht]

include hconditions

lemma yields_conditional {kind : NodeKind} {text : String} (hword : isWord text.toList = true) :
    (Statement.conditional nested statements kind text).Yields
      ⟨text.toList ++ ' ' :: (x.chars ++ colonLine s), bs⟩
      (fun t => ∃ p ts, t = .node kind p ts ∧ importsOf ts = is) c := by
  unfold Statement.conditional
  refine (yields_keyword_space hword).bind ?_
  rintro _ ⟨p, rfl⟩
  refine (yields_next_space (solid_word x.isWord_chars)).lexeme.then ?_
  refine (hconditions x s bs).bind ?_
  rintro _ ⟨q, rfl⟩
  refine (yields_body hsuite).bind fun ts hts => yields_pure ⟨_, _, rfl, ?_⟩
  simpa using hts

include hrounds hclause

lemma yields_ifStatement :
    (Statement.ifStatement nested statements inBlock).Yields
      ⟨"if".toList ++ ' ' :: (x.chars ++ colonLine s), bs⟩
      (fun t => t.importStatements = is) c := by
  unfold Statement.ifStatement
  refine (yields_conditional hconditions hsuite (by decide)).bind ?_
  rintro _ ⟨p, ts, rfl, hts⟩
  refine (yields_iterate_none (P := (· = [_])) hrounds (yields_elifStep_none hclause) rfl).then ?_
  refine (yields_optionalClause_none hclause (by decide)).then (yields_pure ?_)
  simp [hts]

omit hrounds in
lemma yields_whileStatement :
    (Statement.whileStatement nested statements inBlock).Yields
      ⟨"while".toList ++ ' ' :: (x.chars ++ colonLine s), bs⟩ (fun t => t.importStatements = is)
      c := by
  unfold Statement.whileStatement
  refine (yields_conditional hconditions hsuite (by decide)).bind ?_
  rintro _ ⟨p, ts, rfl, hts⟩
  refine (yields_optionalClause_none hclause (by decide)).then (yields_pure ?_)
  simp [Tree.children, hts]

omit hrounds hconditions hclause

lemma yields_functionDefinition :
    (Statement.functionDefinition nested statements []).Yields
      ⟨"def".toList ++ ' ' :: (x.chars ++ '(' :: ')' :: colonLine s), bs⟩
      (fun t => t.importStatements = is) c := by
  unfold Statement.functionDefinition
  refine (yields_keyword_space (by decide)).bind ?_
  rintro _ ⟨p, rfl⟩
  refine (x.yields_nextName (stops_cons (by decide))).bind ?_
  rintro _ ⟨q, rfl⟩
  have hopen : symbolAt ('(' :: ')' :: colonLine s) ≠ some "[" := show some "(" ≠ _ by decide
  refine (yields_typeParameters_none (solid_cons (by decide)) hopen).then ?_
  refine yields_parameters_none.bind fun ps hps => ?_
  refine (yields_next_solid solid_colonLine).lexeme.then ?_
  simp only [yields_look, symbolAt_colonLine, Option.some.injEq, String.reduceEq, decide_false,
    Bool.false_eq_true, if_false, pure_bind]
  refine (yields_body hsuite).bind fun ts hts => yields_pure ?_
  simp [phrase, hps, hts]

lemma yields_classDefinition :
    (Statement.classDefinition nested statements).Yields
      ⟨"class".toList ++ ' ' :: (x.chars ++ colonLine s), bs⟩
      (fun t => t.importStatements = is) c := by
  unfold Statement.classDefinition
  refine (yields_keyword_space (by decide)).bind ?_
  rintro _ ⟨p, rfl⟩
  refine (x.yields_nextName stops_colonLine).bind ?_
  rintro _ ⟨q, rfl⟩
  have hcolon : symbolAt (colonLine s) ≠ some "[" := show some ":" ≠ _ by decide
  refine (yields_typeParameters_none solid_colonLine hcolon).then ?_
  refine (yields_next_solid solid_colonLine).lexeme.then ?_
  simp only [yields_look, symbolAt_colonLine, Option.some.injEq, String.reduceEq, decide_false,
    Bool.false_eq_true, if_false, pure_bind, List.any_nil]
  refine (yields_body hsuite).bind fun ts hts => yields_pure ?_
  simp [hts]

/-! ### Handlers -/

include hconditions in
lemma yields_exceptClause :
    (Statement.exceptClause nested statements).Yields
      ⟨"except".toList ++ ' ' :: (x.chars ++ colonLine s), bs⟩
      (fun t => t.importStatements = is) c := by
  unfold Statement.exceptClause
  refine (yields_keyword_space (by decide)).bind ?_
  rintro _ ⟨p, rfl⟩
  refine (yields_next_space (solid_word x.isWord_chars)).lexeme.then ?_
  simp only [yields_look, symbolAt_word x.isWord_chars, reduceCtorEq, decide_false,
    Bool.false_eq_true, if_false]
  refine (hconditions x s bs).bind ?_
  rintro _ ⟨q, rfl⟩
  refine (yields_next_solid solid_colonLine).lexeme.then ?_
  simp only [yields_look, symbolAt_colonLine, Option.some.injEq, String.reduceEq, decide_false,
    Bool.false_eq_true, if_false, pure_bind]
  refine (yields_body hsuite).bind fun ts hts => yields_pure ?_
  simp [hts]

omit hsuite in
lemma yields_atExceptGroup :
    Statement.atExceptGroup.Yields ⟨"except".toList ++ ' ' :: s, bs⟩ (· = false)
      ⟨"except".toList ++ ' ' :: s, bs⟩ := by
  have hstar : (("except".toList ++ ' ' :: s).drop 6).head? = some ' ' := rfl
  unfold Statement.atExceptGroup
  simp only [yields_look, id, hstar]
  exact yields_pure (by simp)

/-- A clause that follows where it may. -/
lemma yields_optionalClause {kind : NodeKind} {text : String} (hword : isWord text.toList = true)
    (himport : kind ≠ .importStatement) (hfrom : kind ≠ .fromImport)
    (hfuture : kind ≠ .futureImport) :
    (Statement.optionalClause nested statements kind text inBlock).Yields
      ⟨text.toList ++ colonLine s, bs⟩ (fun ts => importsOf ts = is) c := by
  have hat : wordAt (text.toList ++ colonLine s) = some text := wordAt_text hword stops_colonLine
  unfold Statement.optionalClause
  refine (yields_clauseWord (yields_next_solid (solid_word hword))).then ?_
  rw [hat, if_pos (by simp)]
  refine (yields_nextKeyword (yields_next_solid (solid_word hword)) (yields_keyword hat)).bind ?_
  rintro _ ⟨p, rfl⟩
  refine (yields_body hsuite).bind fun ts hts => yields_pure ?_
  simp [himport, hfrom, hfuture, hts]

/-! ### `try` -/

variable {handler : Handler} {t : List Char} {n : ℕ} {js : List ImportStatement}

omit hsuite in
include hconditions hrounds hclause in
/-- The suite of a `try` is followed by a clause with another suite. -/
lemma yields_tryStatement (hn : bs.headD 0 ≤ n)
    (hfirst : (Statement.suite nested statements).Yields ⟨'\n' :: s, bs⟩
      (fun t => t.importStatements = is) ⟨lineText n (handler.chars ++ colonLine t), bs⟩)
    (hsecond : (Statement.suite nested statements).Yields ⟨'\n' :: t, bs⟩
      (fun t => t.importStatements = js) c) :
    (Statement.tryStatement nested statements inBlock).Yields ⟨"try".toList ++ colonLine s, bs⟩
      (fun t => t.importStatements = is ++ js) c := by
  unfold Statement.tryStatement
  refine (yields_keyword (wordAt_text (by decide) stops_colonLine)).bind ?_
  rintro _ ⟨p, rfl⟩
  refine (yields_body hfirst).bind fun block hblock => ?_
  refine (yields_next_line (.inl (handler.solid_chars _)) rfl rfl hn).lexeme.then ?_
  cases handler with
  | except e =>
    have hword : wordAt ("except".toList ++ ' ' :: (e.chars ++ colonLine t)) = some "except" :=
      wordAt_text (by decide) (stops_cons (by decide))
    simp only [Handler.chars, Handler.word, Handler.argument, List.append_assoc, List.cons_append]
    simp only [yields_look, hword, Option.some.injEq, String.reduceEq, decide_false,
      Bool.false_eq_true, if_false]
    refine yields_atExceptGroup.then ?_
    simp only [Bool.false_eq_true, if_false]
    refine (yields_exceptClause hconditions hsecond).bind fun first hfirst => ?_
    -- one clause is enough: what follows it is no further one, no `else` and no `finally`
    refine (yields_iterate_none (P := (· = [first])) hrounds (yields_exceptStep_none hclause)
      rfl).then ?_
    refine (yields_optionalClause_none hclause (by decide)).then ?_
    simp only [pure_bind]
    refine (yields_optionalClause_none hclause (by decide)).then (yields_pure ?_)
    simp [hblock, hfirst]
  | cleanup =>
    have hword : wordAt ("finally".toList ++ colonLine t) = some "finally" :=
      wordAt_text (by decide) stops_colonLine
    simp only [Handler.chars, Handler.word, Handler.argument, List.append_nil]
    simp only [yields_look, hword, decide_true, if_true, pure_bind]
    refine (yields_optionalClause hsecond (by decide) (by decide) (by decide) (by decide)).bind
      fun last hlast => yields_pure ?_
    simp [hblock, hlast]

/-! ### Blocks by their heads -/

omit hsuite

omit hrounds hconditions hclause in
lemma yields_some {r : Reader Tree} {a : Place}
    (h : r.Yields a (fun t => t.importStatements = is) c) :
    (some <$> r).Yields a (fun u => ∃ t, u = some t ∧ t.importStatements = is) c := by
  rw [map_eq_pure_bind]
  exact h.bind fun t ht => yields_pure ⟨t, rfl, ht⟩

include hconditions hrounds hclause

lemma yields_compound_block (head : Head)
    (hsuite : (Statement.suite nested statements).Yields ⟨'\n' :: s, bs⟩
      (fun t => t.importStatements = is) c) :
    (Statement.compound? nested statements inBlock).Yields ⟨head.chars ++ colonLine s, bs⟩
      (fun u => ∃ t, u = some t ∧ t.importStatements = is) c := by
  -- the word in front tells which of the statements begins
  have hsymbol (u : List Char) : symbolAt (head.word.toList ++ u) = none :=
    symbolAt_word (isWord_of_opening head.word_mem)
  have hword (u : List Char) : wordAt (head.word.toList ++ ' ' :: u) = some head.word :=
    wordAt_text (isWord_of_opening head.word_mem) (stops_cons (by decide))
  rw [Head.chars, List.append_assoc, List.cons_append]
  unfold Statement.compound?
  simp only [yields_look, hsymbol, hword, reduceCtorEq, decide_false, Bool.false_eq_true, if_false,
    bind_pure_comp]
  cases head with
  | ifTest x => exact yields_some (yields_ifStatement hrounds hconditions hclause hsuite)
  | whileTest x => exact yields_some (yields_whileStatement hconditions hclause hsuite)
  | function f =>
    simp only [Head.argument, List.append_assoc, List.cons_append, List.nil_append]
    exact yields_some (yields_functionDefinition hsuite)
  | classBody e => exact yields_some (yields_classDefinition hsuite)

/-- `try`, a colon, a suite and a handler with another suite. -/
lemma yields_compound_try (hn : bs.headD 0 ≤ n)
    (hfirst : (Statement.suite nested statements).Yields ⟨'\n' :: s, bs⟩
      (fun t => t.importStatements = is) ⟨lineText n (handler.chars ++ colonLine t), bs⟩)
    (hsecond : (Statement.suite nested statements).Yields ⟨'\n' :: t, bs⟩
      (fun t => t.importStatements = js) c) :
    (Statement.compound? nested statements inBlock).Yields ⟨"try".toList ++ colonLine s, bs⟩
      (fun u => ∃ t, u = some t ∧ t.importStatements = is ++ js) c := by
  have hsymbol : symbolAt ("try".toList ++ colonLine s) = none := symbolAt_word (by decide)
  have hword : wordAt ("try".toList ++ colonLine s) = some "try" :=
    wordAt_text (by decide) stops_colonLine
  unfold Statement.compound?
  simp only [yields_look, hsymbol, hword, reduceCtorEq, decide_false, Bool.false_eq_true, if_false,
    bind_pure_comp]
  exact yields_some (yields_tryStatement hrounds hconditions hclause hn hfirst hsecond)

end ImportAtlas.Program
