import ImportAtlas.Proofs.TidyExpression

/-!
Whole files are tidy: patterns, types, statements and suites make import statements nowhere else
than in the readers of imports.
-/

namespace ImportAtlas.Source

open Std.Do Reader
open HasTidy (Tidy)

set_option mvcgen.warning false

section

open Statement

@[spec] lemma gives_atEnd : atEnd.Gives fun _ => True := gives_true _

@[spec] lemma gives_atChevron : atChevron.Gives fun _ => True := gives_true _

@[spec] lemma gives_asyncWord : asyncWord?.Gives fun _ => True := gives_true _

@[spec]
lemma gives_clauseWord (e : Expect) : (clauseWord? e).Gives fun _ => True := gives_true _

@[spec] lemma gives_atExceptGroup : atExceptGroup.Gives fun _ => True := gives_true _

end



/-! ### Patterns -/

/-- The patterns within brackets are tidy, or the suites within statements. -/
def TidyInner {α : Type} [HasTidy α] (inner : Bool → Reader α) : Prop := ∀ b, (inner b).Tidies

lemma TidyInner.inner {α : Type} [HasTidy α] {inner : Bool → Reader α} (h : TidyInner inner)
    (b : Bool) : (inner b).Tidies := h b

variable [ImportProperty] {nested : Nested} (hn : nested.Tidies)

namespace CasePattern

variable {pattern : Bool → Reader Tree} (hp : TidyInner pattern)

@[simp]
lemma tidyStep_dottedStep (e : Expect) : TidyStep (dottedStep e) := by
  intro done hdone
  mvcgen [dottedStep] <;> simp_all

@[simp]
lemma tidyStep_partStep {closing : String} {part : Reader Tree} (h : part.Tidies) :
    TidyStep (partStep closing part) := by
  intro done hdone
  mvcgen [partStep, h] <;> simp_all

@[spec]
lemma tidies_bracketed {opening closing : String} {part : Reader Tree}
    (h : part.Tidies) : (bracketed nested opening closing part).Tidies := by
  mvcgen [bracketed, h] <;> simp_all

@[spec]
lemma tidies_numeric (inner : Bool) : (numeric inner).Tidies := by
  mvcgen [numeric] <;> simp_all

@[spec]
lemma tidies_rest : (CasePattern.rest).Tidies := by
  mvcgen [rest] <;> simp_all

include hp in
@[spec]
lemma tidies_named (inner : Bool) : (named nested pattern inner).Tidies := by
  have h := hp.inner true
  mvcgen [named, h] <;> simp_all

include hn

include hp in
@[spec]
lemma tidies_single {union : Bool → Reader Tree} (hu : TidyInner union)
    (inner : Bool) : (single nested pattern union inner).Tidies := by
  have hkey := hu.inner false
  have h := hp.inner true
  mvcgen [single, hkey, h] <;> simp_all

omit hn in
@[simp]
lemma tidyStep_unionStep {part : Bool → Reader Tree} (h : TidyInner part) (inner : Bool) :
    TidyStep (unionStep part inner) := by
  intro done hdone
  have hpart := h.inner inner
  mvcgen [unionStep, hpart] <;> simp_all

include hp in
@[simp]
lemma tidyInner_union (n : ℕ) : TidyInner (union nested pattern n) := by
  induction n with
  | zero =>
    intro inner
    mvcgen [union]
  | succ n ih =>
    intro inner
    have h : TidyInner (single nested pattern (union nested pattern n)) :=
      tidies_single hn hp ih
    have hfirst := h.inner inner
    mvcgen [union, hfirst] <;> simp_all +zetaDelta

include hp in
@[spec]
lemma tidies_union (n : ℕ) (inner : Bool) : (union nested pattern n inner).Tidies :=
  tidyInner_union hn hp n inner

omit hn in
@[simp]
lemma tidyStep_asStep (inner : Bool) : TidyStep (asStep inner) := by
  intro done hdone
  mvcgen [asStep] <;> simp_all

include hp in
@[spec]
lemma tidies_whole (inner : Bool) : (whole nested pattern inner).Tidies := by
  mvcgen [whole] <;> simp_all

end CasePattern

include hn

@[simp]
lemma tidyInner_casePattern (n : ℕ) : TidyInner (casePattern nested n) := by
  induction n with
  | zero =>
    intro inner
    mvcgen [casePattern]
  | succ n ih => exact CasePattern.tidies_whole hn ih

@[spec]
lemma tidies_casePattern (n : ℕ) (inner : Bool) : (casePattern nested n inner).Tidies :=
  tidyInner_casePattern hn n inner

/-! ### Statements -/

namespace Statement

section Types

variable {type : Context → Reader Tree} (ht : TidyOperand type)

omit hn

include ht

@[simp]
lemma tidyStep_typeStep : TidyStep (typeStep type) := by
  intro done hdone
  have h := ht.operand .bracketed
  mvcgen [typeStep, h] <;> simp_all

@[spec]
lemma tidies_typeList : (typeList nested type).Tidies := by
  have h := ht.operand .bracketed
  mvcgen [typeList, h] <;> simp_all

include hn

@[spec]
lemma tidies_typeBase (ctx : Context) : (typeBase nested type ctx).Tidies := by
  mvcgen [typeBase] <;> simp_all

@[simp]
lemma tidyStep_typeTail (bounds : Bool) (ctx : Context) :
    TidyStep (typeTail nested type bounds ctx) := by
  intro done hdone
  mvcgen [typeTail] <;> simp_all

@[spec]
lemma tidies_typeWith (bounds : Bool) (ctx : Context) :
    (typeWith nested type bounds ctx).Tidies := by
  mvcgen [typeWith] <;> simp_all

end Types

@[simp]
lemma tidyOperand_typeNested (n : ℕ) : TidyOperand (typeNested nested n) := by
  induction n with
  | zero =>
    intro ctx
    mvcgen [typeNested]
  | succ n ih => exact fun ctx => tidies_typeWith hn ih true ctx

@[simp]
lemma tidyOperand_type (bounds : Bool) : TidyOperand (type nested bounds) :=
  fun ctx => tidies_typeWith hn (tidyOperand_typeNested hn _) bounds ctx

@[spec]
lemma tidies_type (bounds : Bool) (ctx : Context) : (type nested bounds ctx).Tidies :=
  tidyOperand_type hn bounds ctx

@[spec]
lemma tidies_side : (side nested).Tidies := by
  mvcgen [side]
  simp_all

@[simp]
lemma tidyStep_assignStep : TidyStep (assignStep nested) := by
  rintro ⟨kind, done, assignable⟩ hdone
  mvcgen [assignStep] <;> simp_all +zetaDelta

@[spec]
lemma tidies_expressionStatement : (expressionStatement nested).Tidies := by
  mvcgen [expressionStatement] <;> simp_all

@[spec]
lemma tidies_expressionToEnd : (expressionToEnd nested).Tidies := by
  mvcgen [expressionToEnd]

@[spec]
lemma tidies_printStatement : (printStatement nested).Tidies := by
  mvcgen [printStatement] <;> simp_all

@[simp]
lemma tidyStep_commaStep : TidyStep (commaStep nested) := by
  intro done hdone
  mvcgen [commaStep] <;> simp_all

@[spec]
lemma tidies_separated : (separated nested).Tidies := by
  mvcgen [separated] <;> simp_all

@[spec]
lemma tidies_execStatement : (execStatement nested).Tidies := by
  mvcgen [execStatement] <;> simp_all

@[spec]
lemma tidies_typeAlias : (typeAlias nested).Tidies := by
  mvcgen [typeAlias]
  simp_all

@[spec]
lemma tidies_returnStatement : (returnStatement nested).Tidies := by
  mvcgen [returnStatement] <;> simp_all

@[spec]
lemma tidies_raiseStatement : (raiseStatement nested).Tidies := by
  mvcgen [raiseStatement] <;> simp_all

omit hn in
@[simp]
lemma tidyStep_namesStep : TidyStep (namesStep) := by
  intro done hdone
  mvcgen [namesStep] <;> simp_all

omit hn in
@[spec]
lemma tidies_scopeStatement {kind : NodeKind} (hkind : ¬kind.IsImport) (text : String) :
    (scopeStatement nested kind text).Tidies := by
  mvcgen [scopeStatement] <;> simp_all

omit hn in
@[spec]
lemma tidies_wordStatement {kind : NodeKind} (hkind : ¬kind.IsImport) (text : String) :
    (wordStatement kind text).Tidies := by
  mvcgen [wordStatement]
  simp_all

omit hn in
@[spec]
lemma tidies_importStatement : (importStatement nested).Tidies :=
  gives_mono (gives_and (ImportProperty.importStatement nested) (Tree.gives_importStatement nested))
    fun _ h => .import h.1 h.2

omit hn in
@[spec]
lemma tidies_fromImport : (fromImport nested).Tidies :=
  gives_mono (gives_and (ImportProperty.fromImport nested) (Tree.gives_fromImport nested))
    fun _ h => .import h.1 h.2

@[spec]
lemma tidies_simple : (simple nested).Tidies := by
  mvcgen [simple] <;> simp_all

@[simp]
lemma tidyStep_lineStep : TidyStep (lineStep nested) := by
  rintro ⟨done, ended⟩ hdone
  mvcgen [lineStep] <;> simp_all

@[spec]
lemma tidies_line : (line nested).Tidies := by
  mvcgen [line] <;> simp_all

/-! ### Suites -/

variable {statements : Bool → Reader (List Tree)} (hs : TidyInner statements)

include hs

omit hn in
@[simp]
lemma tidyStep_blockStep : TidyStep (blockStep statements) := by
  rintro ⟨done, ended⟩ hdone
  have h := hs.inner true
  mvcgen [blockStep, h] <;> simp_all

@[spec]
lemma tidies_suite : (suite nested statements).Tidies := by
  mvcgen [suite] <;> simp_all

@[spec]
lemma tidies_body : (body nested statements).Tidies := by
  mvcgen [body]
  simp_all

@[spec]
lemma tidies_optionalClause {kind : NodeKind} (hkind : ¬kind.IsImport) (text : String)
    (inBlock : Bool) : (optionalClause nested statements kind text inBlock).Tidies := by
  mvcgen [optionalClause] <;> simp_all

@[spec]
lemma gives_conditional {kind : NodeKind} (hkind : ¬kind.IsImport) (text : String) :
    (conditional nested statements kind text).Gives fun t => Tidy t ∧ Tidy t.children := by
  mvcgen [conditional]
  simp_all [Tree.children]

@[simp]
lemma tidyStep_elifStep (inBlock : Bool) : TidyStep (elifStep nested statements inBlock) := by
  intro done hdone
  mvcgen [elifStep] <;> simp_all

@[spec]
lemma tidies_ifStatement (inBlock : Bool) : (ifStatement nested statements inBlock).Tidies := by
  mvcgen [ifStatement] <;> simp_all

@[spec]
lemma tidies_whileStatement (inBlock : Bool) :
    (whileStatement nested statements inBlock).Tidies := by
  mvcgen [whileStatement] <;> simp_all

@[spec]
lemma tidies_forStatement (inBlock : Bool) {async : List Tree} (h : Tidy async) :
    (forStatement nested statements inBlock async).Tidies := by
  mvcgen [forStatement] <;> simp_all +zetaDelta

@[spec]
lemma tidies_exceptClause : (exceptClause nested statements).Tidies := by
  mvcgen [exceptClause] <;> simp_all

@[spec]
lemma tidies_exceptGroupClause : (exceptGroupClause nested statements).Tidies := by
  mvcgen [exceptGroupClause]
  simp_all

@[simp]
lemma tidyStep_exceptStep (group inBlock : Bool) :
    TidyStep (exceptStep nested statements group inBlock) := by
  intro done hdone
  mvcgen [exceptStep] <;> simp_all

@[spec]
lemma tidies_tryStatement (inBlock : Bool) : (tryStatement nested statements inBlock).Tidies := by
  mvcgen [tryStatement] <;> simp_all

@[spec]
lemma tidies_withStatement {async : List Tree} (h : Tidy async) :
    (withStatement nested statements async).Tidies := by
  mvcgen [withStatement]
  simp_all +zetaDelta

omit hs

@[spec]
lemma tidies_parameterType : (parameterType nested).Tidies := by
  mvcgen [parameterType] <;> simp_all

@[spec]
lemma tidies_parameter : (parameter nested).Tidies := by
  mvcgen [parameter] <;> simp_all

@[simp]
lemma tidyStep_parameterStep : TidyStep (parameterStep nested) := by
  intro done hdone
  mvcgen [parameterStep] <;> simp_all

@[spec]
lemma tidies_parameters : (parameters nested).Tidies := by
  mvcgen [parameters] <;> simp_all

@[spec]
lemma tidies_typeParameters : (typeParameters nested).Tidies := by
  mvcgen [typeParameters] <;> simp_all

include hs

@[spec]
lemma tidies_functionDefinition {async : List Tree} (h : Tidy async) :
    (functionDefinition nested statements async).Tidies := by
  mvcgen [functionDefinition] <;> simp_all

@[spec]
lemma tidies_classDefinition : (classDefinition nested statements).Tidies := by
  mvcgen [classDefinition] <;> simp_all

@[spec]
lemma tidies_definition : (definition nested statements).Tidies := by
  mvcgen [definition] <;> simp_all

omit hs

@[spec]
lemma tidies_decorator : (decorator nested).Tidies := by
  mvcgen [decorator]
  simp_all

@[simp]
lemma tidyStep_decoratorStep : TidyStep (decoratorStep nested) := by
  intro done hdone
  mvcgen [decoratorStep] <;> simp_all

include hs

@[spec]
lemma tidies_decoratedDefinition : (decoratedDefinition nested statements).Tidies := by
  mvcgen [decoratedDefinition] <;> simp_all

omit hs in
@[simp]
lemma tidyStep_patternStep : TidyStep (patternStep nested) := by
  intro done hdone
  mvcgen [patternStep] <;> simp_all

@[spec]
lemma tidies_caseClause : (caseClause nested statements).Tidies := by
  mvcgen [caseClause] <;> simp_all

@[simp]
lemma tidyStep_caseStep : TidyStep (caseStep nested statements) := by
  rintro ⟨done, ended⟩ hdone
  mvcgen [caseStep] <;> simp_all

@[spec]
lemma tidies_matchStatement : (matchStatement nested statements).Tidies := by
  mvcgen [matchStatement] <;> simp_all

@[spec]
lemma tidies_compound_ (inBlock : Bool) : (compound? nested statements inBlock).Tidies := by
  mvcgen [compound?] <;> simp_all

@[spec]
lemma tidies_whole (inBlock : Bool) : (whole nested statements inBlock).Tidies := by
  mvcgen [whole] <;> simp_all

end Statement

/-- Statements nested to any depth are tidy. -/
@[simp]
lemma tidyInner_statements (n : ℕ) : TidyInner (statements nested n) := by
  induction n with
  | zero =>
    intro inBlock
    mvcgen [statements]
  | succ n ih => exact Statement.tidies_whole hn ih

@[spec]
lemma tidies_statements (n : ℕ) (inBlock : Bool) : (statements nested n inBlock).Tidies :=
  tidyInner_statements hn n inBlock

@[simp]
lemma tidyStep_fileStep : TidyStep (fileStep nested) := by
  rintro ⟨done, ended⟩ hdone
  mvcgen [fileStep] <;> simp_all

omit hn in
lemma tidies_file (rounds : ℕ) : (file rounds).Tidies := by
  have hexpression := tidies_expression rounds
  mvcgen [file] <;> simp_all +zetaDelta

omit hn in
/-- The import statements of a source text have every property that imports have as they are
read. -/
theorem tidy_ofSource {source : String} {t : Tree} (h : Tree.ofSource source = .ok t) :
    Tidy t := by
  set c := Tree.skipMark (Cursor.ofString source) with hc
  have htidy := gives_iff.mp (tidies_file (c.rest.length + 2)) ⟨c, [], false⟩
  simp only [Tree.ofSource, ← hc, StateT.run] at h
  rcases hrun : file (c.rest.length + 2) ⟨c, [], false⟩ with e | ⟨u, s⟩
  · rw [hrun] at h
    cases h
  · rw [hrun] at h
    cases h
    exact htidy _ _ hrun

end ImportAtlas.Source
