import ImportAtlas.Proofs.TidyTree

/-!
Expressions are tidy: the readers of strings, operands and operators make no import statement.
-/

namespace ImportAtlas.Source

open Std.Do Reader
open HasTidy (Tidy)

set_option mvcgen.warning false

@[spec] lemma gives_skipSpace : skipSpace.Gives fun _ => True := gives_true _

@[spec] lemma gives_setFormat (b : Bool) : (setFormat b).Gives fun _ => True := gives_true _

@[spec] lemma gives_atString : atString.Gives fun _ => True := gives_true _

@[spec] lemma gives_atOperand : atOperand.Gives fun _ => True := gives_true _

@[spec] lemma gives_atClause : Expression.atClause.Gives fun _ => True := gives_true _

@[spec] lemma gives_atComprehension : Expression.atComprehension.Gives fun _ => True := gives_true _

variable [ImportProperty]

def Nested.Tidies (nested : Nested) : Prop := ∀ ctx, (nested.expression ctx).Tidies

def TidyOperand (operand : Context → Reader Tree) : Prop := ∀ ctx, (operand ctx).Tidies

lemma TidyOperand.operand {operand : Context → Reader Tree} (h : TidyOperand operand)
    (ctx : Context) : (operand ctx).Tidies := h ctx

@[spec]
lemma Nested.Tidies.expression {nested : Nested} (h : nested.Tidies) (ctx : Context) :
    (nested.expression ctx).Tidies := h ctx

/-! ### Strings and numbers -/

lemma tidyStep_stringPiece {q : Quote} {interpolation : Reader Tree} (h : interpolation.Tidies) :
    TidyStep (stringPiece q interpolation) := by
  rintro ⟨done, closed⟩ hdone
  mvcgen [stringPiece, h] <;> simp_all

@[spec]
lemma tidies_string {n : ℕ} {interpolation : Reader Tree} (h : interpolation.Tidies) :
    (string n interpolation).Tidies := by
  mvcgen [string]
  all_goals simp_all [tidyStep_stringPiece h]

@[spec]
lemma tidies_number : number.Tidies := by
  mvcgen [number]

namespace Expression

variable {nested : Nested} (hn : nested.Tidies)
variable {operand : Context → Reader Tree} (ho : TidyOperand operand)

@[spec]
lemma tidies_conversion : conversion.Tidies := by
  mvcgen [conversion] <;> simp_all

@[simp]
lemma tidyStep_formatStep {interpolation : Reader Tree} (h : interpolation.Tidies) :
    TidyStep (formatStep interpolation) := by
  intro done hdone
  mvcgen [formatStep, h] <;> simp_all

@[spec]
lemma tidies_wordOperand : wordOperand.Tidies := by
  mvcgen [wordOperand]

include ho in
@[spec]
lemma tidies_target : (target operand).Tidies := by
  have h := ho {}
  mvcgen [target, h]

include ho in
@[simp]
lemma tidyStep_targetStep : TidyStep (targetStep operand) := by
  intro done hdone
  mvcgen [targetStep] <;> simp_all

include ho in
@[spec]
lemma tidies_targets : (targets nested operand).Tidies := by
  mvcgen [targets] <;> simp_all

include hn

@[simp]
lemma tidyStep_listStep (ctx : Context) (stops : List String) :
    TidyStep (listStep nested ctx stops) := by
  intro done hdone
  mvcgen [listStep] <;> simp_all

@[spec]
lemma tidies_many (ctx : Context) (stops : List String) : (many nested ctx stops).Tidies := by
  mvcgen [many] <;> simp_all

@[spec]
lemma tidies_yield (ctx : Context) : (yield nested ctx).Tidies := by
  mvcgen [yield] <;> simp_all

@[spec]
lemma tidies_interpolation (n : ℕ) : (interpolation nested n).Tidies := by
  induction n with
  | zero => mvcgen [interpolation]
  | succ n ih => mvcgen [interpolation] <;> simp_all

@[spec]
lemma tidies_oneString : (oneString nested).Tidies := tidies_string (tidies_interpolation hn _)

@[spec]
lemma tidies_strings (ctx : Context) : (strings nested ctx).Tidies := by
  mvcgen [strings]
  · intro done hdone
    mvcgen <;> simp_all
  · simp_all
  · simp_all

@[spec]
lemma tidies_defaultValue (ctx : Context) : (defaultValue nested ctx).Tidies := by
  mvcgen [defaultValue] <;> simp_all

@[spec]
lemma tidies_starred (ctx : Context) : (starred nested ctx).Tidies := by
  mvcgen [starred]
  split <;> simp_all

@[spec]
lemma tidies_element (ctx : Context) : (element nested ctx).Tidies := by
  mvcgen [element] <;> simp_all

@[simp]
lemma tidyStep_elementStep (closing : String) : TidyStep (elementStep nested closing) := by
  intro done hdone
  mvcgen [elementStep] <;> simp_all

@[simp]
lemma tidyStep_iterableStep : TidyStep (iterableStep nested) := by
  intro done hdone
  mvcgen [iterableStep] <;> simp_all

include ho in
@[spec]
lemma tidies_clause : (clause nested operand).Tidies := by
  mvcgen [clause] <;> simp_all

include ho in
@[spec]
lemma tidies_clauses : (clauses nested operand).Tidies := by
  mvcgen [clauses]
  · intro done hdone
    mvcgen <;> simp_all
  · simp_all
  · simp_all

include ho in
@[spec]
lemma tidies_bracket {opening closing : String} {empty single several : NodeKind}
    (hempty : ¬empty.IsImport) (hsingle : ¬single.IsImport) (hseveral : ¬several.IsImport) :
    (bracket nested opening closing empty single several operand).Tidies := by
  mvcgen [bracket] <;> simp_all +zetaDelta
  split <;> simp_all

@[spec]
lemma tidies_pairFrom {key : Tree} (h : Tidy key) : (pairFrom nested key).Tidies := by
  mvcgen [pairFrom]
  simp_all

@[spec]
lemma tidies_entry : (entry nested).Tidies := by
  mvcgen [entry] <;> simp_all

@[simp]
lemma tidyStep_entryStep : TidyStep (entryStep nested) := by
  intro done hdone
  mvcgen [entryStep] <;> simp_all

@[spec]
lemma tidies_dictionaryFrom {openToken first : Tree} (h : Tidy openToken)
    (hfirst : Tidy first) : (dictionaryFrom nested openToken first).Tidies := by
  mvcgen [dictionaryFrom] <;> simp_all

include ho in
@[spec]
lemma tidies_brace : (brace nested operand).Tidies := by
  mvcgen [brace] <;> simp_all

@[spec]
lemma tidies_argument : (argument nested).Tidies := by
  mvcgen [argument] <;> simp_all

@[simp]
lemma tidyStep_argumentStep : TidyStep (argumentStep nested) := by
  intro done hdone
  mvcgen [argumentStep] <;> simp_all

include ho in
@[spec]
lemma tidies_arguments : (arguments nested operand).Tidies := by
  mvcgen [arguments] <;> simp_all

@[spec]
lemma tidies_slicePart {done : List Tree} (h : Tidy done) : (slicePart nested done).Tidies := by
  mvcgen [slicePart]
  simp_all

@[spec]
lemma tidies_index : (index nested).Tidies := by
  mvcgen [index] <;> simp_all

@[simp]
lemma tidyStep_indexStep : TidyStep (indexStep nested) := by
  intro done hdone
  mvcgen [indexStep] <;> simp_all

include ho in
@[simp]
lemma tidyStep_trailerStep (ctx : Context) : TidyStep (trailerStep nested ctx operand) := by
  intro object hobject
  mvcgen [trailerStep] <;> simp_all

include ho in
@[spec]
lemma tidies_atom (ctx : Context) : (atom nested ctx operand).Tidies := by
  mvcgen [atom] <;> simp_all

include ho in
@[spec]
lemma tidies_attached (ctx : Context) : (attached nested ctx operand).Tidies := by
  mvcgen [attached] <;> simp_all

include ho in
@[spec]
lemma tidies_splat (ctx : Context) : (splat nested ctx operand).Tidies := by
  mvcgen [splat]
  simp_all
  split <;> simp_all

omit hn in
@[simp]
lemma tidyStep_signStep (ctx : Context) : TidyStep (signStep ctx) := by
  rintro ⟨done, found⟩ hdone
  mvcgen [signStep] <;> simp_all

include ho in
@[spec]
lemma tidies_signedWith (ctx : Context) : (signedWith nested operand ctx).Tidies := by
  mvcgen [signedWith] <;> simp_all

lemma tidies_signed (n : ℕ) : TidyOperand (signed nested n) := by
  induction n with
  | zero =>
    intro ctx
    mvcgen [signed]
  | succ n ih => exact fun ctx => tidies_signedWith hn ih ctx

@[simp]
lemma tidyOperand_operand : TidyOperand (Expression.operand nested) := tidies_signed hn _

@[spec]
lemma tidies_operand (ctx : Context) : (Expression.operand nested ctx).Tidies :=
  tidyOperand_operand hn ctx

@[simp]
lemma tidyStep_operationStep (ctx : Context) : TidyStep (operationStep nested ctx) := by
  intro done hdone
  mvcgen [operationStep] <;> simp_all

@[spec]
lemma tidies_operation (ctx : Context) : (operation nested ctx).Tidies := by
  mvcgen [operation] <;> simp_all

@[spec]
lemma tidies_bareParameter (close : Bool) : (bareParameter nested close).Tidies := by
  mvcgen [bareParameter] <;> simp_all

@[spec]
lemma tidies_lambdaParameter : (lambdaParameter nested).Tidies := by
  mvcgen [lambdaParameter] <;> simp_all

@[simp]
lemma tidyStep_lambdaStep : TidyStep (lambdaStep nested) := by
  intro done hdone
  mvcgen [lambdaStep] <;> simp_all

@[spec]
lemma tidies_lambda (ctx : Context) : (lambda nested ctx).Tidies := by
  mvcgen [lambda] <;> simp_all

@[spec]
lemma tidies_term (ctx : Context) : (term nested ctx).Tidies := by
  mvcgen [term] <;> simp_all

@[simp]
lemma tidyStep_termStep (ctx : Context) : TidyStep (termStep nested ctx) := by
  intro done hdone
  mvcgen [termStep] <;> simp_all

@[spec]
lemma tidies_whole (ctx : Context) : (whole nested ctx).Tidies := by
  mvcgen [whole] <;> simp_all

end Expression

/-- Expressions nested to any depth are tidy. -/
lemma tidies_expression (n : ℕ) : Nested.Tidies ⟨n, expression n⟩ := by
  induction n with
  | zero =>
    intro ctx
    mvcgen [expression]
  | succ n ih => exact fun ctx => Expression.tidies_whole ih ctx

end ImportAtlas.Source
