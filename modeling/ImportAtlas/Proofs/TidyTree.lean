import ImportAtlas.Proofs.InertImport

/-!
What holds of every import statement in the tree of a text.

If a property holds of each import statement as it is read, it holds of all of them wherever they
stand in the tree: the readers of imports are the only ones that make nodes of their kinds. A tree
is tidy if its import statements have the property; each reader makes tidy trees of tidy ones.
-/

namespace ImportAtlas.Source

open Std.Do Reader

set_option mvcgen.warning false

/-! ### Tidy trees -/

@[simp]
def NodeKind.IsImport (k : NodeKind) : Prop :=
  k = .importStatement ∨ k = .fromImport ∨ k = .futureImport

/-- A property that import statements have as they are read. -/
class ImportProperty where
  Holds : Tree → Prop
  importStatement (nested : Nested) : (Statement.importStatement nested).Gives Holds
  fromImport (nested : Nested) : (Statement.fromImport nested).Gives Holds

/-- Every import statement of the tree has the property, and what stands within it is inert. -/
inductive Tree.Tidy [ImportProperty] : Tree → Prop
  | token (t : Token) : Tidy (.token t)
  | node {k : NodeKind} {p : Position} {cs : List Tree} (hkind : ¬k.IsImport)
      (h : ∀ c ∈ cs, Tidy c) : Tidy (.node k p cs)
  | import {t : Tree} (h : ImportProperty.Holds t) (hparts : AllInert t.children) : Tidy t

/-- What readers hand on: the trees in it are tidy, and the kinds in it are of other nodes. -/
class HasTidy (α : Type) where
  Tidy : α → Prop

open HasTidy (Tidy)

section Values

variable {α β : Type} [HasTidy α] [HasTidy β]

instance [ImportProperty] : HasTidy Tree := ⟨Tree.Tidy⟩
instance : HasTidy NodeKind := ⟨fun k => ¬k.IsImport⟩
instance : HasTidy Bool := ⟨fun _ => True⟩
instance : HasTidy String := ⟨fun _ => True⟩
instance : HasTidy (List α) := ⟨fun as => ∀ a ∈ as, Tidy a⟩
instance : HasTidy (Option α) := ⟨fun o => ∀ a ∈ o, Tidy a⟩
instance : HasTidy (α × β) := ⟨fun x => Tidy x.1 ∧ Tidy x.2⟩

@[simp] lemma tidy_kind {k : NodeKind} : Tidy k ↔ ¬k.IsImport := .rfl

@[simp] lemma tidy_bool (b : Bool) : Tidy b := trivial

@[simp] lemma tidy_string (s : String) : Tidy s := trivial

@[simp] lemma tidy_nil : Tidy ([] : List α) := fun _ h => nomatch h

@[simp] lemma tidy_cons {a : α} {as : List α} : Tidy (a :: as) ↔ Tidy a ∧ Tidy as :=
  List.forall_mem_cons

@[simp] lemma tidy_append {as bs : List α} : Tidy (as ++ bs) ↔ Tidy as ∧ Tidy bs :=
  List.forall_mem_append

@[simp] lemma tidy_reverse {as : List α} : Tidy as.reverse ↔ Tidy as := by
  simp [Tidy]

@[simp] lemma tidy_none : Tidy (none : Option α) := fun _ h => nomatch h

@[simp] lemma tidy_some {a : α} : Tidy (some a) ↔ Tidy a := by
  simp [Tidy]

@[simp] lemma tidy_prod {x : α × β} : Tidy x ↔ Tidy x.1 ∧ Tidy x.2 := .rfl

variable [ImportProperty]

@[simp] lemma tidy_token (t : Token) : Tidy (Tree.token t) := .token t

/-- A node of another kind than the import statements is tidy if its children are. -/
@[simp] lemma tidy_node {k : NodeKind} {p : Position} {cs : List Tree} (hkind : ¬k.IsImport)
    (h : Tidy cs) : Tidy (Tree.node k p cs) := .node hkind h

@[simp] lemma tidy_phrase {k : NodeKind} {ts : List Tree} (hkind : ¬k.IsImport)
    (h : Tidy ts) : Tidy (phrase k ts) := by
  match ts with
  | [] => exact .node hkind h
  | [t] => exact h t (List.mem_singleton.mpr rfl)
  | _ :: _ :: _ => exact .node hkind h

end Values

/-! ### Tidy readers -/

namespace Reader

variable {α : Type} [HasTidy α]

abbrev Tidies (r : Reader α) : Prop := r.Gives Tidy

/-- Each step of a loop keeps what is read tidy. -/
def TidyStep (step : α → Reader (Option α)) : Prop := ∀ a, Tidy a → (step a).Tidies

@[spec]
lemma tidies_iterate {step : α → Reader (Option α)} {n : ℕ} {a : α} (h : TidyStep step)
    (ha : Tidy a) : (iterate step n a).Tidies := gives_iterate h n ha

@[spec]
lemma tidies_peek {r : Reader α} (h : r.Tidies) : (peek r).Tidies := by
  mvcgen [peek, h]

variable [ImportProperty]

@[spec]
lemma tidies_take (kind : TokenKind) (n : ℕ) : (take kind n).Tidies := by
  mvcgen [take]
  exact tidy_token _

@[spec]
lemma tidies_symbol (text : String) : (symbol text).Tidies := by
  mvcgen [symbol]

@[spec]
lemma tidies_keyword (text : String) : (keyword text).Tidies := by
  mvcgen [keyword]

@[spec]
lemma tidies_name : name.Tidies := by
  mvcgen [name]

@[spec]
lemma tidies_nextSymbol (text : String) (e : Expect) : (nextSymbol text e).Tidies := by
  mvcgen [nextSymbol]

@[spec]
lemma tidies_nextKeyword (text : String) (e : Expect) : (nextKeyword text e).Tidies := by
  mvcgen [nextKeyword]

@[spec]
lemma tidies_nextName (e : Expect) : (nextName e).Tidies := by
  mvcgen [nextName]

end Reader

end ImportAtlas.Source
