import ImportAtlas.Analysis
import ImportAtlas.Proofs.ReaderGives

/-!
What stands within an import statement: names, separators and dots.

A property that these have, and that passes from parts to what is made of them, holds of all that
is read within an import. So a search there finds neither another import nor a construct of the
second version.
-/

namespace ImportAtlas.Source

open Std.Do Reader

set_option mvcgen.warning false

namespace Tree

lemma preorderAll_eq (ts : List Tree) : preorderAll ts = ts.flatMap preorder := by
  induction ts with
  | nil => rfl
  | cons t ts ih => rw [preorderAll, ih, List.flatMap_cons]

@[simp]
lemma mem_preorderAll {u : Tree} {ts : List Tree} :
    u ∈ preorderAll ts ↔ ∃ t ∈ ts, u ∈ t.preorder := by
  rw [preorderAll_eq, List.mem_flatMap]

/-- The tree is neither an import nor a construct of the second version. -/
structure Plain (t : Tree) : Prop where
  not_legacy : t.isLegacy = false
  not_import : ImportStatement.ofTree? t = none

/-- Every subtree is plain. -/
def Inert (t : Tree) : Prop := ∀ u ∈ t.preorder, u.Plain

def AllInert (ts : List Tree) : Prop := ∀ t ∈ ts, t.Inert

lemma inert_token {t : Token} (h : (token t).isLegacy = false) : (token t).Inert := by
  intro u hu
  obtain rfl := List.mem_singleton.mp hu
  exact ⟨h, rfl⟩

lemma inert_node {k : NodeKind} {p : Position} {cs : List Tree} (hplain : (node k p cs).Plain)
    (h : AllInert cs) : (node k p cs).Inert := by
  intro u hu
  rcases List.mem_cons.mp hu with rfl | hu
  · exact hplain
  · obtain ⟨c, hc, hu⟩ := mem_preorderAll.mp hu
    exact h c hc u hu

lemma inert_part {k : NodeKind} {p : Position} {cs : List Tree}
    (hk : k = .dottedName ∨ k = .aliasedName ∨ k = .relativeModule ∨ k = .wildcard)
    (h : AllInert cs) : (node k p cs).Inert := by
  refine inert_node ?_ h
  rcases hk with rfl | rfl | rfl | rfl <;> exact ⟨rfl, rfl⟩

/-! ### Tokens -/

/-- A token is inert unless it is an operator or a number. -/
lemma gives_take (kind : TokenKind) (n : ℕ) (hsymbol : kind ≠ .symbol)
    (hinteger : kind ≠ .integer) : (take kind n).Gives Inert := by
  mvcgen [take]
  exact inert_token (by simp [isLegacy, hsymbol, hinteger])

lemma gives_keyword (text : String) : (keyword text).Gives Inert := by
  have h (n : ℕ) := gives_take .keyword n nofun nofun
  mvcgen [keyword, h]

lemma gives_name : name.Gives Inert := by
  have h (n : ℕ) := gives_take .name n nofun nofun
  mvcgen [name, h]

/-- The only operator that is a construct of the second version has two characters. -/
lemma gives_takeSymbol : (take .symbol 1).Gives Inert := by
  mvcgen [take]
  rename_i s
  have hne : String.ofList (s.cursor.rest.take 1) ≠ "<>" := by
    intro h
    have hlength := congrArg (·.toList.length) h
    have htwo : "<>".toList.length = 2 := rfl
    simp only [String.toList_ofList, List.length_take, htwo] at hlength
    omega
  exact inert_token (by simp [isLegacy, hne])

lemma gives_symbol (text : String) (h : text.length = 1) : (symbol text).Gives Inert := by
  have hone := gives_takeSymbol
  rw [← h] at hone
  mvcgen [symbol, hone]

lemma inert_dots (position : Position) (text : String) : (token ⟨.dots, position, text⟩).Inert :=
  inert_token rfl

/-! ### Properties of parts -/

/-- A property of the lexemes within an import that passes from parts to what is made of them. -/
class PartProperty where
  Holds : Tree → Prop
  node {k : NodeKind} {p : Position} {cs : List Tree}
    (hk : k = .dottedName ∨ k = .aliasedName ∨ k = .relativeModule ∨ k = .wildcard)
    (h : ∀ c ∈ cs, Holds c) : Holds (node k p cs)
  name : Reader.name.Gives Holds
  keyword (text : String) : (Reader.keyword text).Gives Holds
  symbol (text : String) (h : text.length = 1) : (Reader.symbol text).Gives Holds
  dots (position : Position) (text : String) : Holds (token ⟨.dots, position, text⟩)

abbrev inertParts : PartProperty where
  Holds := Inert
  node := inert_part
  name := gives_name
  keyword := gives_keyword
  symbol := gives_symbol
  dots := inert_dots

section Parts

variable [PartProperty]

open PartProperty (Holds)

def AllHold (ts : List Tree) : Prop := ∀ t ∈ ts, Holds t

@[simp] lemma allHold_nil : AllHold [] := fun _ h => nomatch h

@[simp] lemma allHold_cons {t : Tree} {ts : List Tree} :
    AllHold (t :: ts) ↔ Holds t ∧ AllHold ts := List.forall_mem_cons

@[simp] lemma allHold_append {ts us : List Tree} :
    AllHold (ts ++ us) ↔ AllHold ts ∧ AllHold us := List.forall_mem_append

@[simp] lemma allHold_reverse {ts : List Tree} : AllHold ts.reverse ↔ AllHold ts := by
  simp [AllHold]

@[simp] lemma holds_node {k : NodeKind} {p : Position} {cs : List Tree}
    (hk : k = .dottedName ∨ k = .aliasedName ∨ k = .relativeModule ∨ k = .wildcard)
    (h : AllHold cs) : Holds (node k p cs) := PartProperty.node hk h

lemma holds_nextName (e : Expect) : (nextName e).Gives Holds := by
  have hname := PartProperty.name
  mvcgen [nextName, hname]

lemma holds_nextKeyword (text : String) : (nextKeyword text).Gives Holds := by
  have hkeyword := PartProperty.keyword text
  mvcgen [nextKeyword, hkeyword]

lemma holds_nextSymbol (text : String) (h : text.length = 1) (e : Expect) :
    (nextSymbol text e).Gives Holds := by
  have hsymbol := PartProperty.symbol text h
  mvcgen [nextSymbol, hsymbol]

/-! ### Names and lists of names -/

variable (nested : Nested)

lemma holds_dottedName (e : Expect) : (Statement.dottedName nested e).Gives Holds := by
  have hname := PartProperty.name
  have hdot := PartProperty.symbol "." rfl
  have hstep : ∀ done, AllHold done →
      (CasePattern.dottedStep e done).Gives fun next => ∀ b ∈ next, AllHold b := by
    intro done hdone
    mvcgen [CasePattern.dottedStep, hdot, holds_nextName] <;> simp_all
  have hloop (a : Tree) := gives_iterate hstep nested.rounds (a := [a])
  mvcgen [Statement.dottedName, hname, hloop] <;> simp_all

lemma holds_importedName (e : Expect) : (Statement.importedName nested e).Gives Holds := by
  have hkeyword := PartProperty.keyword
  mvcgen [Statement.importedName, holds_dottedName, hkeyword, holds_nextName]
  simp_all

lemma holds_importedNames (e : Expect) : (Statement.importedNames nested e).Gives AllHold := by
  have hcomma := PartProperty.symbol "," rfl
  have hstep : ∀ done, AllHold done →
      (Statement.importedStep nested e done).Gives fun next => ∀ b ∈ next, AllHold b := by
    intro done hdone
    mvcgen [Statement.importedStep, hcomma, holds_importedName] <;> simp_all
  have hloop (a : Tree) := gives_iterate hstep nested.rounds (a := [a])
  mvcgen [Statement.importedNames, holds_importedName, hloop] <;> simp_all

lemma holds_importStatement :
    (Statement.importStatement nested).Gives fun t => AllHold t.children := by
  have hkeyword := PartProperty.keyword
  mvcgen [Statement.importStatement, hkeyword, holds_importedNames]
  simp_all [children]

lemma holds_importedList : (Statement.importedList nested).Gives AllHold := by
  have hopen := PartProperty.symbol "(" rfl
  have hclose := holds_nextSymbol ")" rfl
  mvcgen [Statement.importedList, hopen, hclose, holds_importedNames]
  simp_all

/-! ### Modules that are imported from -/

lemma holds_dots : (Statement.dots nested).Gives Holds := by
  have hloop (a : Cursor) := gives_true (iterate Statement.dotsStep nested.rounds a)
  mvcgen [Statement.dots, hloop]
  exact PartProperty.dots _ _

lemma holds_relativeModule : (Statement.relativeModule nested).Gives Holds := by
  mvcgen [Statement.relativeModule, holds_dots, holds_dottedName]
  all_goals simp_all

lemma holds_fromImport : (Statement.fromImport nested).Gives fun t => AllHold t.children := by
  have hkeyword := PartProperty.keyword
  have hstar := PartProperty.symbol "*" rfl
  mvcgen [Statement.fromImport, hkeyword, holds_nextKeyword, holds_importedList,
    holds_relativeModule, holds_dottedName, hstar]
  all_goals simp_all [children]

end Parts

lemma gives_importStatement (nested : Nested) :
    (Statement.importStatement nested).Gives fun t => AllInert t.children :=
  @holds_importStatement inertParts nested

lemma gives_fromImport (nested : Nested) :
    (Statement.fromImport nested).Gives fun t => AllInert t.children :=
  @holds_fromImport inertParts nested

end Tree

end ImportAtlas.Source
