import ImportAtlas.Proofs.InertImport
import ImportAtlas.Proofs.SplitText
import ImportAtlas.Proofs.WordText

/-!
Names without slashes in import statements.

The identifiers of a text have no slash in them, and taking names apart at dots and putting them
together with dots brings in none. So an import statement that is read depends on modules without a
slash in their names, if the module that it stands in has none.
-/

namespace ImportAtlas

/-! ### Paths -/

namespace ModulePath

def SlashFree (p : ModulePath) : Prop := ∀ s ∈ p.segments, '/' ∉ s.toList

variable {mark c : Char} {pieces : List (List Char)} {p q : ModulePath} {name : String}

lemma mem_join (h : c ∈ join mark pieces) : c = mark ∨ ∃ piece ∈ pieces, c ∈ piece := by
  induction pieces with
  | nil => cases h
  | cons piece pieces ih =>
    cases pieces with
    | nil => exact .inr ⟨piece, List.mem_cons_self .., h⟩
    | cons next pieces =>
      rcases List.mem_append.mp h with h | h
      · exact .inr ⟨piece, List.mem_cons_self .., h⟩
      · rcases List.mem_cons.mp h with h | h
        · exact .inl h
        · rcases ih h with h | ⟨other, hother, h⟩
          · exact .inl h
          · exact .inr ⟨other, List.mem_cons_of_mem _ hother, h⟩

lemma SlashFree.text (h : p.SlashFree) : '/' ∉ p.text.toList := by
  rw [ModulePath.text, String.toList_ofList]
  intro hmem
  rcases mem_join hmem with hdot | ⟨piece, hpiece, hslash⟩
  · cases hdot
  · obtain ⟨s, hs, rfl⟩ := List.mem_map.mp hpiece
    exact h s hs hslash

lemma slashFree_empty : empty.SlashFree := fun _ hs => by cases hs

lemma slashFree_ofDotted (h : '/' ∉ name.toList) : (ofDotted name).SlashFree := by
  unfold ofDotted
  split
  · exact slashFree_empty
  · intro s hs hslash
    obtain ⟨piece, hpiece, rfl⟩ := List.mem_map.mp hs
    rw [String.toList_ofList] at hslash
    exact h (mem_of_mem_split hpiece hslash)

lemma SlashFree.append (hp : p.SlashFree) (hq : q.SlashFree) : (p ++ q).SlashFree := by
  intro s hs
  rcases List.mem_append.mp hs with hs | hs
  · exact hp s hs
  · exact hq s hs

lemma SlashFree.ancestor {levels : ℕ} (hp : p.SlashFree) (h : p.ancestor? levels = some q) :
    q.SlashFree := by
  unfold ancestor? at h
  split at h
  · obtain rfl := Option.some.inj h
    exact fun s hs => hp s (List.mem_of_mem_take hs)
  · cases h

end ModulePath

/-! ### Names in a tree -/

namespace Source

open Std.Do Reader

set_option mvcgen.warning false

lemma slash_not_mem_word (cs : List Char) : '/' ∉ cs.take (wordLength cs) := by
  intro h
  rcases of_mem_word h with h | h <;> exact absurd h (by decide +kernel)

namespace Tree

def SlashFree (t : Tree) : Prop := ∀ u ∈ t.preorder, ∀ x ∈ u.name?, '/' ∉ x.toList

variable {t : Tree}

lemma slashFree_token {u : Token} (h : u.kind ≠ .name) : (token u).SlashFree := by
  intro v hv x hx
  obtain rfl := List.mem_singleton.mp hv
  simp [name?, h] at hx

lemma slashFree_node {k : NodeKind} {p : Position} {cs : List Tree} (h : ∀ c ∈ cs, c.SlashFree) :
    (node k p cs).SlashFree := by
  intro u hu x hx
  rcases List.mem_cons.mp hu with rfl | hu
  · cases hx
  · obtain ⟨c, hc, hu⟩ := mem_preorderAll.mp hu
    exact h c hc u hu x hx

lemma mem_preorder_self (t : Tree) : t ∈ t.preorder := by
  cases t <;> exact List.mem_cons_self ..

lemma SlashFree.child {c : Tree} (h : t.SlashFree) (hc : c ∈ t.children) : c.SlashFree := by
  cases t with
  | token t => cases hc
  | node k p cs =>
    exact fun u hu => h u (List.mem_cons_of_mem _ (mem_preorderAll.mpr ⟨c, hc, hu⟩))

lemma gives_slashFree_take (kind : TokenKind) (n : ℕ) (h : kind ≠ .name) :
    (take kind n).Gives SlashFree := by
  mvcgen [take]
  exact slashFree_token (by exact h)

/-- A look at the text runs what follows on it. -/
lemma rest_bind {α : Type} (f : List Char → Reader α) (s : State) :
    (rest >>= f) s = f s.cursor.rest s := rfl

lemma gives_slashFree_name : name.Gives SlashFree := by
  refine gives_iff.mpr fun s t s' h => ?_
  rw [name, rest_bind] at h
  have hword := slash_not_mem_word s.cursor.rest
  cases hn : wordLength s.cursor.rest with
  | zero =>
    rw [hn] at h
    cases h
  | succ n =>
    rw [hn] at h hword
    obtain ⟨rfl, -⟩ := Prod.mk.inj (Except.ok.inj h)
    intro u hu x hx
    obtain rfl := List.mem_singleton.mp hu
    obtain rfl := Option.mem_some.mp hx
    rwa [String.toList_ofList]

abbrev slashFreeParts : PartProperty where
  Holds := SlashFree
  node _ := slashFree_node
  name := gives_slashFree_name
  keyword text := by
    have h (n : ℕ) := gives_slashFree_take .keyword n nofun
    mvcgen [keyword, h]
  symbol text _ := by
    have h (n : ℕ) := gives_slashFree_take .symbol n nofun
    mvcgen [symbol, h]
  dots _ _ := slashFree_token nofun

end Tree

end Source

/-! ### Import statements -/

namespace ImportStatement

open Source

def SlashFree : ImportStatement → Prop
  | plain modules => ∀ m ∈ modules, m.SlashFree
  | fromModule _ module names _ => module.SlashFree ∧ ∀ x ∈ names, '/' ∉ x.toList

variable {t : Tree} {parts : List Tree} {p base : ModulePath} {s : ImportStatement}
variable {ms : List ModulePath}

lemma slashFree_dottedPath (h : t.SlashFree) : (dottedPath t).SlashFree := by
  intro x hx
  obtain ⟨c, hc, hname⟩ := List.mem_filterMap.mp hx
  exact h.child hc c c.mem_preorder_self x hname

lemma slashFree_importedPath (h : t.SlashFree) (hp : importedPath? t = some p) :
    p.SlashFree := by
  unfold importedPath? at hp
  split at hp
  · obtain rfl := Option.some.inj hp
    exact slashFree_dottedPath h
  · obtain rfl := Option.some.inj hp
    exact slashFree_dottedPath (h.child (List.mem_cons_self ..))
  · cases hp

lemma slashFree_source (h : t.SlashFree) : (source t).2.SlashFree := by
  unfold source
  split
  · rename_i p dots module
    cases module with
    | nil => exact ModulePath.slashFree_empty
    | cons m ms =>
      exact slashFree_dottedPath (h.child (List.mem_cons_of_mem _ (List.mem_cons_self ..)))
  · exact slashFree_dottedPath h

lemma slash_not_mem_importedNames (h : ∀ c ∈ parts, c.SlashFree) :
    ∀ x ∈ importedNames parts, '/' ∉ x.toList := by
  intro x hx
  obtain ⟨p, hp, rfl⟩ := List.mem_map.mp hx
  obtain ⟨c, hc, hpath⟩ := List.mem_filterMap.mp hp
  exact (slashFree_importedPath (h c hc) hpath).text

lemma slashFree_ofTree (h : ∀ c ∈ t.children, c.SlashFree) (hs : ofTree? t = some s) :
    s.SlashFree := by
  unfold ofTree? at hs
  split at hs
  · obtain rfl := Option.some.inj hs
    intro p hp
    obtain ⟨c, hc, hpath⟩ := List.mem_filterMap.mp hp
    exact slashFree_importedPath (h c hc) hpath
  · rename_i word module parts
    obtain rfl := Option.some.inj hs
    refine ⟨slashFree_source (h module ?_), slash_not_mem_importedNames fun c hc => h c ?_⟩
    · exact List.mem_cons_of_mem _ (List.mem_cons_self ..)
    · exact List.mem_cons_of_mem _ (List.mem_cons_of_mem _ hc)
  · obtain rfl := Option.some.inj hs
    refine ⟨fun x hx => ?_, slash_not_mem_importedNames h⟩
    obtain rfl := List.mem_singleton.mp hx
    decide
  · cases hs

lemma slashFree_resolve (hs : s.SlashFree) (hbase : base.SlashFree)
    (h : s.resolve base = .ok ms) : ∀ m ∈ ms, m.SlashFree := by
  unfold resolve at h
  split at h
  · obtain rfl := Except.ok.inj h
    exact hs
  · obtain rfl := Except.ok.inj h
    exact List.forall_mem_singleton.mpr hs.1
  · split at h
    · cases h
    · -- the climb only leaves segments out
      rename_i anchor hanchor
      have hanchor := hbase.ancestor hanchor
      split at h
      · obtain rfl := Except.ok.inj h
        intro m hm
        obtain ⟨x, hx, rfl⟩ := List.mem_map.mp hm
        exact hanchor.append (ModulePath.slashFree_ofDotted (hs.2 x hx))
      · obtain rfl := Except.ok.inj h
        exact List.forall_mem_singleton.mpr (hanchor.append hs.1)

end ImportStatement

end ImportAtlas
