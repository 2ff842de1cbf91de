import ImportAtlas.Proofs.DottedPath
import ImportAtlas.Proofs.RelativePrefix

/-!
The modules that import statements name.

An identifier is not empty and has no dot in it, and a dotted name has an identifier in it. So a
statement names a module, unless it begins with dots, and it has names or a star behind its module.
-/

namespace ImportAtlas

/-! ### Paths that are spelled -/

namespace ModulePath

variable {p q : ModulePath} {s : String}

def IsSegment (s : String) : Prop := s ≠ "" ∧ '.' ∉ s.toList

structure Spelled (p : ModulePath) : Prop where
  ne_empty : p ≠ .empty
  isSegment : ∀ s ∈ p.segments, IsSegment s

/-- Without empty segments only the empty path has no name. -/
lemma text_eq_empty_iff (h : ∀ s ∈ p.segments, s ≠ "") : p.text = "" ↔ p = .empty := by
  have hne : p ≠ ⟨[""]⟩ := by
    rintro rfl
    exact h "" (List.mem_singleton.mpr rfl) rfl
  rw [nameless_iff, or_iff_left hne]

/-- A dotted name is cut into the segments that spell it. -/
lemma Spelled.ofDotted_text (h : p.Spelled) : ofDotted p.text = p := by
  refine ofDotted_text_iff.mpr ⟨?_, fun s hs => (h.isSegment s hs).2⟩
  rintro rfl
  exact (h.isSegment "" (List.mem_singleton.mpr rfl)).1 rfl

end ModulePath

/-! ### Reading names -/

namespace Source

open Reader ModulePath ImportStatement

variable {t : Tree} {ts : List Tree}

def SpellPath (ts : List Tree) : Prop := Spelled ⟨ts.filterMap Tree.name?⟩

def SpellNames (ts : List Tree) : Prop :=
  ts.filterMap importedPath? ≠ [] ∧ ∀ p ∈ ts.filterMap importedPath?, p.Spelled

lemma spellNames_reverse : SpellNames ts.reverse ↔ SpellNames ts := by
  simp [SpellNames, List.filterMap_reverse]

lemma gives_identifier : name.Gives fun t => ∃ x ∈ t.name?, IsSegment x := by
  refine gives_iff.mpr fun st t st' h => ?_
  obtain ⟨chars, mid, hrest, h⟩ := run_bind_eq_ok_iff.mp h
  cases hrest
  -- a dot belongs to no word, and an empty word is none
  have hdot : '.' ∉ st.cursor.rest.take (wordLength st.cursor.rest) := by
    intro h
    rcases of_mem_word h with h | h <;> exact absurd h (by decide +kernel)
  cases hn : wordLength st.cursor.rest with
  | zero =>
    simp only [hn] at h
    cases h
  | succ n =>
    simp only [hn] at h hdot
    cases h
    refine ⟨_, rfl, fun hempty => ?_, by rwa [String.toList_ofList]⟩
    have htake := congrArg String.toList hempty
    rw [String.toList_ofList] at htake
    rcases List.take_eq_nil_iff.mp htake with hzero | hrest
    · cases hzero
    · rw [hrest] at hn
      cases hn

def IsMark (t : Tree) : Prop := t.name? = none ∧ importedPath? t = none

lemma gives_take_mark {kind : TokenKind} (n : ℕ) (h : kind ≠ .name) :
    (take kind n).Gives IsMark := by
  refine gives_iff.mpr ?_
  rintro st _ _ ⟨⟩
  exact ⟨if_neg h, rfl⟩

lemma gives_symbol_mark (text : String) : (symbol text).Gives IsMark := by
  refine gives_bind (gives_true _) fun found _ => ?_
  cases found with
  | false => exact gives_stop
  | true => exact gives_take_mark _ (by decide)

lemma gives_keyword_mark (text : String) : (keyword text).Gives IsMark := by
  refine gives_bind (gives_true _) fun found _ => ?_
  cases found with
  | false => exact gives_stop
  | true => exact gives_take_mark _ (by decide)

lemma spellPath_cons {done : List Tree} {word dot : Tree} (h : SpellPath done)
    (hdot : IsMark dot) (hword : ∃ x ∈ word.name?, IsSegment x) :
    SpellPath (word :: dot :: done) := by
  obtain ⟨x, hx, hsegment⟩ := hword
  have hnames : (word :: dot :: done).filterMap Tree.name? = x :: done.filterMap Tree.name? := by
    rw [List.filterMap_cons, hx, List.filterMap_cons, hdot.1]
  rw [SpellPath, hnames]
  exact ⟨nofun, List.forall_mem_cons.mpr ⟨hsegment, h.isSegment⟩⟩

variable (nested : Nested) (e : Expect)

lemma gives_dottedStep_path (done : List Tree) (h : SpellPath done) :
    (CasePattern.dottedStep e done).Gives fun next => ∀ b ∈ next, SpellPath b := by
  refine gives_bind (gives_true _) fun found _ => ?_
  cases found with
  | mark m => exact gives_pure nofun
  | lexeme =>
    refine gives_bind (gives_true _) fun dotted _ => ?_
    cases dotted with
    | false => exact gives_pure nofun
    | true =>
      refine gives_bind (gives_symbol_mark ".") fun dot hdot => ?_
      refine gives_bind (gives_bind (gives_true _) fun _ _ => gives_identifier) fun word hword => ?_
      refine gives_pure ?_
      rintro _ ⟨⟩
      exact spellPath_cons h hdot hword

namespace Statement

lemma gives_dottedName_path :
    (dottedName nested e).Gives fun t => importedPath? t = some (dottedPath t) ∧
      (dottedPath t).Spelled := by
  refine gives_bind gives_identifier fun first hfirst => ?_
  have hpath : SpellPath [first] := by
    obtain ⟨x, hx, hsegment⟩ := hfirst
    rw [SpellPath, List.filterMap_cons, hx]
    exact ⟨nofun, List.forall_mem_singleton.mpr hsegment⟩
  refine gives_bind (gives_iterate (gives_dottedStep_path e) nested.rounds hpath)
    fun path hpath => gives_pure ⟨rfl, ?_⟩
  rw [dottedPath, Tree.children, List.filterMap_reverse]
  refine ⟨fun hempty => hpath.ne_empty ?_, fun s hs => hpath.isSegment s (List.mem_reverse.mp hs)⟩
  exact congrArg ModulePath.mk (List.reverse_eq_nil_iff.mp (congrArg ModulePath.segments hempty))

def IsImportedName (t : Tree) : Prop := ∃ p, importedPath? t = some p ∧ p.Spelled

lemma gives_importedName_path : (importedName nested e).Gives IsImportedName := by
  refine gives_bind (gives_dottedName_path nested e) fun target htarget => ?_
  refine gives_bind (gives_true _) fun found _ => ?_
  cases found with
  | mark m => exact gives_pure ⟨_, htarget⟩
  | lexeme =>
    refine gives_bind (gives_true _) fun aliased _ => ?_
    cases aliased with
    | false => exact gives_pure ⟨_, htarget⟩
    | true =>
      refine gives_bind (gives_true _) fun word _ => ?_
      refine gives_bind (gives_true _) fun newName _ => ?_
      exact gives_pure ⟨_, rfl, htarget.2⟩

lemma spellNames_cons {done : List Tree} {t : Tree} (h : SpellNames done)
    (ht : IsMark t ∨ IsImportedName t) : SpellNames (t :: done) := by
  rcases ht with ⟨-, ht⟩ | ⟨p, hp, hspelled⟩
  · have hnames : (t :: done).filterMap importedPath? = done.filterMap importedPath? := by
      rw [List.filterMap_cons, ht]
    rwa [SpellNames, hnames]
  · have hnames : (t :: done).filterMap importedPath? = p :: done.filterMap importedPath? := by
      rw [List.filterMap_cons, hp]
    rw [SpellNames, hnames]
    exact ⟨nofun, List.forall_mem_cons.mpr ⟨hspelled, h.2⟩⟩

lemma gives_importedStep_names (done : List Tree) (h : SpellNames done) :
    (importedStep nested e done).Gives fun next => ∀ b ∈ next, SpellNames b := by
  have hfinished : (pure none : Reader (Option (List Tree))).Gives
      fun next => ∀ b ∈ next, SpellNames b := gives_pure nofun
  refine gives_bind (gives_true _) fun found _ => ?_
  cases found with
  | mark m => exact hfinished
  | lexeme =>
    refine gives_bind (gives_true _) fun separated _ => ?_
    cases separated with
    | false => exact hfinished
    | true =>
      refine gives_bind (gives_symbol_mark ",") fun comma hcomma => ?_
      -- where no name follows, the comma is the last part
      have hlast : (pure (some (comma :: done)) : Reader (Option (List Tree))).Gives
          fun next => ∀ b ∈ next, SpellNames b := by
        refine gives_pure ?_
        rintro _ ⟨⟩
        exact spellNames_cons h (.inl hcomma)
      refine gives_bind (gives_true _) fun found _ => ?_
      cases found with
      | mark m => exact hlast
      | lexeme =>
        refine gives_bind (gives_true _) fun again _ => ?_
        cases again with
        | true => exact gives_bind (gives_stop (P := fun _ => False)) fun _ hstop => hstop.elim
        | false =>
          refine gives_bind (gives_true _) fun word _ => ?_
          cases word with
          | none => exact hlast
          | some text =>
            refine gives_bind (gives_importedName_path nested e) fun t ht => gives_pure ?_
            rintro _ ⟨⟩
            exact spellNames_cons (spellNames_cons h (.inl hcomma)) (.inr ht)

lemma gives_importedNames_names : (importedNames nested e).Gives SpellNames := by
  refine gives_bind (gives_true _) fun _ _ => ?_
  refine gives_bind (gives_importedName_path nested e) fun first hfirst => ?_
  refine gives_bind (gives_iterate (gives_importedStep_names nested e) nested.rounds ?_)
    fun names hnames => gives_pure (spellNames_reverse.mpr hnames)
  obtain ⟨p, hp, hspelled⟩ := hfirst
  rw [SpellNames, List.filterMap_cons, hp]
  exact ⟨nofun, List.forall_mem_singleton.mpr hspelled⟩

lemma gives_importedList_names : (importedList nested).Gives SpellNames := by
  refine gives_bind (gives_true _) fun _ _ => ?_
  refine gives_bind (gives_true _) fun bracketed _ => ?_
  cases bracketed with
  | false => exact gives_importedNames_names nested _
  | true =>
    refine gives_bind (gives_symbol_mark "(") fun first hfirst => ?_
    refine gives_bind (gives_importedNames_names nested _) fun names hnames => ?_
    refine gives_bind (gives_bind (gives_true _) fun _ _ => gives_symbol_mark ")")
      fun last hlast => ?_
    have hclosed : SpellNames (names ++ [last]) := by
      rw [← spellNames_reverse, List.reverse_append]
      exact spellNames_cons (spellNames_reverse.mpr hnames) (.inl hlast)
    exact gives_pure (spellNames_cons hclosed (.inl hfirst))

/-! ### Import statements -/

lemma gives_importStatement_names :
    (importStatement nested).Gives fun t => ∃ pos parts, t = .node .importStatement pos parts ∧
      SpellNames parts := by
  refine gives_bind (gives_keyword_mark "import") fun word hword => ?_
  refine gives_bind (gives_importedNames_names nested _) fun names hnames => ?_
  exact gives_pure ⟨_, _, rfl, spellNames_cons hnames (.inl hword)⟩

lemma gives_afterDots_path (d : Tree) :
    (afterDots nested d).Gives fun t => ∃ pos modules,
      t = .node .relativeModule pos (d :: modules) ∧
        ∀ m ∈ modules.head?, (dottedPath m).Spelled := by
  refine gives_bind (gives_true _) fun _ _ => ?_
  refine gives_bind (gives_true _) fun word _ => ?_
  refine gives_bind (gives_true _) fun atImport _ => ?_
  cases word.isNone || atImport with
  | true => exact gives_pure ⟨_, [], rfl, nofun⟩
  | false =>
    refine gives_bind (gives_dottedName_path nested {}) fun m hm => gives_pure ⟨_, [m], rfl, ?_⟩
    rintro _ ⟨⟩
    exact hm.2

lemma gives_afterModule_names (word module : Tree) :
    (afterModule nested word module).Gives fun t => ∃ pos parts,
      t = .node .fromImport pos (word :: module :: parts) ∧
        (parts.any (·.hasKind .wildcard) = false → SpellNames parts) := by
  refine gives_bind (gives_bind (gives_true _) fun _ _ => gives_keyword_mark _) fun importWord
    himport => ?_
  refine gives_bind (gives_true _) fun _ _ => ?_
  refine gives_bind (gives_true _) fun starred _ => ?_
  cases starred with
  | true =>
    refine gives_bind (gives_true _) fun star _ => gives_pure ⟨_, _, rfl, fun hstar => ?_⟩
    simp [Tree.hasKind, Tree.kind?] at hstar
  | false =>
    refine gives_bind (gives_importedList_names nested) fun names hnames => ?_
    exact gives_pure ⟨_, _, rfl, fun _ => spellNames_cons hnames (.inl himport)⟩

end Statement

end Source

namespace ImportStatement

open Source Reader Statement

/-- The statement names the modules that it depends on: it names a module, or it climbs and has
names or a star instead. -/
def Named : ImportStatement → Prop
  | plain modules => ∀ m ∈ modules, m.Spelled
  | fromModule level module names wildcard =>
    module.Spelled ∨ module = .empty ∧ 1 ≤ level ∧
      (wildcard = false → names ≠ [] ∧ ∀ x ∈ names, (ModulePath.ofDotted x).Spelled)

variable {nested : Nested} {st next : State} {t : Tree} {s : ImportStatement}

lemma named_names {parts : List Tree} (h : SpellNames parts) :
    importedNames parts ≠ [] ∧ ∀ x ∈ importedNames parts, (ModulePath.ofDotted x).Spelled := by
  refine ⟨mt List.map_eq_nil_iff.mp h.1, fun x hx => ?_⟩
  obtain ⟨p, hp, rfl⟩ := List.mem_map.mp hx
  have hspelled := h.2 p hp
  rwa [hspelled.ofDotted_text]

lemma named_importStatement (h : importStatement nested st = .ok (t, next))
    (hs : ofTree? t = some s) : s.Named := by
  obtain ⟨pos, parts, rfl, hparts⟩ := gives_iff.mp (gives_importStatement_names nested) _ _ _ h
  cases hs
  exact hparts.2

lemma named_fromImport (h : fromImport nested st = .ok (t, next)) (hs : ofTree? t = some s) :
    s.Named := by
  obtain ⟨c, hc, ⟨hdot, -⟩ | ⟨-, ⟨pos, parts, rfl⟩ | ⟨module, mid, hmodule, h⟩⟩⟩ :=
    fromImport_eq_ok h
  · obtain ⟨p, pos, tail, c', module, mid, -, -, -, hmodule, h⟩ := relative_eq_ok (hc ▸ hdot) h
    obtain ⟨pos', modules, rfl, hmodules⟩ :=
      gives_iff.mp (gives_afterDots_path nested _) _ _ _ hmodule
    obtain ⟨pos'', parts, rfl, hparts⟩ := gives_iff.mp (gives_afterModule_names nested _ _) _ _ _ h
    cases hs
    -- without a module there are dots, at least the one in front of the tail
    cases modules with
    | nil =>
      refine .inr ⟨rfl, ?_, fun hstar => named_names (hparts hstar)⟩
      rw [p.dotCount_text]
      exact Nat.le_add_right_of_le (Nat.le_add_left ..)
    | cons m ms => exact .inl (hmodules m rfl)
  · cases hs
    exact .inl ⟨nofun, List.forall_mem_singleton.mpr ⟨by decide, by decide⟩⟩
  · have hpath := (gives_iff.mp (gives_dottedName_path nested _) _ _ _ hmodule).2
    obtain ⟨pos, cs, rfl⟩ := dottedName_eq_ok hmodule
    obtain ⟨pos', parts, rfl⟩ := afterModule_eq_ok h
    cases hs
    exact .inl hpath

end ImportStatement

/-- Import statements name the modules that they depend on. -/
abbrev namedImports : Source.ImportProperty where
  Holds t := ∀ s, ImportStatement.ofTree? t = some s → s.Named
  importStatement _ := Source.Reader.gives_iff.mpr fun _ _ _ h _ hs =>
    ImportStatement.named_importStatement h hs
  fromImport _ := Source.Reader.gives_iff.mpr fun _ _ _ h _ hs =>
    ImportStatement.named_fromImport h hs

end ImportAtlas
