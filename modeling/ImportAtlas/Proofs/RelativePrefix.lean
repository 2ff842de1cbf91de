import ImportAtlas.Proofs.BareTree
import ImportAtlas.Proofs.Filler
import ImportAtlas.Proofs.GraphNames
import ImportAtlas.Proofs.WordText

/-!
The dots of a relative import.

Blanks, comments and continuations may stand between the dots. They are part of the text whose dots
are counted, so the level of the import is the number of the dots and of the dots in the comments
between them. Nothing else that is read depends on what stands there.
-/

namespace ImportAtlas.Source

open Reader ImportStatement

/-- The dots of a relative import, with the fillers that stand between each two of them. -/
structure DotPrefix where
  gaps : List (List Filler)

/-- Fillers with a dot behind them, as they are written. -/
def gapChars (gaps : List (List Filler)) : List Char :=
  gaps.flatMap fun gap => gap.flatMap Filler.chars ++ ['.']

namespace DotPrefix

variable (p : DotPrefix)

def dots : ℕ := p.gaps.length + 1

/-- The number of dots in the comments between them. -/
def commentDots : ℕ := (p.gaps.flatten.map Filler.dots).sum

def chars : List Char := '.' :: gapChars p.gaps

def text : String := String.ofList p.chars

end DotPrefix

lemma count_dot_gapChars (gaps : List (List Filler)) :
    (gapChars gaps).count '.' = gaps.length + (gaps.flatten.map Filler.dots).sum := by
  have hfillers : ∀ fs : List Filler,
      (fs.flatMap Filler.chars).count '.' = (fs.map Filler.dots).sum := by
    intro fs
    simp [List.count_flatMap, Function.comp_def, Filler.count_dot_chars]
  induction gaps with
  | nil => rfl
  | cons gap gaps ih =>
    rw [gapChars, List.flatMap_cons, ← gapChars, List.count_append, ih, List.count_append, hfillers]
    simp
    omega

/-- Every dot in the text counts, also those in comments. -/
lemma DotPrefix.dotCount_text (p : DotPrefix) : dotCount p.text = p.dots + p.commentDots := by
  simp only [dotCount, text, String.toList_ofList, chars, List.count_cons_self, count_dot_gapChars,
    dots, commentDots]
  omega

/-- No further dot comes behind the gap. -/
def NoDot (tail : List Char) : Prop := (skip tail).head? ≠ some '.'

lemma skip_gapChars_cons (gap : List Filler) (gaps : List (List Filler)) (s : List Char) :
    skip (gapChars (gap :: gaps) ++ s) = '.' :: (gapChars gaps ++ s) := by
  have hcons : gapChars (gap :: gaps) ++ s =
      gap.flatMap Filler.chars ++ '.' :: (gapChars gaps ++ s) := by
    simp [gapChars]
  rw [hcons, skip_fillers, skip_dot]

lemma gapChars_unique {gaps gaps' : List (List Filler)} {tail tail' : List Char}
    (h : gapChars gaps ++ tail = gapChars gaps' ++ tail') (htail : NoDot tail)
    (htail' : NoDot tail') : gapChars gaps = gapChars gaps' ∧ tail = tail' := by
  induction gaps generalizing gaps' with
  | nil =>
    cases gaps' with
    | nil => exact ⟨rfl, h⟩
    | cons gap' gaps' =>
      -- one of the texts goes on with a dot where the other one has none
      refine absurd ?_ htail
      rw [show tail = _ from h, skip_gapChars_cons]
      rfl
  | cons gap gaps ih =>
    cases gaps' with
    | nil =>
      refine absurd ?_ htail'
      rw [show tail' = _ from h.symm, skip_gapChars_cons]
      rfl
    | cons gap' gaps' =>
      have hrest : gapChars gaps ++ tail = gapChars gaps' ++ tail' := by
        have hskipped := congrArg skip h
        rw [skip_gapChars_cons, skip_gapChars_cons] at hskipped
        exact (List.cons.inj hskipped).2
      obtain ⟨-, rfl⟩ := ih hrest
      exact ⟨List.append_cancel_right h, rfl⟩

/-! ### Imports with and without dots -/

namespace Tree

/-- The text of the dots in front of the module that a tree imports from. -/
def dotsText? : Tree → Option String
  | .node .fromImport _ (_ :: .node .relativeModule _ (.token dots :: _) :: _) => some dots.text
  | _ => none

/-- The tree imports from behind the dots. -/
def IsRelative (t : Tree) (p : DotPrefix) : Prop :=
  ∃ pos word pos' pos'' modules parts, t = .node .fromImport pos
    (word :: .node .relativeModule pos' (.token ⟨.dots, pos'', p.text⟩ :: modules) :: parts)

def IsAbsolute (t : Tree) : Prop :=
  dotsText? t = none ∧ ∀ level module names wildcard,
    ofTree? t = some (.fromModule level module names wildcard) → level = 0

variable {t t' : Tree} {p p' : DotPrefix}

lemma IsRelative.ofTree?_eq (h : t.IsRelative p) (h' : t'.IsRelative p')
    (hbare : t.bare = t'.bare) :
    ∃ module names wildcard,
      ofTree? t = some (.fromModule (p.dots + p.commentDots) module names wildcard) ∧
      ofTree? t' = some (.fromModule (p'.dots + p'.commentDots) module names wildcard) := by
  obtain ⟨_, _, _, _, modules, parts, rfl⟩ := h
  obtain ⟨_, _, _, _, modules', parts', rfl⟩ := h'
  simp only [bare_node, List.map_cons, node.injEq, List.cons.injEq, true_and] at hbare
  obtain ⟨-, ⟨-, hmodules⟩, hparts⟩ := hbare
  -- the module and the names are read off trees without their places
  have hpath : ∀ ms : List Tree, ms.head?.map dottedPath = (ms.map bare).head?.map dottedPath := by
    intro ms
    cases ms <;> simp
  have hstar : ∀ ts : List Tree,
      ts.any (·.hasKind .wildcard) = (ts.map bare).any (·.hasKind .wildcard) := by
    intro ts
    simp [Function.comp_def]
  refine ⟨(modules.head?.map dottedPath).getD .empty, importedNames parts,
    parts.any (·.hasKind .wildcard), ?_, ?_⟩
  · rw [← p.dotCount_text]
    rfl
  · rw [← p'.dotCount_text, hpath modules, hmodules, ← hpath, ← importedNames_map_bare parts,
      hparts, importedNames_map_bare, hstar parts, hparts, ← hstar]
    rfl

end Tree

/-! ### Reading the dots -/

namespace Statement

variable {nested nested' : Nested} {st st' next next' : State} {t t' : Tree}

lemma dotsStep_eq (c : Cursor) : dotsStep c = (do
    lexeme
    if (← rest).head? = some '.' then
      let _ ← take .symbol 1
      return some (← get).cursor
    else
      return none) := by
  refine bind_congr fun _ => bind_congr fun chars => ?_
  split
  · rfl
  · rename_i hno
    refine (if_neg fun hdot => ?_).symm
    obtain ⟨s, hs⟩ := List.head?_eq_some_iff.mp hdot
    exact hno s hs

/-- A step behind the dots that were read passes a gap and takes one more dot, or ends the loop. -/
lemma dotsStep_eq_ok {c : Cursor} {found : Option Cursor}
    (h : dotsStep c st = .ok (found, st')) :
    ∃ d : Cursor, d.rest = skip st.cursor.rest ∧
      ((∃ s, d.rest = '.' :: s ∧ found = some (d.drop 1) ∧ st' = { st with cursor := d.drop 1 }) ∨
        (d.rest.head? ≠ some '.' ∧ found = none ∧ st' = { st with cursor := d })) := by
  rw [dotsStep_eq] at h
  obtain ⟨⟨⟩, mid, hlexeme, h⟩ := run_bind_eq_ok_iff.mp h
  obtain ⟨d, hd, rfl⟩ := lexeme_eq_ok hlexeme
  refine ⟨d, hd, ?_⟩
  obtain ⟨chars, mid, hrest, h⟩ := run_bind_eq_ok_iff.mp h
  cases hrest
  -- the gap is passed first, so the cursor tells whether a dot is left
  by_cases hdot : d.rest.head? = some '.'
  · rw [if_pos hdot] at h
    cases h
    obtain ⟨s, hs⟩ := List.head?_eq_some_iff.mp hdot
    exact .inl ⟨s, hs, rfl, rfl⟩
  · rw [if_neg hdot] at h
    cases h
    exact .inr ⟨hdot, rfl, rfl⟩

/-- The loop over the dots takes gaps with dots behind them, and the gap behind the last dot. -/
lemma dots_loop_eq_ok {n : ℕ} {c last : Cursor} (hc : c.rest = st.cursor.rest)
    (h : iterate dotsStep n c st = .ok (last, st')) :
    ∃ gaps d, st.cursor.rest = gapChars gaps ++ last.rest ∧ NoDot last.rest ∧
      d.rest = skip last.rest ∧ st' = { st with cursor := d } := by
  induction n generalizing c st with
  | zero => cases h
  | succ n ih =>
    obtain ⟨found, mid, hstep, h⟩ := run_bind_eq_ok_iff.mp h
    obtain ⟨d, hd, ⟨s, hs, rfl, rfl⟩ | ⟨hno, rfl, rfl⟩⟩ := dotsStep_eq_ok hstep
    · -- a dot was taken: the fillers in front of it are the first gap
      obtain ⟨gaps, d', hgaps, hrest⟩ := @ih { st with cursor := d.drop 1 } _ rfl h
      have hdot : skip st.cursor.rest = '.' :: s := hd.symm.trans hs
      obtain ⟨fs, hfs⟩ := exists_fillers st.cursor.rest (by simp [hdot])
      refine ⟨fs :: gaps, d', ?_, hrest⟩
      have hleft : (d.drop 1).rest = s := by
        rw [Cursor.rest_drop, hs, List.drop_one, List.tail_cons]
      rw [hfs, hdot, ← hleft, hgaps]
      simp [gapChars]
    · cases h
      -- no dot was left: the gap behind the last one is passed, but not part of the text
      refine ⟨[], d, hc.symm, ?_, ?_, rfl⟩
      · rwa [NoDot, hc, ← hd]
      · rw [hc, hd]

/-- The dots are read up to the last one, and the gap behind it is passed. -/
lemma dots_eq_ok (hdot : st.cursor.rest.head? = some '.') (h : dots nested st = .ok (t, st')) :
    ∃ (p : DotPrefix) (pos : Position) (tail : List Char) (c : Cursor),
      t = .token ⟨.dots, pos, p.text⟩ ∧ st.cursor.rest = p.chars ++ tail ∧ NoDot tail ∧
        c.rest = skip tail ∧ st' = { st with cursor := c } := by
  obtain ⟨first, mid, hget, h⟩ := run_bind_eq_ok_iff.mp h
  cases hget
  obtain ⟨last, mid, hloop, h⟩ := run_bind_eq_ok_iff.mp h
  cases h
  obtain ⟨gaps, d, hgaps, hno, hd, rfl⟩ := dots_loop_eq_ok rfl hloop
  obtain ⟨s, hs⟩ := List.head?_eq_some_iff.mp hdot
  cases gaps with
  | nil =>
    have hlast : last.rest = '.' :: s := by
      rw [← hs, hgaps, gapChars, List.flatMap_nil, List.nil_append]
    exact absurd (by rw [hlast, skip_dot]; rfl) hno
  | cons gap gaps =>
    -- the first dot is taken by the loop too, and nothing stands in front of it
    have hchars : st.cursor.rest = (DotPrefix.mk gaps).chars ++ last.rest := by
      have hskipped := congrArg skip hgaps
      rw [hs, skip_dot, skip_gapChars_cons] at hskipped
      rw [hs, hskipped]
      rfl
    have htake : st.cursor.rest.take (st.cursor.rest.length - last.rest.length) =
        (DotPrefix.mk gaps).chars := by
      rw [hchars, List.length_append, Nat.add_sub_cancel, List.take_left]
    refine ⟨⟨gaps⟩, st.cursor.position, last.rest, d, ?_, hchars, hno, hd, rfl⟩
    rw [Cursor.upTo, htake, DotPrefix.text]

/-! ### Reading a relative import -/

/-- What is read behind the dots of a relative import: the name of a module, if there is one. -/
def afterDots (nested : Nested) (d : Tree) : Reader Tree := do
  lexeme
  if (← word?).isNone || (← atWord "import") then
    return .node .relativeModule d.position [d]
  return .node .relativeModule d.position [d, ← dottedName nested {}]

/-- What is read behind the module of an import: the imported names or a star. -/
def afterModule (nested : Nested) (word module : Tree) : Reader Tree := do
  let importWord ← nextKeyword "import"
  lexeme
  if ← atSymbol "*" then
    let star ← symbol "*"
    return .node .fromImport word.position
      [word, module, importWord, .node .wildcard star.position [star]]
  let names ← importedList nested
  return .node .fromImport word.position (word :: module :: importWord :: names)

lemma relativeModule_eq : relativeModule nested = dots nested >>= afterDots nested := rfl

lemma agreeOn_afterDots {d d' : Tree} (h : d.bare = d'.bare) :
    AgreeOn Tree.bare (afterDots nested d) (afterDots nested' d') := by
  refine (agreeOn_lexeme _).bind fun _ _ _ => ?_
  refine agreeOn_look fun word => agreeOn_look fun atImport => ?_
  cases hlast : word.isNone || atImport with
  | true => exact agreeOn_pure (by simp [h])
  | false =>
    refine agreeOn_dottedName.bind fun name name' hname => ?_
    exact agreeOn_pure (by simp [h, hname])

lemma agreeOn_afterModule {word word' module module' : Tree} (hword : word.bare = word'.bare)
    (h : module.bare = module'.bare) :
    AgreeOn Tree.bare (afterModule nested word module) (afterModule nested' word' module') := by
  refine (agreeOn_nextKeyword "import" _).bind fun importWord importWord' himport => ?_
  refine (agreeOn_lexeme _).bind fun _ _ _ => ?_
  refine agreeOn_look fun starred => ?_
  cases starred with
  | true =>
    refine (agreeOn_symbol "*").bind fun star star' hstar => ?_
    exact agreeOn_pure (by simp [hword, h, himport, hstar])
  | false =>
    refine agreeOn_importedList.bind fun names names' hnames => ?_
    exact agreeOn_pure (by simp [hword, h, himport, hnames])

lemma dottedName_eq_ok {e : Expect} (h : dottedName nested e st = .ok (t, next)) :
    ∃ pos cs, t = .node .dottedName pos cs := by
  obtain ⟨_, _, _, h⟩ := run_bind_eq_ok_iff.mp h
  obtain ⟨_, _, _, h⟩ := run_bind_eq_ok_iff.mp h
  cases h
  exact ⟨_, _, rfl⟩

lemma afterDots_eq_ok {d : Tree} (h : afterDots nested d st = .ok (t, next)) :
    ∃ pos modules, t = .node .relativeModule pos (d :: modules) := by
  obtain ⟨_, _, _, h⟩ := run_bind_eq_ok_iff.mp h
  obtain ⟨_, _, _, h⟩ := run_bind_eq_ok_iff.mp h
  obtain ⟨_, _, _, h⟩ := run_bind_eq_ok_iff.mp h
  split at h
  · cases h
    exact ⟨_, _, rfl⟩
  · obtain ⟨_, _, _, h⟩ := run_bind_eq_ok_iff.mp h
    cases h
    exact ⟨_, _, rfl⟩

lemma afterModule_eq_ok {word module : Tree}
    (h : afterModule nested word module st = .ok (t, next)) :
    ∃ pos parts, t = .node .fromImport pos (word :: module :: parts) := by
  obtain ⟨_, _, _, h⟩ := run_bind_eq_ok_iff.mp h
  obtain ⟨_, _, _, h⟩ := run_bind_eq_ok_iff.mp h
  obtain ⟨_, _, _, h⟩ := run_bind_eq_ok_iff.mp h
  split at h
  · obtain ⟨_, _, _, h⟩ := run_bind_eq_ok_iff.mp h
    cases h
    exact ⟨_, _, rfl⟩
  · obtain ⟨_, _, _, h⟩ := run_bind_eq_ok_iff.mp h
    cases h
    exact ⟨_, _, rfl⟩

lemma keyword_eq_ok {text : String} (h : keyword text st = .ok (t, st')) :
    t = .token ⟨.keyword, st.cursor.position, .ofList (st.cursor.rest.take text.length)⟩ ∧
      st' = { st with cursor := st.cursor.drop text.length } := by
  obtain ⟨found, mid, hword, h⟩ := run_bind_eq_ok_iff.mp h
  cases hword
  split at h
  · cases h
    exact ⟨rfl, rfl⟩
  · cases h

def fromWord (st : State) : Tree :=
  .token ⟨.keyword, st.cursor.position, .ofList (st.cursor.rest.take 4)⟩

/-- Whether a dot comes behind the word decides whether an import is relative. -/
lemma fromImport_eq_ok (h : fromImport nested st = .ok (t, next)) :
    ∃ c : Cursor, c.rest = skip (st.cursor.rest.drop 4) ∧
      (c.rest.head? = some '.' ∧
          (∃ module mid, relativeModule nested { st with cursor := c } = .ok (module, mid) ∧
            afterModule nested (fromWord st) module mid = .ok (t, next)) ∨
        c.rest.head? ≠ some '.' ∧
          ((∃ pos parts, t = .node .futureImport pos parts) ∨
            ∃ module mid, dottedName nested {} { st with cursor := c } = .ok (module, mid) ∧
              afterModule nested (fromWord st) module mid = .ok (t, next))) := by
  obtain ⟨word, mid, hword, h⟩ := run_bind_eq_ok_iff.mp h
  obtain ⟨rfl, rfl⟩ := keyword_eq_ok hword
  obtain ⟨⟨⟩, mid, hlexeme, h⟩ := run_bind_eq_ok_iff.mp h
  obtain ⟨c, hc, rfl⟩ := lexeme_eq_ok hlexeme
  rw [Cursor.rest_drop] at hc
  refine ⟨c, hc, ?_⟩
  obtain ⟨future, mid, hfuture, h⟩ := run_bind_eq_ok_iff.mp h
  cases hfuture
  by_cases hdot : c.rest.head? = some '.'
  · refine .inl ⟨hdot, ?_⟩
    obtain ⟨s, hs⟩ := List.head?_eq_some_iff.mp hdot
    -- a dot begins no word, so this is not the import that changes the language
    have hword : wordAt c.rest = none := by rw [hs, wordAt_cons (by decide)]
    simp only [hword] at h
    obtain ⟨chars, mid, hrest, h⟩ := run_bind_eq_ok_iff.mp h
    cases hrest
    simp only [hdot] at h
    exact run_bind_eq_ok_iff.mp h
  · refine .inr ⟨hdot, ?_⟩
    split at h
    · -- `from __future__`, which has no dots
      obtain ⟨_, _, _, h⟩ := run_bind_eq_ok_iff.mp h
      obtain ⟨_, _, _, h⟩ := run_bind_eq_ok_iff.mp h
      obtain ⟨_, _, _, h⟩ := run_bind_eq_ok_iff.mp h
      cases h
      exact .inl ⟨_, _, rfl⟩
    · obtain ⟨chars, mid, hrest, h⟩ := run_bind_eq_ok_iff.mp h
      cases hrest
      rw [if_neg (by simpa using hdot)] at h
      exact .inr (run_bind_eq_ok_iff.mp h)

/-- A relative import is read from dots in the text. -/
lemma relative_eq_ok (hdot : (skip (st.cursor.rest.drop 4)).head? = some '.')
    (h : fromImport nested st = .ok (t, next)) :
    ∃ (p : DotPrefix) (pos : Position) (tail : List Char) (c : Cursor) (module : Tree)
      (mid : State),
      skip (st.cursor.rest.drop 4) = p.chars ++ tail ∧ NoDot tail ∧ c.rest = skip tail ∧
        afterDots nested (.token ⟨.dots, pos, p.text⟩) { st with cursor := c } = .ok (module, mid) ∧
        afterModule nested (fromWord st) module mid = .ok (t, next) := by
  obtain ⟨c, hc, ⟨hdot', module, mid, hmodule, h⟩ | ⟨hno, -⟩⟩ := fromImport_eq_ok h
  · rw [relativeModule_eq] at hmodule
    obtain ⟨d, mid', hdots, hmodule⟩ := run_bind_eq_ok_iff.mp hmodule
    obtain ⟨p, pos, tail, c', rfl, hchars, hno, hc', rfl⟩ := dots_eq_ok hdot' hdots
    exact ⟨p, pos, tail, c', module, mid, hc.symm.trans hchars, hno, hc', hmodule, h⟩
  · exact absurd (hc ▸ hdot) hno

lemma relative_eq_ok_of_text {lead : List Filler} {p : DotPrefix} {tail : List Char}
    (htext : st.cursor.rest = "from".toList ++ lead.flatMap Filler.chars ++ p.chars ++ tail)
    (hno : NoDot tail) (h : fromImport nested st = .ok (t, next)) :
    (fromWord st).bare = .token ⟨.keyword, .start, "from"⟩ ∧
    ∃ (pos : Position) (c : Cursor) (module : Tree) (mid : State), c.rest = skip tail ∧
      afterDots nested (.token ⟨.dots, pos, p.text⟩) { st with cursor := c } = .ok (module, mid) ∧
      afterModule nested (fromWord st) module mid = .ok (t, next) := by
  have hfour : "from".toList.length = 4 := rfl
  simp only [List.append_assoc] at htext
  -- behind the word and the fillers the first dot comes
  have hskip : skip (st.cursor.rest.drop 4) = p.chars ++ tail := by
    rw [htext, ← hfour, List.drop_left, skip_fillers]
    exact skip_dot
  constructor
  · rw [fromWord, htext, ← hfour, List.take_left, String.ofList_toList]
    simp [Token.bare]
  · obtain ⟨p', pos, tail', c, module, mid, hchars, hno', hc, hmodule, h⟩ :=
      relative_eq_ok (by rw [hskip]; rfl) h
    obtain ⟨hgaps, rfl⟩ := gapChars_unique (List.cons.inj (hskip.symm.trans hchars)).2 hno hno'
    have hp : p'.text = p.text := by
      rw [DotPrefix.text, DotPrefix.chars, ← hgaps]
      rfl
    exact ⟨pos, c, module, mid, hc, hp ▸ hmodule, h⟩

lemma isRelative_or_isAbsolute (h : fromImport nested st = .ok (t, next)) :
    (∃ p, t.IsRelative p) ∨ t.IsAbsolute := by
  obtain ⟨c, hc, ⟨hdot, -⟩ | ⟨-, ⟨pos, parts, rfl⟩ | ⟨module, mid, hmodule, h⟩⟩⟩ :=
    fromImport_eq_ok h
  · obtain ⟨p, pos, tail, c', module, mid, -, -, -, hmodule, h⟩ := relative_eq_ok (hc ▸ hdot) h
    obtain ⟨pos', modules, rfl⟩ := afterDots_eq_ok hmodule
    obtain ⟨pos'', parts, rfl⟩ := afterModule_eq_ok h
    exact .inl ⟨p, _, _, _, _, _, _, rfl⟩
  · refine .inr ⟨rfl, ?_⟩
    rintro _ _ _ _ ⟨⟩
    rfl
  · obtain ⟨pos, cs, rfl⟩ := dottedName_eq_ok hmodule
    obtain ⟨pos', parts, rfl⟩ := afterModule_eq_ok h
    refine .inr ⟨rfl, ?_⟩
    rintro _ _ _ _ ⟨⟩
    rfl

/-- Two readings of a relative import whose dots are written in two ways. -/
lemma bare_eq_of_fromImport {lead lead' : List Filler} {p p' : DotPrefix} {tail : List Char}
    (h : fromImport nested st = .ok (t, next)) (h' : fromImport nested' st' = .ok (t', next'))
    (htext : st.cursor.rest = "from".toList ++ lead.flatMap Filler.chars ++ p.chars ++ tail)
    (htext' : st'.cursor.rest = "from".toList ++ lead'.flatMap Filler.chars ++ p'.chars ++ tail)
    (hno : NoDot tail) (hblocks : st.blocks = st'.blocks) (hformat : st.inFormat = st'.inFormat) :
    t.IsRelative p ∧ t'.IsRelative p' ∧ t.bare = t'.bare ∧ next.bare = next'.bare := by
  obtain ⟨hword, pos, c, module, mid, hc, hmodule, h⟩ := relative_eq_ok_of_text htext hno h
  obtain ⟨hword', pos', c', module', mid', hc', hmodule', h'⟩ :=
    relative_eq_ok_of_text htext' hno h'
  -- behind the dots both readers see the same text, in states that differ in places only
  have hstart : State.bare { st with cursor := c } = State.bare { st' with cursor := c' } :=
    State.bare_eq_iff.mpr ⟨hc.trans hc'.symm, hblocks, hformat⟩
  have hdots : (Tree.token ⟨.dots, pos, p.text⟩).bare =
      (Tree.token ⟨.dots, pos', p'.text⟩).bare := by
    simp [Token.bare]
  obtain ⟨hmodules, hmid⟩ := agreeOn_afterDots hdots hstart hmodule hmodule'
  obtain ⟨htrees, hnext⟩ := agreeOn_afterModule (hword.trans hword'.symm) hmodules hmid h h'
  obtain ⟨_, modules, rfl⟩ := afterDots_eq_ok hmodule
  obtain ⟨_, modules', rfl⟩ := afterDots_eq_ok hmodule'
  obtain ⟨_, parts, rfl⟩ := afterModule_eq_ok h
  obtain ⟨_, parts', rfl⟩ := afterModule_eq_ok h'
  exact ⟨⟨_, _, _, _, _, _, rfl⟩, ⟨_, _, _, _, _, _, rfl⟩, htrees, hnext⟩

lemma isAbsolute_importStatement (h : importStatement nested st = .ok (t, next)) :
    t.IsAbsolute := by
  obtain ⟨_, _, _, h⟩ := run_bind_eq_ok_iff.mp h
  obtain ⟨_, _, _, h⟩ := run_bind_eq_ok_iff.mp h
  cases h
  refine ⟨rfl, ?_⟩
  rintro _ _ _ _ ⟨⟩

end Statement

open Statement

abbrev prefixedImports : ImportProperty where
  Holds t := (∃ p, t.IsRelative p) ∨ t.IsAbsolute
  importStatement _ := gives_iff.mpr fun _ _ _ h => .inr (isAbsolute_importStatement h)
  fromImport _ := gives_iff.mpr fun _ _ _ h => isRelative_or_isAbsolute h

/-- **The level of a relative import.** In the tree of every source text, an import that begins with
dots has the number of its dots, and of the dots in the comments between them, as its level; without
dots the level is zero. Whatever stands between the dots, and before the first one, does not change
what else is read: two imports with the same text behind the last dot, read wherever they stand
inside the same blocks, are from the same module, of the same names and end at the same place in the
text. So their statements are the same if there are no dots in the comments. -/
theorem relative_import_level {source : String} {tree : Tree}
    (htree : Tree.ofSource source = .ok tree) :
    (∀ t ∈ tree.preorder, ∀ level module names wildcard,
      ofTree? t = some (.fromModule level module names wildcard) →
      (Tree.dotsText? t = none ∧ level = 0) ∨
        ∃ p : DotPrefix, Tree.dotsText? t = some p.text ∧ level = p.dots + p.commentDots) ∧
    ∀ (nested nested' : Nested) (st st' next next' : State) (t t' : Tree)
      (lead lead' : List Filler) (p p' : DotPrefix) (tail : List Char),
      fromImport nested st = .ok (t, next) → fromImport nested' st' = .ok (t', next') →
      st.cursor.rest = "from".toList ++ lead.flatMap Filler.chars ++ p.chars ++ tail →
      st'.cursor.rest = "from".toList ++ lead'.flatMap Filler.chars ++ p'.chars ++ tail →
      NoDot tail → st.blocks = st'.blocks → st.inFormat = st'.inFormat →
      (∃ module names wildcard,
        ofTree? t = some (.fromModule (p.dots + p.commentDots) module names wildcard) ∧
        ofTree? t' = some (.fromModule (p'.dots + p'.commentDots) module names wildcard)) ∧
      next.cursor.rest = next'.cursor.rest ∧ next.blocks = next'.blocks ∧
      next.inFormat = next'.inFormat := by
  constructor
  · intro t ht level module names wildcard hs
    -- the property of imports that the parser keeps holds of every node of the tree
    have htidy := @tidy_ofSource prefixedImports _ _ htree
    rcases @Tree.holds_of_tidy _ _ prefixedImports _ htidy ht hs with ⟨p, hp⟩ | habsolute
    · obtain ⟨_, _, _, hlevel, -⟩ := hp.ofTree?_eq hp rfl
      rw [hs] at hlevel
      cases hlevel
      obtain ⟨_, _, _, _, _, _, rfl⟩ := hp
      exact .inr ⟨p, rfl, rfl⟩
    · exact .inl ⟨habsolute.1, habsolute.2 level module names wildcard hs⟩
  · intro nested nested' st st' next next' t t' lead lead' p p' tail h h' htext htext' hno hblocks
      hformat
    obtain ⟨hp, hp', htrees, hnext⟩ :=
      bare_eq_of_fromImport h h' htext htext' hno hblocks hformat
    exact ⟨hp.ofTree?_eq hp' htrees, State.bare_eq_iff.mp hnext⟩

/-- Two dots with a comment between them that has a dot in it. -/
def commentedDots : DotPrefix where
  gaps := [[.blank ' ' rfl, .comment [' ', 'a', '.', 'b'] (by decide), .blank ' ' rfl]]

def closeDots : DotPrefix where
  gaps := [[]]

lemma exists_commented_import :
    ∃ tree t, Tree.ofSource "from . # a.b\n . import x\n" = .ok tree ∧ t ∈ tree.preorder ∧
      Tree.dotsText? t = some commentedDots.text ∧
      ofTree? t = some (.fromModule 3 .empty ["x"] false) := by
  have hread : (Tree.ofSource "from . # a.b\n . import x\n").toOption.map (fun tree =>
      tree.preorder.filterMap fun t => (Tree.dotsText? t).bind fun text =>
        (ofTree? t).map (text, ·)) =
      some [(commentedDots.text, .fromModule 3 .empty ["x"] false)] := by
    decide +kernel
  obtain ⟨tree, htree, hread⟩ := Option.map_eq_some_iff.mp hread
  obtain ⟨t, ht, hboth⟩ := List.mem_filterMap.mp (hread ▸ List.mem_singleton.mpr rfl)
  obtain ⟨text, htext, hboth⟩ := Option.bind_eq_some_iff.mp hboth
  obtain ⟨s, hs, hboth⟩ := Option.map_eq_some_iff.mp hboth
  cases hboth
  exact ⟨tree, t, toOption_eq_some_iff.mp htree, ht, htext, hs⟩

/-- The level in the tree of a text, and the same import read with a comment between its dots and
without one. -/
theorem relative_import_level_commented :
    (∃ tree, Tree.ofSource "from . # a.b\n . import x\n" = .ok tree ∧
      ∃ t ∈ tree.preorder, ∃ p : DotPrefix, Tree.dotsText? t = some p.text ∧
        p.dots + p.commentDots = 3) ∧
    ∃ t t' module names wildcard,
      (∃ next, fromImport ⟨40, expression 40⟩ ⟨.ofString "from . # a.b\n . import x\n", [], false⟩ =
        .ok (t, next)) ∧
      (∃ next, fromImport ⟨40, expression 40⟩ ⟨.ofString "from .. import x\n", [], false⟩ =
        .ok (t', next)) ∧
      ofTree? t = some (.fromModule 3 module names wildcard) ∧
      ofTree? t' = some (.fromModule 2 module names wildcard) := by
  obtain ⟨tree, t, htree, ht, htext, hs⟩ := exists_commented_import
  constructor
  · obtain ⟨hnone, -⟩ | ⟨p, hp, hlevel⟩ := (relative_import_level htree).1 t ht 3 _ _ _ hs
    · rw [htext] at hnone
      cases hnone
    · exact ⟨tree, htree, t, ht, p, hp, hlevel.symm⟩
  · obtain ⟨⟨t, next⟩, h⟩ : ∃ r, fromImport ⟨40, expression 40⟩
        ⟨.ofString "from . # a.b\n . import x\n", [], false⟩ = .ok r :=
      exists_ok_of_isSome (by decide +kernel)
    obtain ⟨⟨t', next'⟩, h'⟩ : ∃ r, fromImport ⟨40, expression 40⟩
        ⟨.ofString "from .. import x\n", [], false⟩ = .ok r :=
      exists_ok_of_isSome (by decide +kernel)
    obtain ⟨⟨module, names, wildcard, hs, hs'⟩, -⟩ :=
      (relative_import_level htree).2 _ _ _ _ _ _ t t' [.blank ' ' rfl] [.blank ' ' rfl]
        commentedDots closeDots " import x\n".toList h h' (by decide) (by decide)
        (show (skip _).head? ≠ _ by decide +kernel) rfl rfl
    exact ⟨t, t', module, names, wildcard, ⟨next, h⟩, ⟨next', h'⟩, hs, hs'⟩

/-- A dot in a comment between the dots is counted, so the level is not always the number of the
dots. -/
theorem relative_import_level_dot_in_comment :
    ¬∀ source tree, Tree.ofSource source = .ok tree → ∀ t ∈ tree.preorder, ∀ p : DotPrefix,
      Tree.dotsText? t = some p.text → ∀ level module names wildcard,
        ofTree? t = some (.fromModule level module names wildcard) → level = p.dots := by
  intro hclaim
  obtain ⟨tree, t, htree, ht, htext, hs⟩ := exists_commented_import
  exact absurd (hclaim _ tree htree t ht commentedDots htext _ _ _ _ hs) (by decide)

end ImportAtlas.Source
