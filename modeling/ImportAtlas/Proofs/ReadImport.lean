import ImportAtlas.Proofs.InertImport
import ImportAtlas.Proofs.ReadName

/-!
Import statements read back: the module with its dots, and what is imported from it.
-/

namespace ImportAtlas.Program

open ImportAtlas.Text ImportAtlas.Source ImportAtlas.Source.Reader ImportStatement

variable {nested : Nested} {s t w : List Char} {bs : List ℕ} {b : Place} {n : ℕ}

lemma closes_lineText (ht : Begins n t) : Closes Statement.ending bs (lineText n t) :=
  .mark .newline (stops_cons (by decide)) (yields_next_newline ht rfl rfl rfl)

/-! ### Modules that are imported -/

lemma yields_modules {first : ImportedName} {others : List ImportedName}
    (hrounds : (ImportedName.listChars first others).length < nested.rounds)
    (ht : Begins n t) :
    (Statement.importStatement nested).Yields
      ⟨"import".toList ++ ' ' :: (ImportedName.listChars first others ++ lineText n t), bs⟩
      (fun t => ofTree? t = some (Import.modules first others).statement) ⟨lineText n t, bs⟩ := by
  unfold Statement.importStatement
  refine (yields_keyword_space (by decide)).bind ?_
  rintro _ ⟨p, rfl⟩
  refine (yields_importedNames false hrounds (yields_next_space solid_listChars)
    (closes_lineText ht)).bind fun names hnames => ?_
  refine yields_pure ?_
  simp only [ofTree?, Import.statement, List.filterMap_cons, importedPath?, hnames.1]

/-! ### The module that is imported from -/

def Origin.IsTree (o : Origin) (t : Tree) : Prop := source t = (o.level, o.path)

lemma yields_get {α : Type} {a : Place} {P : α → Prop} {f : State → Reader α}
    (h : ∀ st, st.IsAt a → (f st).Yields a P b) : (get >>= f).Yields a P b :=
  fun st hst => h st hst st hst

lemma yields_dotsStep {c : Cursor} :
    (Statement.dotsStep c).Yields ⟨'.' :: s, bs⟩ (fun next => ∃ c, next = some c ∧ c.rest = s)
      ⟨s, bs⟩ := by
  unfold Statement.dotsStep
  refine (yields_next_solid (solid_cons (by decide))).lexeme.then ?_
  simp only [yields_look, id]
  have htake : (take .symbol 1).Yields ⟨'.' :: s, bs⟩ _ ⟨s, bs⟩ := @yields_take ['.'] s bs _
  refine htake.bind fun _ _ => yields_get fun st hst => ?_
  exact yields_pure ⟨_, rfl, hst.rest⟩

lemma yields_dotsStep_end {c : Cursor} (hnext : (next {}).Yields ⟨s, bs⟩ (· = .lexeme) ⟨w, bs⟩)
    (hw : w.head? ≠ some '.') :
    (Statement.dotsStep c).Yields ⟨s, bs⟩ (· = none) ⟨w, bs⟩ := by
  unfold Statement.dotsStep
  refine hnext.lexeme.then ?_
  simp only [yields_look, id]
  split
  · rename_i t
    exact absurd rfl hw
  · exact yields_pure rfl

/-- The loop over the dots ends with the cursor behind the last of them. -/
lemma yields_dotsRest {k n : ℕ} {c : Cursor} (hn : k < n)
    (hend : ∀ c, (Statement.dotsStep c).Yields ⟨s, bs⟩ (· = none) b) (hc : k = 0 → c.rest = s) :
    (iterate Statement.dotsStep n c).Yields ⟨List.replicate k '.' ++ s, bs⟩ (·.rest = s) b := by
  induction k generalizing n c with
  | zero => exact yields_iterate_none hn (hend c) (hc rfl)
  | succ k ih =>
    obtain _ | n := n
    · cases hn
    rw [List.replicate_succ, List.cons_append]
    refine yields_iterate_some yields_dotsStep fun c hc => ?_
    refine ih (Nat.lt_of_succ_lt_succ hn) fun hk => ?_
    rw [hc, hk]
    rfl

lemma yields_dots {k : ℕ} (hk : k + 1 < nested.rounds)
    (hend : ∀ c, (Statement.dotsStep c).Yields ⟨s, bs⟩ (· = none) b) :
    (Statement.dots nested).Yields ⟨List.replicate (k + 1) '.' ++ s, bs⟩
      (fun t => ∃ p, t = .token ⟨.dots, p, .ofList (List.replicate (k + 1) '.')⟩) b := by
  unfold Statement.dots
  refine yields_get fun st hst => ?_
  have hloop := @yields_dotsRest s bs b (k + 1) nested.rounds st.cursor hk hend nofun
  refine hloop.bind fun last hlast => ?_
  refine yields_pure ⟨st.cursor.position, ?_⟩
  rw [Cursor.upTo, hst.rest, hlast, List.length_append, Nat.add_sub_cancel, List.take_left]

lemma dotCount_replicate (k : ℕ) : dotCount (.ofList (List.replicate k '.')) = k := by
  rw [dotCount, String.toList_ofList, List.count_replicate_self]

lemma Origin.solid_chars (o : Origin) (s : List Char) : Solid (o.chars ++ s) := by
  cases o with
  | absolute m =>
    rw [chars, DottedName.chars, List.append_assoc]
    exact solid_word m.first.isWord_chars
  | relative k m => cases m <;> exact solid_cons (by decide)

/-- No module that is imported from is the one that changes the language. -/
lemma Origin.wordAt_ne (o : Origin) (hs : Stops s) :
    wordAt (o.chars ++ s) ≠ some "__future__" := by
  cases o with
  | absolute m =>
    rw [chars, DottedName.chars, List.append_assoc, m.first.wordAt_chars (stops_dottedRest hs)]
    exact fun h => m.first.text_ne (by decide) (Option.some.inj h)
  | relative k m =>
    have hword : ∀ t, wordAt ('.' :: t) ≠ some "__future__" := by
      intro t
      rw [wordAt_cons (by decide)]
      exact (Option.some_ne_none _).symm
    cases m <;> exact hword _

lemma head?_word (hw : isWord w = true) : (w ++ s).head? ≠ some '.' := by
  intro h
  obtain _ | ⟨c, w⟩ := w
  · cases hw
  · obtain rfl := Option.some.inj h
    cases isNameStart_of_isWord hw

lemma DottedName.head?_chars (m : DottedName) : (m.chars ++ s).head? ≠ some '.' := by
  rw [chars, List.append_assoc]
  exact head?_word m.first.isWord_chars

/-- The dots of a relative import are read, and the name of the module behind them. -/
lemma yields_relativeModule {k : ℕ} {m? : Option DottedName}
    (hrounds : (Origin.relative k m?).chars.length < nested.rounds) (hw : isWord w = true)
    (himport : wordAt (w ++ s) = some "import") :
    (Statement.relativeModule nested).Yields
      ⟨(Origin.relative k m?).chars ++ ' ' :: (w ++ s), bs⟩ (Origin.relative k m?).IsTree
      ⟨w ++ s, bs⟩ := by
  unfold Statement.relativeModule
  cases m? with
  | none =>
    rw [Origin.chars, List.length_replicate] at hrounds
    refine (yields_dots hrounds fun c =>
      yields_dotsStep_end (yields_next_space (solid_word hw)) (head?_word hw)).bind ?_
    rintro _ ⟨p, rfl⟩
    -- `import` behind the dots means that there is no module
    refine (yields_next_solid (solid_word hw)).lexeme.then ?_
    simp only [yields_look, himport, decide_true, Bool.or_true, if_true]
    refine yields_pure ?_
    rw [Origin.IsTree, source, dotCount_replicate]
    rfl
  | some m =>
    rw [Origin.chars, List.length_append, List.length_replicate] at hrounds
    have hsolid : Solid (m.chars ++ ' ' :: (w ++ s)) := (Origin.absolute m).solid_chars _
    -- a word behind the dots other than `import` begins the name of a module
    have hword : wordAt (m.chars ++ ' ' :: (w ++ s)) = some m.first.text := by
      rw [DottedName.chars, List.append_assoc]
      exact m.first.wordAt_chars (stops_dottedRest (stops_cons (by decide)))
    have hne : m.first.text ≠ "import" := m.first.text_ne (by decide)
    rw [Origin.chars, List.append_assoc]
    refine (yields_dots (by omega) fun c =>
      yields_dotsStep_end (yields_next_solid hsolid) m.head?_chars).bind ?_
    rintro _ ⟨p, rfl⟩
    refine (yields_next_solid hsolid).lexeme.then ?_
    simp only [yields_look, hword, Option.isNone_some, Option.some.injEq, hne, decide_false,
      Bool.or_self, Bool.false_eq_true, if_false]
    refine (yields_dottedName (by omega) (stops_cons (by decide))
      fun _ => yields_dottedStep_space hw).bind fun d hd => ?_
    refine yields_pure ?_
    rw [Origin.IsTree, source, dotCount_replicate, List.head?_cons, Option.map_some,
      Option.getD_some, hd.dottedPath_eq]
    rfl

lemma yields_origin {o : Origin} {P : Tree → Prop} {f : Tree → Reader Tree}
    (hrounds : o.chars.length < nested.rounds) (hw : isWord w = true)
    (himport : wordAt (w ++ s) = some "import")
    (hf : ∀ m, o.IsTree m → (f m).Yields ⟨w ++ s, bs⟩ P b) :
    (if (o.chars ++ ' ' :: (w ++ s)).head? == some '.' then Statement.relativeModule nested >>= f
      else Statement.dottedName nested {} >>= f).Yields ⟨o.chars ++ ' ' :: (w ++ s), bs⟩ P b := by
  cases o with
  | absolute m =>
    rw [if_neg (by rw [beq_iff_eq]; exact m.head?_chars)]
    refine (yields_dottedName hrounds.le (stops_cons (by decide))
      fun _ => yields_dottedStep_space hw).bind fun d hd => hf d ?_
    have hpath := hd.dottedPath_eq
    obtain ⟨p, cs, rfl, -⟩ := hd
    exact congrArg (Prod.mk 0) hpath
  | relative k m? =>
    -- the reader takes the first character as the sign of a relative import
    have hdot : ((Origin.relative k m?).chars ++ ' ' :: (w ++ s)).head? = some '.' := by
      cases m? <;> rfl
    rw [hdot, if_pos (by decide)]
    exact (yields_relativeModule hrounds hw himport).bind hf

/-! ### What is imported -/

/-- A list of names begins with no operator, unless a bracket opens it. -/
lemma symbolAt_list (first : ImportedName) (others : List ImportedName) (brackets comma : Bool) :
    symbolAt ((Names.list first others brackets comma).chars ++ s) =
      if brackets then some "(" else none := by
  cases brackets with
  | true => rfl
  | false =>
    obtain ⟨t, ht⟩ := first.word_chars
    simp only [Names.chars, ImportedName.listChars, ht, List.append_assoc, Bool.false_eq_true,
      if_false]
    exact symbolAt_word first.target.first.isWord_chars

lemma solid_list (first : ImportedName) (others : List ImportedName) (brackets comma : Bool) :
    Solid ((Names.list first others brackets comma).chars ++ s) := by
  cases brackets with
  | true => exact solid_cons (by decide)
  | false =>
    simp only [Names.chars, List.append_assoc, Bool.false_eq_true, if_false]
    exact solid_listChars

lemma length_listChars_le (first : ImportedName) (others : List ImportedName)
    (brackets comma : Bool) :
    (ImportedName.listChars first others).length ≤
      (Names.list first others brackets comma).chars.length := by
  cases brackets with
  | true =>
    simp only [Names.chars, if_true, List.length_append, List.length_cons]
    omega
  | false =>
    simp only [Names.chars, Bool.false_eq_true, if_false, List.length_append]
    omega

lemma yields_importedList {first : ImportedName} {others : List ImportedName}
    (brackets comma : Bool) (hrounds : (ImportedName.listChars first others).length < nested.rounds)
    (ht : Begins n t) :
    (Statement.importedList nested).Yields
      ⟨(Names.list first others brackets comma).chars ++ lineText n t, bs⟩
      (AreNames ((first :: others).map fun n => n.target.path)) ⟨lineText n t, bs⟩ := by
  have hsymbol := @symbolAt_list (lineText n t) first others brackets comma
  unfold Statement.importedList
  refine (yields_next_solid (solid_list ..)).lexeme.then ?_
  cases brackets with
  | false =>
    simp only [yields_look, hsymbol, Bool.false_eq_true, if_false, reduceCtorEq, decide_false]
    simp only [Names.chars, Bool.false_eq_true, if_false, List.append_assoc]
    exact yields_importedNames comma hrounds (yields_next_solid solid_listChars)
      (closes_lineText ht)
  | true =>
    simp only [yields_look, hsymbol, if_true, decide_true]
    simp only [Names.chars, if_true, List.cons_append, List.append_assoc, List.nil_append]
    refine (yields_mark (by decide) rfl).bind ?_
    rintro _ ⟨p, rfl⟩
    -- in brackets the names end at the closing one
    refine (yields_importedNames comma hrounds (yields_next_solid solid_listChars)
      (.bracket _)).bind fun names hnames => ?_
    refine (yields_nextSymbol (yields_next_solid (solid_cons (by decide)))
      (yields_mark (by decide) rfl)).bind ?_
    rintro _ ⟨q, rfl⟩
    refine yields_pure ?_
    simpa using ((areNames_token _).append hnames).append (areNames_token _)

lemma yields_names {o : Origin} {ns : Names}
    (hrounds : (o.chars ++ ns.chars).length < nested.rounds) (ht : Begins n t) :
    (Statement.fromImport nested).Yields
      ⟨"from".toList ++ ' ' ::
        (o.chars ++ ' ' :: ("import".toList ++ ' ' :: (ns.chars ++ lineText n t))), bs⟩
      (fun t => ofTree? t = some (Import.names o ns).statement) ⟨lineText n t, bs⟩ := by
  have himport : wordAt ("import".toList ++ ' ' :: (ns.chars ++ lineText n t)) = some "import" :=
    wordAt_text (by decide) (stops_cons (by decide))
  -- `from __future__` is read in another way, but no module here is called like that
  have hfuture := o.wordAt_ne (s := ' ' :: ("import".toList ++ ' ' :: (ns.chars ++ lineText n t)))
    (stops_cons (by decide))
  rw [List.length_append] at hrounds
  unfold Statement.fromImport
  refine (yields_keyword_space (by decide)).bind ?_
  rintro _ ⟨p, rfl⟩
  refine (yields_next_space (o.solid_chars _)).lexeme.then ?_
  simp only [yields_look, hfuture, decide_false, Bool.false_eq_true, if_false, id]
  refine yields_origin (by omega) (by decide) himport fun m hm => ?_
  refine (yields_nextKeyword (yields_next_solid (solid_word (by decide)))
    (yields_keyword himport)).bind ?_
  rintro _ ⟨q, rfl⟩
  cases ns with
  | star =>
    have hstar : symbolAt ('*' :: lineText n t) = some "*" := rfl
    rw [Names.chars, List.singleton_append]
    refine (yields_next_space (solid_cons (by decide))).lexeme.then ?_
    simp only [yields_look, hstar, decide_true, if_true]
    refine (yields_mark (by decide) hstar).bind ?_
    rintro _ ⟨r, rfl⟩
    refine yields_pure ?_
    rw [ofTree?, hm]
    rfl
  | list first others brackets comma =>
    have hfit := length_listChars_le first others brackets comma
    -- no list of names begins with a star
    have hsymbol : symbolAt ((Names.list first others brackets comma).chars ++ lineText n t) ≠
        some "*" := by
      rw [symbolAt_list]
      cases brackets <;> decide
    refine (yields_next_space (solid_list ..)).lexeme.then ?_
    simp only [yields_look, hsymbol, decide_false, Bool.false_eq_true, if_false]
    refine (yields_importedList brackets comma (by omega) ht).bind fun names hnames => ?_
    refine yields_pure ?_
    rw [ofTree?, hm]
    simp only [importedNames, List.filterMap_cons, List.any_cons, importedPath?, hnames.1, hnames.2,
      List.map_map]
    rfl

/-! ### Whole imports -/

lemma filterMap_preorderAll {ts : List Tree} (h : Tree.AllInert ts) :
    (Tree.preorderAll ts).filterMap ofTree? = [] := by
  rw [List.filterMap_eq_nil_iff]
  intro u hu
  obtain ⟨t, ht, hu⟩ := Tree.mem_preorderAll.mp hu
  exact (h t ht u hu).not_import

/-- Nothing within an import is an import of its own. -/
lemma importStatements_of_inert {t : Tree} {i : ImportStatement} (h : ofTree? t = some i)
    (hparts : Tree.AllInert t.children) : t.importStatements = [i] := by
  cases t with
  | token t => cases h
  | node k p cs =>
    rw [Tree.importStatements, Tree.preorder, List.filterMap_cons_some h]
    exact congrArg (i :: ·) (filterMap_preorderAll hparts)

lemma yields_import {i : Import} (hrounds : i.chars.length < nested.rounds) (ht : Begins n t) :
    (Statement.simple nested).Yields ⟨i.chars ++ lineText n t, bs⟩
      (fun t => t.importStatements = [i.statement]) ⟨lineText n t, bs⟩ := by
  rw [Import.chars, List.length_append, List.length_cons] at hrounds
  rw [Import.chars, List.append_assoc, List.cons_append]
  unfold Statement.simple
  cases i with
  | modules first others =>
    rw [Import.argument] at hrounds
    have hword : wordAt ("import".toList ++ ' ' ::
        (ImportedName.listChars first others ++ lineText n t)) = some "import" :=
      wordAt_text (by decide) (stops_cons (by decide))
    have hread := @yields_modules nested t bs n first others (by omega) ht
    simp only [Import.word, Import.argument, yields_look, hword]
    -- nothing within the statement is one, so it is the only one of its tree
    exact (hread.and_gives (Tree.gives_importStatement nested)).mono
      fun t ht => importStatements_of_inert ht.1 ht.2
  | names o ns =>
    simp only [Import.argument, List.length_append, List.length_cons] at hrounds
    have hword : wordAt ("from".toList ++ ' ' ::
        (o.chars ++ ' ' :: ("import".toList ++ ' ' :: (ns.chars ++ lineText n t)))) = some "from" :=
      wordAt_text (by decide) (stops_cons (by decide))
    have hread := @yields_names nested t bs n o ns (by rw [List.length_append]; omega) ht
    simp only [Import.word, Import.argument, List.append_assoc, List.cons_append, yields_look,
      hword]
    exact (hread.and_gives (Tree.gives_fromImport nested)).mono
      fun t ht => importStatements_of_inert ht.1 ht.2

end ImportAtlas.Program
