import ImportAtlas.Proofs.GapText
import ImportAtlas.Proofs.ImportProgram
import Mathlib.Algebra.BigOperators.Group.List.Basic
import Mathlib.Tactic.Tauto

/-!
Names read back: identifiers, dotted names, and lists of imported names with their aliases.
-/

namespace ImportAtlas.Program

open ImportAtlas.Text ImportAtlas.Source ImportAtlas.Source.Reader ImportStatement

/-! ### Identifiers -/

lemma toNat_lt_of_isOther {c : Char} (h : isOther c = true) : c.toNat < 128 := by
  have h0 : '0'.val.toNat = 48 := rfl
  have h9 : '9'.val.toNat = 57 := rfl
  have hA : 'A'.val.toNat = 65 := rfl
  have hZ : 'Z'.val.toNat = 90 := rfl
  have ha : 'a'.val.toNat = 97 := rfl
  have hz : 'z'.val.toNat = 122 := rfl
  simp only [isOther, Char.isAlphanum, Char.isAlpha, Char.isUpper, Char.isLower, Char.isDigit,
    Bool.or_eq_true, Bool.and_eq_true, decide_eq_true_eq, UInt32.le_iff_toNat_le, ge_iff_le,
    beq_iff_eq] at h
  rcases h with h | rfl
  · simp only [Char.toNat]
    omega
  · decide

lemma isOther_of_isFirst {c : Char} (h : isFirst c = true) : isOther c = true := by
  simp only [isFirst, isOther, Char.isAlphanum, Bool.or_eq_true] at h ⊢
  tauto

lemma isNameContinue_of_isOther {c : Char} (h : isOther c = true) : isNameContinue c = true := by
  rw [isNameContinue, if_pos (toNat_lt_of_isOther h)]
  exact h

namespace Identifier

variable {x : Identifier} {e : Expect} {s : List Char} {bs : List ℕ}

lemma isWord_chars (x : Identifier) : isWord x.chars = true := by
  have hascii := toNat_lt_of_isOther (isOther_of_isFirst x.isFirst_first)
  have hothers : x.others.all isNameContinue = true := by
    have h := x.isOther_others
    rw [List.all_eq_true] at h ⊢
    exact fun c hc => isNameContinue_of_isOther (h c hc)
  have hstart : isNameStart x.first = true := by
    rw [isNameStart, if_pos hascii]
    exact x.isFirst_first
  simp only [chars, isWord, hascii, hstart, hothers, decide_true, Bool.and_self]

lemma text_ne {w : String} (hw : w ∈ reservedWords) : x.text ≠ w := by
  rintro rfl
  exact x.free hw

lemma wordAt_chars (hs : Stops s) : wordAt (x.chars ++ s) = some x.text :=
  wordAt_word x.isWord_chars hs

def IsToken (x : Identifier) (t : Tree) : Prop := ∃ p, t = .token ⟨.name, p, x.text⟩

lemma yields_name (hs : Stops s) : name.Yields ⟨x.chars ++ s, bs⟩ x.IsToken ⟨s, bs⟩ :=
  Reader.yields_name (wordLength_word x.isWord_chars hs) (isWord_ne_nil x.isWord_chars)

lemma yields_nextName (hs : Stops s) :
    (nextName e).Yields ⟨' ' :: (x.chars ++ s), bs⟩ x.IsToken ⟨s, bs⟩ :=
  Reader.yields_nextName (yields_next_space (solid_word x.isWord_chars)) (x.yields_name hs)

end Identifier

/-! ### Dotted names -/

def DottedName.IsTree (n : DottedName) (t : Tree) : Prop :=
  ∃ p cs, t = .node .dottedName p cs ∧ cs.filterMap Tree.name? = n.path.segments

variable {nested : Nested} {e : Expect} {s w : List Char} {bs : List ℕ} {b : Place}

/-- What stands behind the last of some names: a mark, or a closing bracket. -/
inductive Closes (e : Expect) (bs : List ℕ) : List Char → Prop where
  | mark {s : List Char} (m : Mark) (hs : Stops s)
      (h : (next e).Yields ⟨s, bs⟩ (· = .mark m) ⟨s, bs⟩) : Closes e bs s
  | bracket (s : List Char) : Closes e bs (')' :: s)

/-- What stands behind a name: a comma, or what stands behind the last name. -/
inductive Delimits (e : Expect) (bs : List ℕ) : List Char → Prop where
  | comma (s : List Char) : Delimits e bs (',' :: s)
  | closes {s : List Char} (h : Closes e bs s) : Delimits e bs s

lemma Delimits.stops (h : Delimits e bs s) : Stops s := by
  rcases h with _ | ⟨⟨_, hs, _⟩ | _⟩
  · exact stops_cons (by decide)
  · exact hs
  · exact stops_cons (by decide)

/-- At the end of a name the readers see a mark, or a text without a word and a dot. -/
lemma Delimits.next (h : Delimits e bs s) :
    (∃ m, (next e).Yields ⟨s, bs⟩ (· = .mark m) ⟨s, bs⟩) ∨
      (Reader.next e).Yields ⟨s, bs⟩ (· = .lexeme) ⟨s, bs⟩ ∧ wordAt s = none ∧
        symbolAt s ≠ some "." := by
  rcases h with _ | ⟨⟨m, _, h⟩ | _⟩
  · exact .inr ⟨yields_next_solid (solid_cons (by decide)), wordAt_cons (by decide),
      show some "," ≠ some "." by decide⟩
  · exact .inl ⟨m, h⟩
  · exact .inr ⟨yields_next_solid (solid_cons (by decide)), wordAt_cons (by decide),
      show some ")" ≠ some "." by decide⟩

lemma yields_dottedStep {x : Identifier} {done : List Tree} (hs : Stops s) :
    (CasePattern.dottedStep e done).Yields ⟨'.' :: (x.chars ++ s), bs⟩
      (fun next => ∃ w dot, next = some (w :: dot :: done) ∧ w.name? = some x.text ∧
        dot.name? = none) ⟨s, bs⟩ := by
  have hdot := symbolAt_dot (s := s) x.isWord_chars
  unfold CasePattern.dottedStep
  refine (yields_next_solid (solid_cons (by decide))).then ?_
  simp only [yields_look, hdot, decide_true, if_true]
  refine (yields_mark (by decide) hdot).bind ?_
  rintro _ ⟨p, rfl⟩
  refine (yields_nextName (yields_next_solid (solid_word x.isWord_chars))
    (x.yields_name hs)).bind ?_
  rintro _ ⟨q, rfl⟩
  exact yields_pure ⟨_, _, rfl, rfl, rfl⟩

lemma yields_dottedStep_end {done : List Tree} (h : Delimits e bs s) :
    (CasePattern.dottedStep e done).Yields ⟨s, bs⟩ (· = none) ⟨s, bs⟩ := by
  unfold CasePattern.dottedStep
  rcases h.next with ⟨m, hnext⟩ | ⟨hnext, -, hdot⟩
  · exact hnext.then (yields_pure rfl)
  · refine hnext.then ?_
    simp only [yields_look, hdot]
    exact yields_pure rfl

lemma yields_dottedStep_space {done : List Tree} (hw : isWord w = true) :
    (CasePattern.dottedStep e done).Yields ⟨' ' :: (w ++ s), bs⟩ (· = none) ⟨w ++ s, bs⟩ := by
  unfold CasePattern.dottedStep
  refine (yields_next_space (solid_word hw)).then ?_
  simp only [yields_look, symbolAt_word hw]
  exact yields_pure rfl

/-- Items that are written with a character or more are no more than the characters. -/
lemma length_le_flatMap {α : Type} (xs : List α) {f : α → List Char} (hf : ∀ x, f x ≠ []) :
    xs.length ≤ (xs.flatMap f).length := by
  rw [List.length_flatMap, ← List.length_map (f := fun x => (f x).length)]
  refine List.length_le_sum_of_one_le _ fun n hn => ?_
  obtain ⟨x, -, rfl⟩ := List.mem_map.mp hn
  exact List.length_pos_iff.mpr (hf x)

lemma DottedName.length_others_lt (n : DottedName) : n.others.length < n.chars.length := by
  have h := length_le_flatMap n.others (f := fun x => '.' :: x.chars) fun _ => List.cons_ne_nil _ _
  simp only [chars, restChars, Identifier.chars, List.length_append, List.length_cons] at h ⊢
  omega

lemma stops_dottedRest {xs : List Identifier} (hs : Stops s) :
    Stops (DottedName.restChars xs ++ s) := by
  cases xs with
  | nil => exact hs
  | cons x xs => exact stops_cons (by decide)

/-- The loop over the dots of a name adds its identifiers to those that have been read. -/
lemma yields_dottedRest {xs : List Identifier} {n : ℕ} {done : List Tree} (hn : xs.length < n)
    (hs : Stops s) (hend : ∀ done, (CasePattern.dottedStep e done).Yields ⟨s, bs⟩ (· = none) b) :
    (iterate (CasePattern.dottedStep e) n done).Yields ⟨DottedName.restChars xs ++ s, bs⟩
      (fun path => path.reverse.filterMap Tree.name? =
        done.reverse.filterMap Tree.name? ++ xs.map Identifier.text) b := by
  induction xs generalizing n done with
  | nil => exact yields_iterate_none hn (hend done) (by simp)
  | cons x xs ih =>
    obtain ⟨n, rfl⟩ := Nat.exists_eq_add_one.mpr (Nat.zero_lt_of_lt hn)
    rw [List.length_cons] at hn
    have hstep :=
      @yields_dottedStep e (DottedName.restChars xs ++ s) bs x done (stops_dottedRest hs)
    rw [DottedName.restChars, List.flatMap_cons, List.cons_append, List.cons_append,
      List.append_assoc]
    refine hstep.bind ?_
    rintro _ ⟨w, dot, rfl, hw, hdot⟩
    refine (ih (Nat.lt_of_succ_lt_succ hn)).mono fun path hpath => ?_
    simp [hpath, hw, hdot]

/-- A dotted name is read up to where no dot goes on with it. -/
lemma yields_dottedName {n : DottedName} (hrounds : n.chars.length ≤ nested.rounds) (hs : Stops s)
    (hend : ∀ done, (CasePattern.dottedStep e done).Yields ⟨s, bs⟩ (· = none) b) :
    (Statement.dottedName nested e).Yields ⟨n.chars ++ s, bs⟩ n.IsTree b := by
  have hlength := n.length_others_lt
  unfold Statement.dottedName
  rw [DottedName.chars, List.append_assoc]
  refine (n.first.yields_name (stops_dottedRest hs)).bind ?_
  rintro _ ⟨p, rfl⟩
  refine (yields_dottedRest (hlength.trans_le hrounds) hs hend).bind fun path hpath => ?_
  exact yields_pure ⟨p, _, rfl, hpath⟩

/-! ### Imported names -/

def ImportedName.IsTree (n : ImportedName) (t : Tree) : Prop :=
  importedPath? t = some n.target.path ∧ t.hasKind .wildcard = false

lemma DottedName.IsTree.dottedPath_eq {n : DottedName} {t : Tree} (h : n.IsTree t) :
    dottedPath t = n.path := by
  obtain ⟨p, cs, rfl, hcs⟩ := h
  exact congrArg ModulePath.mk hcs

lemma ImportedName.isTree_of_target {n : ImportedName} {t : Tree} (h : n.target.IsTree t) :
    n.IsTree t := by
  have hpath := h.dottedPath_eq
  obtain ⟨p, cs, rfl, -⟩ := h
  exact ⟨congrArg some hpath, rfl⟩

lemma yields_importedName {n : ImportedName} (hrounds : n.target.chars.length ≤ nested.rounds)
    (hs : Delimits e bs s) :
    (Statement.importedName nested e).Yields ⟨n.chars ++ s, bs⟩ n.IsTree ⟨s, bs⟩ := by
  obtain ⟨target, alias?⟩ := n
  unfold Statement.importedName
  cases alias? with
  | none =>
    rw [ImportedName.chars, ImportedName.aliasChars, List.append_nil]
    refine (yields_dottedName hrounds hs.stops fun _ => yields_dottedStep_end hs).bind ?_
    intro t ht
    have htree := ImportedName.isTree_of_target (n := ⟨target, none⟩) ht
    -- what stands behind the name is no `as`
    rcases hs.next with ⟨m, hnext⟩ | ⟨hnext, hword, -⟩
    · exact hnext.then (yields_pure htree)
    · refine hnext.then ?_
      simp only [yields_look, hword]
      exact yields_pure htree
  | some x =>
    have hstops : Stops (' ' :: (x.chars ++ s)) := stops_cons (by decide)
    have has : wordAt ("as".toList ++ ' ' :: (x.chars ++ s)) = some "as" :=
      wordAt_text (by decide) hstops
    have htext : (⟨target, some x⟩ : ImportedName).chars ++ s =
        target.chars ++ ' ' :: ("as".toList ++ ' ' :: (x.chars ++ s)) := by
      simp [ImportedName.chars, ImportedName.aliasChars]
    rw [htext]
    refine (yields_dottedName hrounds (stops_cons (by decide))
      fun _ => yields_dottedStep_space (by decide)).bind ?_
    intro t ht
    refine (yields_next_solid (solid_word (by decide))).then ?_
    simp only [yields_look, has, decide_true, if_true]
    refine (yields_keyword has).bind ?_
    rintro _ ⟨p, rfl⟩
    refine (x.yields_nextName hs.stops).bind ?_
    rintro _ ⟨q, rfl⟩
    exact yields_pure ⟨congrArg some ht.dottedPath_eq, rfl⟩

/-! ### Lists of imported names -/

lemma ImportedName.word_chars (n : ImportedName) : ∃ t, n.chars = n.target.first.chars ++ t :=
  ⟨_, by rw [chars, DottedName.chars, List.append_assoc]⟩

lemma yields_importedStep_name {n : ImportedName} {done : List Tree}
    (hrounds : n.target.chars.length ≤ nested.rounds) (hs : Delimits e bs s) :
    (Statement.importedStep nested e done).Yields ⟨',' :: ' ' :: (n.chars ++ s), bs⟩
      (fun next => ∃ t p, next = some (t :: .token ⟨.symbol, p, ","⟩ :: done) ∧ n.IsTree t)
      ⟨s, bs⟩ := by
  have hcomma : symbolAt (',' :: ' ' :: (n.chars ++ s)) = some "," := rfl
  have hname := yields_importedName hrounds hs
  obtain ⟨t, ht⟩ := n.word_chars
  rw [ht, List.append_assoc] at hname hcomma ⊢
  obtain ⟨w, hword⟩ := Option.isSome_iff_exists.mp
    (isSome_wordAt (s := t ++ s) n.target.first.isWord_chars)
  have hsymbol := symbolAt_word (s := t ++ s) n.target.first.isWord_chars
  unfold Statement.importedStep
  refine (yields_next_solid (solid_cons (by decide))).then ?_
  simp only [yields_look, hcomma, decide_true, if_true]
  refine (yields_mark (by decide) hcomma).bind ?_
  rintro _ ⟨p, rfl⟩
  -- behind the comma there is a word, so the list goes on
  refine (yields_next_space (solid_word n.target.first.isWord_chars)).then ?_
  simp only [yields_look, hsymbol, hword, reduceCtorEq, decide_false, Bool.false_eq_true, if_false,
    Option.isNone_some]
  refine hname.bind fun t ht => ?_
  exact yields_pure ⟨t, p, rfl, ht⟩

lemma yields_importedStep_comma {done : List Tree} (hs : Closes e bs s) :
    (Statement.importedStep nested e done).Yields ⟨',' :: s, bs⟩
      (fun next => ∃ p, next = some (.token ⟨.symbol, p, ","⟩ :: done)) ⟨s, bs⟩ := by
  have hcomma : symbolAt (',' :: s) = some "," := rfl
  unfold Statement.importedStep
  refine (yields_next_solid (solid_cons (by decide))).then ?_
  simp only [yields_look, hcomma, decide_true, if_true]
  refine (yields_mark (by decide) hcomma).bind ?_
  rintro _ ⟨p, rfl⟩
  cases hs with
  | mark m hs h => exact h.then (yields_pure ⟨p, rfl⟩)
  | bracket s =>
    have hsymbol : symbolAt (')' :: s) = some ")" := rfl
    have hword : wordAt (')' :: s) = none := wordAt_cons (by decide)
    refine (yields_next_solid (solid_cons (by decide))).then ?_
    simp only [yields_look, hsymbol, hword, Option.some.injEq, String.reduceEq, decide_false,
      Bool.false_eq_true, if_false, Option.isNone_none, if_true]
    exact yields_pure ⟨p, rfl⟩

lemma yields_importedStep_end {done : List Tree} (hs : Closes e bs s) :
    (Statement.importedStep nested e done).Yields ⟨s, bs⟩ (· = none) ⟨s, bs⟩ := by
  unfold Statement.importedStep
  cases hs with
  | mark m hs h => exact h.then (yields_pure rfl)
  | bracket s =>
    have hsymbol : symbolAt (')' :: s) = some ")" := rfl
    refine (yields_next_solid (solid_cons (by decide))).then ?_
    simp only [yields_look, hsymbol, Option.some.injEq, String.reduceEq, decide_false,
      Bool.false_eq_true, if_false]
    exact yields_pure rfl

/-- The trees are imported names of the given paths, and no wildcard is among them. -/
def AreNames (paths : List ModulePath) (ts : List Tree) : Prop :=
  ts.filterMap importedPath? = paths ∧ ts.any (·.hasKind .wildcard) = false

lemma areNames_token (t : Token) : AreNames [] [.token t] := ⟨rfl, rfl⟩

lemma ImportedName.IsTree.areNames {n : ImportedName} {t : Tree} (h : n.IsTree t) :
    AreNames [n.target.path] [t] := by
  simp [AreNames, h.1, h.2]

lemma AreNames.append {ps qs : List ModulePath} {ts us : List Tree} (ht : AreNames ps ts)
    (hu : AreNames qs us) : AreNames (ps ++ qs) (ts ++ us) := by
  refine ⟨?_, ?_⟩
  · rw [List.filterMap_append, ht.1, hu.1]
  · rw [List.any_append, ht.2, hu.2, Bool.false_or]

lemma ImportedName.length_target_le (n : ImportedName) :
    n.target.chars.length ≤ n.chars.length := by
  rw [chars, List.length_append]
  omega

lemma ImportedName.length_others_lt (first : ImportedName) (others : List ImportedName) :
    others.length < (listChars first others).length := by
  have h := length_le_flatMap others (f := fun n => ',' :: ' ' :: n.chars) (by simp)
  have hfirst := first.target.length_others_lt
  have htarget := first.length_target_le
  rw [listChars, restChars, List.length_append]
  omega

lemma ImportedName.length_le_of_mem {first n : ImportedName} {others : List ImportedName}
    (hn : n ∈ first :: others) : n.target.chars.length ≤ (listChars first others).length := by
  have htarget := n.length_target_le
  rcases List.mem_cons.mp hn with rfl | hn
  · rw [listChars, List.length_append]
    omega
  · obtain ⟨before, after, rfl⟩ := List.append_of_mem hn
    simp only [listChars, restChars, List.flatMap_append, List.flatMap_cons, List.length_append,
      List.length_cons]
    omega

lemma delimits_namesRest {ns : List ImportedName} {comma : Bool} (hs : Closes e bs s) :
    Delimits e bs (ImportedName.restChars ns ++ (Names.lastComma comma ++ s)) := by
  cases ns with
  | nil =>
    cases comma with
    | false => exact .closes hs
    | true => exact .comma s
  | cons n ns => exact .comma _

/-- The loop over the commas of a list adds its names to those that have been read. -/
lemma yields_namesRest {ns : List ImportedName} {comma : Bool} {n : ℕ} {done : List Tree}
    {paths : List ModulePath} (hn : ns.length + 1 < n)
    (hbound : ∀ n ∈ ns, n.target.chars.length ≤ nested.rounds) (hs : Closes e bs s)
    (hdone : AreNames paths done.reverse) :
    (iterate (Statement.importedStep nested e) n done).Yields
      ⟨ImportedName.restChars ns ++ (Names.lastComma comma ++ s), bs⟩
      (fun done => AreNames (paths ++ ns.map fun n => n.target.path) done.reverse) ⟨s, bs⟩ := by
  induction ns generalizing n done paths with
  | nil =>
    rw [List.map_nil, List.append_nil]
    cases comma with
    | false => exact yields_iterate_none (by omega) (yields_importedStep_end hs) hdone
    | true =>
      obtain ⟨n, rfl⟩ := Nat.exists_eq_add_one.mpr (Nat.zero_lt_of_lt hn)
      refine (yields_importedStep_comma hs).bind ?_
      rintro _ ⟨p, rfl⟩
      refine yields_iterate_none (by omega) (yields_importedStep_end hs) ?_
      simpa using hdone.append (areNames_token _)
  | cons i ns ih =>
    obtain ⟨n, rfl⟩ := Nat.exists_eq_add_one.mpr (Nat.zero_lt_of_lt hn)
    rw [List.forall_mem_cons] at hbound
    have hstep := @yields_importedStep_name nested e _ bs i done hbound.1
      (@delimits_namesRest e s bs ns comma hs)
    rw [ImportedName.restChars, List.flatMap_cons, List.cons_append, List.cons_append,
      List.append_assoc]
    refine hstep.bind ?_
    rintro _ ⟨t, p, rfl, ht⟩
    rw [List.length_cons] at hn
    have hnext : AreNames (paths ++ [i.target.path])
        (t :: Tree.token ⟨.symbol, p, ","⟩ :: done).reverse := by
      simpa using (hdone.append (areNames_token _)).append ht.areNames
    rw [List.map_cons, List.append_cons]
    exact ih (by omega) hbound.2 hnext

lemma solid_listChars {first : ImportedName} {others : List ImportedName} :
    Solid (ImportedName.listChars first others ++ s) := by
  obtain ⟨t, ht⟩ := first.word_chars
  rw [ImportedName.listChars, ht, List.append_assoc, List.append_assoc]
  exact solid_word first.target.first.isWord_chars

/-- A list of imported names is read up to what closes it. -/
lemma yields_importedNames {a : Place} {first : ImportedName} {others : List ImportedName}
    (comma : Bool) (hrounds : (ImportedName.listChars first others).length < nested.rounds)
    (hnext : (next {}).Yields a (· = .lexeme)
      ⟨ImportedName.listChars first others ++ (Names.lastComma comma ++ s), bs⟩)
    (hs : Closes e bs s) :
    (Statement.importedNames nested e).Yields a
      (AreNames ((first :: others).map fun n => n.target.path)) ⟨s, bs⟩ := by
  have hbound : ∀ n ∈ first :: others, n.target.chars.length ≤ nested.rounds :=
    fun n hn => (ImportedName.length_le_of_mem hn).trans hrounds.le
  have hlength := ImportedName.length_others_lt first others
  unfold Statement.importedNames
  refine hnext.lexeme.then ?_
  rw [ImportedName.listChars, List.append_assoc]
  refine (yields_importedName (hbound _ (List.mem_cons_self ..)) (delimits_namesRest hs)).bind ?_
  intro firstTree hfirst
  refine (yields_namesRest (by omega) (fun n hn => hbound n (List.mem_cons_of_mem _ hn)) hs
    hfirst.areNames).bind fun done hdone => ?_
  exact yields_pure hdone

end ImportAtlas.Program
