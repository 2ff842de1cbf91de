import ImportAtlas.Analysis
import ImportAtlas.Proofs.ReadStatement

/-!
Programs read back: the text of a program of imports is a program of the language, and the import
statements in it are those of the program.
-/

namespace ImportAtlas.Program

open ImportAtlas.Text ImportAtlas.Source ImportAtlas.Source.Reader ImportStatement

variable {nested : Nested} {s R : List Char} {a : Place} {k : ℕ}

/-! ### A file -/

/-- What follows the first statement of a file: the other ones, and the end of the last line. -/
def fileRest (ss : List Statement) : List Char := follow 0 ss ++ lineText 0 []

lemma fileRest_cons {t : Statement} {ss : List Statement} :
    fileRest (t :: ss) = lineText 0 (t.core 0 ++ fileRest ss) := by
  rw [fileRest, follow, List.append_assoc, lineText_append, Nat.mul_zero, fileRest]

lemma follows_fileRest (ss : List Statement) : Follows 0 (fileRest ss) := by
  have hend : Follows 0 (lineText 0 []) := ⟨0, le_rfl, [], rfl, .inr ⟨rfl, rfl⟩, nofun⟩
  exact hend.append ss

/-- The statements of a file are read up to its end, whatever was read before. -/
def ReadsFile (nested : Nested) (k : ℕ) (a : Place) (ss : List Statement) : Prop :=
  ∀ done, (iterate (fileStep nested) k (done, false)).Yields a
    (fun state => importsOf state.1.reverse = importsOf done.reverse ++ importStatements ss)
    ⟨[], []⟩

/-- A gap at the end of the text ends the file. -/
lemma readsFile_nil (hk : 1 < k)
    (hnext : (next (Statement.start false)).Yields a (· = .lexeme) ⟨[], []⟩) :
    ReadsFile nested k a [] := by
  intro done
  obtain ⟨k, rfl⟩ := Nat.exists_eq_add_of_lt hk
  have hstep : (fileStep nested (done, false)).Yields a
      (fun next => ∃ state, next = some state ∧ state = (done, true)) ⟨[], []⟩ := by
    unfold fileStep
    refine hnext.lexeme.then ?_
    simp only [yields_look, id, List.isEmpty_nil, if_true]
    exact yields_pure ⟨_, rfl, rfl⟩
  refine yields_iterate_some hstep ?_
  rintro _ rfl
  exact yields_iterate_none (by omega) (yields_pure rfl) (by simp [importStatements])

lemma readsFile_cons {t : Statement} {ss : List Statement}
    (hnext : (next (Statement.start false)).Yields a (· = .lexeme) ⟨t.core 0 ++ R, []⟩)
    (hsolid : Solid (t.core 0 ++ R))
    (ht : ReadsStatement (Source.statements nested nested.rounds) 0 t R)
    (hss : ReadsFile nested k ⟨R, []⟩ ss) : ReadsFile nested (k + 1) a (t :: ss) := by
  intro done
  -- the text is not at its end, since a statement begins
  have hne : (t.core 0 ++ R).isEmpty = false := by
    obtain ⟨c, hc, -⟩ := hsolid
    cases h : t.core 0 ++ R with
    | nil =>
      rw [h] at hc
      cases hc
    | cons => rfl
  have hstep : (fileStep nested (done, false)).Yields a
      (fun next => ∃ state, next = some state ∧ ∃ us, state = (us.reverse ++ done, false) ∧
        importsOf us = t.importStatements) ⟨R, []⟩ := by
    unfold fileStep
    refine hnext.lexeme.then ?_
    simp only [yields_look, id, hne, Bool.false_eq_true, if_false]
    exact Yields.bind ht fun us hus => yields_pure ⟨_, rfl, us, rfl, hus⟩
  refine yields_iterate_some hstep ?_
  rintro _ ⟨us, rfl, hus⟩
  refine (hss _).mono fun state hstate => ?_
  rw [hstate, importStatements]
  simp [hus]

variable (hconditions : ReadsConditions nested)

include hconditions

/-- Behind a line end, the statements up to the end of the text are read. -/
lemma readsFile_rest (ss : List Statement) (hlength : (fileRest ss).length < nested.rounds)
    (hk : ss.length + 1 < k) : ReadsFile nested k ⟨fileRest ss, []⟩ ss := by
  induction ss generalizing k with
  | nil => exact readsFile_nil hk (yields_next_line (.inr ⟨rfl, rfl⟩) rfl rfl le_rfl)
  | cons t ss ih =>
    obtain _ | k := k
    · exact absurd hk (Nat.not_lt_zero _)
    rw [fileRest_cons, length_lineText, List.length_append] at hlength
    rw [List.length_cons] at hk
    have hfollows := follows_fileRest ss
    have hsolid := t.solid_core (d := 0) hfollows.ends.stops
    rw [fileRest_cons]
    refine readsFile_cons (yields_next_line (.inl hsolid) rfl rfl le_rfl) hsolid ?_
      (ih (by omega) (by omega))
    exact readsStatement hconditions t _ 0 _ (by omega) le_rfl hfollows

lemma readsFile (t : Statement) (ss : List Statement)
    (hlength : (t.core 0 ++ fileRest ss).length < nested.rounds) (hk : ss.length + 1 < k) :
    ReadsFile nested (k + 1) ⟨t.core 0 ++ fileRest ss, []⟩ (t :: ss) := by
  rw [List.length_append] at hlength
  have hfollows := follows_fileRest ss
  have hsolid := t.solid_core (d := 0) hfollows.ends.stops
  refine readsFile_cons (yields_next_solid hsolid) hsolid ?_
    (readsFile_rest hconditions ss (by omega) hk)
  exact readsStatement hconditions t _ 0 _ (by omega) le_rfl hfollows

omit hconditions

/-! ### The text of a program -/

lemma allChars_cons (t : Statement) (ss : List Statement) :
    allChars 0 (t :: ss) = t.core 0 ++ fileRest ss := by
  have h := cons_allChars 0 [] (t :: ss)
  rw [List.append_nil] at h
  exact (List.cons.inj (h.trans (fileRest_cons (t := t)))).2

/-- No byte order mark stands in front of a lexeme. -/
lemma skipMark_of_solid {c : Cursor} (h : Solid c.rest) : Tree.skipMark c = c := by
  obtain ⟨d, hd, hsolid⟩ := h
  unfold Tree.skipMark
  split
  · rename_i cs hrest
    rw [hrest] at hd
    obtain rfl := Option.some.inj hd
    exact absurd hsolid (by decide)
  · rfl

lemma skipMark_text (ss : List Statement) :
    Tree.skipMark (.ofString (text ss)) = .ofString (text ss) := by
  cases ss with
  | nil => rfl
  | cons t ss =>
    refine skipMark_of_solid ?_
    rw [Cursor.ofString, text, String.toList_ofList, allChars_cons]
    exact t.solid_core (follows_fileRest ss).ends.stops

/-- The bound that a text sets on the rounds of its readers suffices for a program. -/
lemma yields_file (ss : List Statement) :
    (file ((allChars 0 ss).length + 2)).Yields ⟨allChars 0 ss, []⟩
      (fun t => t.importStatements = importStatements ss) ⟨[], []⟩ := by
  have hconditions : ∀ n, ReadsConditions ⟨n + 2, expression (n + 2)⟩ :=
    fun n x s bs => yields_condition
  have hread : ReadsFile ⟨(allChars 0 ss).length + 2, expression ((allChars 0 ss).length + 2)⟩
      ((allChars 0 ss).length + 2) ⟨allChars 0 ss, []⟩ ss := by
    cases ss with
    | nil => exact readsFile_nil (by omega) (yields_next_lexeme blank_nil (.inr rfl) rfl)
    | cons t ss =>
      -- each statement takes a character or more, so the rounds suffice for all of them
      have hcount := length_le_follow (d := 0) ss
      have hlength : (allChars 0 (t :: ss)).length =
          (t.core 0).length + ((follow 0 ss).length + 1) := by
        rw [allChars_cons, fileRest, List.length_append, List.length_append, length_lineText]
        rfl
      have hrest := readsFile (k := (allChars 0 (t :: ss)).length + 1) (hconditions _) t ss
        (by rw [← allChars_cons]; exact Nat.lt_add_of_pos_right two_pos) (by omega)
      rwa [← allChars_cons] at hrest
  unfold file
  refine (hread []).bind fun state hstate => yields_pure ?_
  rw [importStatements_node (by decide) (by decide) (by decide), hstate]
  rfl

/-- **Programs read back.** The text of a program of imports has a syntax tree, and the import
statements among the nodes of the tree, in source order, are those of the program. -/
theorem statements_of_text (ss : List Statement) :
    ∃ t, Tree.ofSource (text ss) = .ok t ∧
      t.preorder.filterMap ofTree? = importStatements ss := by
  have hrest : (Cursor.ofString (text ss)).rest = allChars 0 ss := String.toList_ofList ..
  obtain ⟨t, st, hrun, himports, -⟩ := yields_file ss ⟨.ofString (text ss), [], false⟩
    ⟨hrest, rfl, rfl⟩
  refine ⟨t, ?_, himports⟩
  unfold Tree.ofSource
  simp only [skipMark_text, hrest]
  show ((file ((allChars 0 ss).length + 2)) _ >>= fun r => pure r.1) = _
  rw [hrun]
  rfl

end ImportAtlas.Program
