import ImportAtlas.Proofs.ReadBlock

/-!
Statements read back, one by one, from a line end to the next.

A statement is read in front of whatever follows it, a block up to where a line is less deep. Both
hold together by induction over the program.
-/

namespace ImportAtlas.Program

open ImportAtlas.Text ImportAtlas.Source ImportAtlas.Source.Reader ImportStatement

variable {nested : Nested} {statements : Bool → Reader (List Tree)} {inBlock : Bool}
variable {s t R : List Char} {bs : List ℕ} {c : Place} {is : List ImportStatement} {d k n : ℕ}

/-! ### What follows -/

/-- No clause follows a statement that is followed by a line of its own. -/
lemma noClause_of_follows (h : Follows d R) : NoClause (decide (0 < d)) ⟨R, openBlocks d⟩ := by
  obtain ⟨j, hj, t, rfl, ht, hclause⟩ := h
  intro except
  rcases hj.lt_or_eq with hlt | rfl
  · have hd : 0 < d := Nat.zero_lt_of_lt hlt
    refine (yields_clauseWord_mark (yields_next_dedent ht rfl ?_ ?_)).mono ?_
    · simpa [Statement.start] using hd
    · rw [headD_openBlocks]
      omega
    · rintro _ rfl
      exact nofun
  · refine (yields_clauseWord (yields_next_line ht rfl rfl ?_)).mono ?_
    · rw [headD_openBlocks]
    · rintro _ rfl
      exact hclause rfl

/-! ### Lines -/

lemma yields_line (hrounds : 1 < nested.rounds) (ht : Begins n t)
    (hsimple : (Statement.simple nested).Yields ⟨s ++ lineText n t, bs⟩
      (fun t => t.importStatements = is) ⟨lineText n t, bs⟩) :
    (Statement.line nested).Yields ⟨s ++ lineText n t, bs⟩ (fun ts => importsOf ts = is)
      ⟨lineText n t, bs⟩ := by
  obtain ⟨k, hk⟩ := Nat.exists_eq_add_of_lt hrounds
  have hfirst : (Statement.lineStep nested ([], false)).Yields ⟨s ++ lineText n t, bs⟩
      (fun next => ∃ state, next = some state ∧ ∃ u, state = ([u], true) ∧ u.importStatements = is)
      ⟨lineText n t, bs⟩ := by
    unfold Statement.lineStep
    refine hsimple.bind fun u hu => ?_
    refine (yields_next_newline ht rfl rfl rfl).then ?_
    exact yields_pure ⟨_, rfl, u, rfl, hu⟩
  -- the second round sees that the line has ended
  have hloop : (iterate (Statement.lineStep nested) nested.rounds ([], false)).Yields
      ⟨s ++ lineText n t, bs⟩ (fun state => importsOf state.1.reverse = is) ⟨lineText n t, bs⟩ := by
    rw [show nested.rounds = k + 1 + 1 by omega]
    refine yields_iterate_some hfirst ?_
    rintro _ ⟨u, rfl, hu⟩
    exact yields_iterate_none k.succ_pos (yields_pure rfl) (by simp [hu])
  unfold Statement.line
  exact hloop.bind fun state hstate => yields_pure hstate

/-- A line that begins with the word holds simple statements. -/
lemma yields_whole_line {w : String} (hw : w = "pass" ∨ w = "import" ∨ w = "from") (hs : Stops s)
    (hline : (Statement.line nested).Yields ⟨w.toList ++ s, bs⟩ (fun ts => importsOf ts = is) c) :
    (Statement.whole nested statements inBlock).Yields ⟨w.toList ++ s, bs⟩
      (fun ts => importsOf ts = is) c := by
  have hisWord : isWord w.toList = true := by rcases hw with rfl | rfl | rfl <;> decide
  have hword : wordAt (w.toList ++ s) = some w := wordAt_text hisWord hs
  have hmatch : w ≠ "match" := by rcases hw with rfl | rfl | rfl <;> decide
  have hnone : (Statement.compound? nested statements inBlock).Yields ⟨w.toList ++ s, bs⟩
      (· = none) ⟨w.toList ++ s, bs⟩ := by
    unfold Statement.compound?
    simp only [yields_look, symbolAt_word hisWord, hword, reduceCtorEq, decide_false,
      Bool.false_eq_true, if_false]
    rcases hw with rfl | rfl | rfl <;> exact yields_pure rfl
  unfold Statement.whole
  simp only [yields_look, hword, Option.some.injEq, hmatch, decide_false, Bool.false_eq_true,
    if_false]
  exact hnone.then hline

/-- A statement with suites is read as one tree. -/
lemma yields_whole_compound {w : String} (hw : w ∈ openingWords) (hword : wordAt s = some w)
    (hcompound : (Statement.compound? nested statements inBlock).Yields ⟨s, bs⟩
      (fun u => ∃ t, u = some t ∧ t.importStatements = is) c) :
    (Statement.whole nested statements inBlock).Yields ⟨s, bs⟩ (fun ts => importsOf ts = is) c := by
  have hmatch : w ≠ "match" := by
    rintro rfl
    exact absurd hw (by decide)
  unfold Statement.whole
  simp only [yields_look, hword, Option.some.injEq, hmatch, decide_false, Bool.false_eq_true,
    if_false]
  refine hcompound.bind ?_
  rintro _ ⟨t, rfl, ht⟩
  exact yields_pure (by simp [ht])

/-! ### Blocks -/

/-- The statement is read up to what follows it. -/
def ReadsStatement (statements : Bool → Reader (List Tree)) (d : ℕ) (s : Statement)
    (R : List Char) : Prop :=
  (statements (decide (0 < d))).Yields ⟨s.core d ++ R, openBlocks d⟩
    (fun ts => importsOf ts = s.importStatements) ⟨R, openBlocks d⟩

/-- The statements of a block are read up to where the block ends, whatever was read before. -/
def ReadsBlock (statements : Bool → Reader (List Tree)) (k d : ℕ) (ss : List Statement)
    (R : List Char) : Prop :=
  ∀ done, (iterate (Statement.blockStep statements) k (done, false)).Yields
    ⟨follow (d + 1) ss ++ R, openBlocks (d + 1)⟩
    (fun state => importsOf state.1.reverse = importsOf done.reverse ++ importStatements ss)
    ⟨R, openBlocks d⟩

lemma readsBlock_nil (hk : 1 < k) (h : Ends d R) : ReadsBlock statements k d [] R := by
  obtain ⟨j, hj, t, rfl, ht⟩ := h
  intro done
  obtain ⟨k, rfl⟩ := Nat.exists_eq_add_of_lt hk
  have hstep : (Statement.blockStep statements (done, false)).Yields
      ⟨lineText (4 * j) t, openBlocks (d + 1)⟩
      (fun next => ∃ state, next = some state ∧ state = (done, true))
      ⟨lineText (4 * j) t, openBlocks d⟩ := by
    unfold Statement.blockStep
    refine (yields_next_dedent ht rfl rfl ?_).then (yields_pure ⟨_, rfl, rfl⟩)
    rw [headD_openBlocks]
    omega
  refine yields_iterate_some hstep ?_
  rintro _ rfl
  exact yields_iterate_none (by omega) (yields_pure rfl) (by simp [importStatements])

lemma ReadsStatement.block {s : Statement} {ss : List Statement}
    (hs : ReadsStatement statements (d + 1) s (follow (d + 1) ss ++ R))
    (hss : ReadsBlock statements k d ss R) (hstops : Stops (follow (d + 1) ss ++ R)) :
    ReadsBlock statements (k + 1) d (s :: ss) R := by
  intro done
  have hstep : (Statement.blockStep statements (done, false)).Yields
      ⟨lineText (4 * (d + 1)) (s.core (d + 1) ++ (follow (d + 1) ss ++ R)), openBlocks (d + 1)⟩
      (fun next => ∃ state, next = some state ∧ ∃ ts, state = (ts.reverse ++ done, false) ∧
        importsOf ts = s.importStatements)
      ⟨follow (d + 1) ss ++ R, openBlocks (d + 1)⟩ := by
    unfold Statement.blockStep
    -- a line of the same depth begins the next statement
    refine (yields_next_line (.inl (s.solid_core hstops)) rfl rfl ?_).then ?_
    · rw [headD_openBlocks]
    · exact hs.bind fun ts hts => yields_pure ⟨_, rfl, ts, rfl, hts⟩
  rw [follow, List.append_assoc, lineText_append]
  refine yields_iterate_some hstep ?_
  rintro _ ⟨ts, rfl, hts⟩
  refine (hss _).mono fun state hstate => ?_
  rw [hstate, importStatements]
  simp [hts]

lemma ReadsBlock.suite {s : Statement} {ss : List Statement}
    (h : ReadsBlock statements nested.rounds d (s :: ss) R)
    (hstops : Stops (follow (d + 1) ss ++ R)) :
    (Statement.suite nested statements).Yields ⟨follow (d + 1) (s :: ss) ++ R, openBlocks d⟩
      (fun t => t.importStatements = importStatements (s :: ss)) ⟨R, openBlocks d⟩ := by
  have hblock := h []
  rw [follow, List.append_assoc, lineText_append] at hblock ⊢
  unfold Statement.suite
  refine yields_position.bind fun p _ => ?_
  refine (yields_next_indent (.inl (s.solid_core hstops)) rfl ?_).then ?_
  · rw [headD_openBlocks]
    omega
  · refine hblock.bind fun state hstate => yields_pure ?_
    simpa using hstate

/-- A statement with others behind it is a suite. -/
lemma ReadsStatement.suite {s : Statement} {ss : List Statement} (hk : nested.rounds = k + 1)
    (hR : Ends d R) (hs : ReadsStatement statements (d + 1) s (follow (d + 1) ss ++ R))
    (hss : ReadsBlock statements k d ss R) :
    (Statement.suite nested statements).Yields ⟨follow (d + 1) (s :: ss) ++ R, openBlocks d⟩
      (fun t => t.importStatements = importStatements (s :: ss)) ⟨R, openBlocks d⟩ := by
  have hstops := (hR.follows.append ss).ends.stops
  refine ReadsBlock.suite ?_ hstops
  rw [hk]
  exact hs.block hss hstops

/-! ### Statements -/

lemma readsStatement_pass (hrounds : 1 < nested.rounds) (hR : Follows d R) :
    ReadsStatement (Source.statements nested (n + 1)) d .pass R := by
  obtain ⟨j, -, t, rfl, ht, -⟩ := hR
  have hword : wordAt ("pass".toList ++ lineText (4 * j) t) = some "pass" :=
    wordAt_text (by decide) (stops_cons (by decide))
  have hsimple : (Statement.simple nested).Yields
      ⟨"pass".toList ++ lineText (4 * j) t, openBlocks d⟩ (fun t => t.importStatements = [])
      ⟨lineText (4 * j) t, openBlocks d⟩ := by
    unfold Statement.simple
    simp only [yields_look, hword]
    refine (yields_keyword hword).bind ?_
    rintro _ ⟨p, rfl⟩
    exact yields_pure (by simp)
  exact yields_whole_line (.inl rfl) (stops_cons (by decide)) (yields_line hrounds ht hsimple)

lemma readsStatement_imports {i : Import} (hrounds : 1 < nested.rounds)
    (hi : i.chars.length < nested.rounds) (hR : Follows d R) :
    ReadsStatement (Source.statements nested (n + 1)) d (.imports i) R := by
  obtain ⟨j, -, t, rfl, ht, -⟩ := hR
  have hword : i.word = "pass" ∨ i.word = "import" ∨ i.word = "from" := by
    cases i <;> simp [Import.word]
  have hline : (Statement.line nested).Yields ⟨i.chars ++ lineText (4 * j) t, openBlocks d⟩
      (fun ts => importsOf ts = [i.statement]) ⟨lineText (4 * j) t, openBlocks d⟩ :=
    yields_line hrounds ht (yields_import hi ht)
  rw [Import.chars, List.append_assoc, List.cons_append] at hline
  unfold ReadsStatement
  rw [Statement.core, Import.chars, List.append_assoc, List.cons_append]
  exact yields_whole_line hword (stops_cons (by decide)) hline

lemma readsStatement_block {head : Head} {s : Statement} {ss : List Statement}
    (hrounds : 0 < nested.rounds) (hconditions : ReadsConditions nested) (hR : Follows d R)
    (hsuite : (Statement.suite nested (Source.statements nested n)).Yields
      ⟨follow (d + 1) (s :: ss) ++ R, openBlocks d⟩
      (fun t => t.importStatements = importStatements (s :: ss)) ⟨R, openBlocks d⟩) :
    ReadsStatement (Source.statements nested (n + 1)) d (.block head s ss) R := by
  obtain ⟨w, hw, hword⟩ := (Statement.block head s ss).wordAt_core (d := d) hR.ends.stops
  have htext : (Statement.block head s ss).core d ++ R =
      head.chars ++ ':' :: (follow (d + 1) (s :: ss) ++ R) := by
    rw [Statement.core, List.append_assoc]
    rfl
  unfold ReadsStatement
  refine yields_whole_compound hw hword ?_
  rw [htext]
  exact yields_compound_block hrounds hconditions (noClause_of_follows hR) head hsuite

lemma readsStatement_attempt {handler : Handler} {s t : Statement} {ss ts : List Statement}
    (hrounds : 0 < nested.rounds) (hconditions : ReadsConditions nested) (hR : Follows d R)
    (hfirst : (Statement.suite nested (Source.statements nested n)).Yields
      ⟨follow (d + 1) (s :: ss) ++
        lineText (4 * d) (handler.chars ++ ':' :: (follow (d + 1) (t :: ts) ++ R)), openBlocks d⟩
      (fun u => u.importStatements = importStatements (s :: ss))
      ⟨lineText (4 * d) (handler.chars ++ ':' :: (follow (d + 1) (t :: ts) ++ R)), openBlocks d⟩)
    (hsecond : (Statement.suite nested (Source.statements nested n)).Yields
      ⟨follow (d + 1) (t :: ts) ++ R, openBlocks d⟩
      (fun u => u.importStatements = importStatements (t :: ts)) ⟨R, openBlocks d⟩) :
    ReadsStatement (Source.statements nested (n + 1)) d (.attempt s ss handler t ts) R := by
  obtain ⟨w, hw, hword⟩ := (Statement.attempt s ss handler t ts).wordAt_core (d := d) hR.ends.stops
  have htext : (Statement.attempt s ss handler t ts).core d ++ R =
      "try".toList ++ ':' :: (follow (d + 1) (s :: ss) ++
        lineText (4 * d) (handler.chars ++ ':' :: (follow (d + 1) (t :: ts) ++ R))) := by
    simp [Statement.core, follow, lineText]
  have himports : (Statement.attempt s ss handler t ts).importStatements =
      importStatements (s :: ss) ++ importStatements (t :: ts) := by
    simp [Statement.importStatements, importStatements]
  unfold ReadsStatement
  -- both suites belong to one tree, and no clause behind them does
  refine yields_whole_compound hw hword ?_
  rw [htext, himports]
  exact yields_compound_try hrounds hconditions (noClause_of_follows hR) headD_openBlocks.le
    hfirst hsecond

/-! ### Nested statements -/

lemma Handler.ends_line (handler : Handler) : Ends d (lineText (4 * d) (handler.chars ++ t)) :=
  ends_lineText (.inl (handler.solid_chars t))

mutual

/-- A statement is read, with every suite in it, if the bound on their nesting suffices. -/
lemma readsStatement (hconditions : ReadsConditions nested) : (s : Statement) → (n d : ℕ) →
    (R : List Char) → (s.core d).length < n → n ≤ nested.rounds → Follows d R →
    ReadsStatement (Source.statements nested n) d s R
  | _, 0, _, _, hlength, _, _ => absurd hlength (Nat.not_lt_zero _)
  | .pass, n + 1, d, R, hlength, hn, hR => by
    have hcore : (Statement.pass.core d).length = 4 := rfl
    exact readsStatement_pass (by omega) hR
  | .imports i, n + 1, d, R, hlength, hn, hR => by
    have hcore : (Statement.imports i).core d = i.chars := rfl
    have hword : 0 < i.chars.length := by simp [Import.chars]
    rw [hcore] at hlength
    exact readsStatement_imports (by omega) (by omega) hR
  | .block head s ss, n + 1, d, R, hlength, hn, hR => by
    have hcount := length_le_follow (d := d + 1) ss
    simp only [Statement.core, List.length_append, List.length_cons, length_lineText] at hlength
    have hs := readsStatement hconditions s n (d + 1) (follow (d + 1) ss ++ R) (by omega)
      (by omega) (hR.ends.follows.append ss)
    have hss := readsBlock hconditions ss n (nested.rounds - 1) d R (by omega) (by omega)
      (by omega) hR.ends
    exact readsStatement_block (by omega) hconditions hR
      (ReadsStatement.suite (by omega) hR.ends hs hss)
  | .attempt s ss handler t ts, n + 1, d, R, hlength, hn, hR => by
    have hfirst := length_le_follow (d := d + 1) ss
    have hsecond := length_le_follow (d := d + 1) ts
    simp only [Statement.core, List.length_append, List.length_cons, length_lineText] at hlength
    -- the first suite ends at the line of the clause, the second one at what follows
    have hends : Ends d (lineText (4 * d)
        (handler.chars ++ ':' :: (follow (d + 1) (t :: ts) ++ R))) := handler.ends_line
    have hs := readsStatement hconditions s n (d + 1) _ (by omega) (by omega)
      (hends.follows.append ss)
    have hss := readsBlock hconditions ss n (nested.rounds - 1) d _ (by omega) (by omega)
      (by omega) hends
    have ht := readsStatement hconditions t n (d + 1) (follow (d + 1) ts ++ R) (by omega)
      (by omega) (hR.ends.follows.append ts)
    have hts := readsBlock hconditions ts n (nested.rounds - 1) d R (by omega) (by omega)
      (by omega) hR.ends
    exact readsStatement_attempt (by omega) hconditions hR
      (ReadsStatement.suite (by omega) hends hs hss)
      (ReadsStatement.suite (by omega) hR.ends ht hts)

/-- A block is read up to its end, if the bounds on its statements and on their nesting suffice. -/
lemma readsBlock (hconditions : ReadsConditions nested) : (ss : List Statement) → (n k d : ℕ) →
    (R : List Char) → (follow (d + 1) ss).length < n → n ≤ nested.rounds → ss.length + 1 < k →
    Ends d R → ReadsBlock (Source.statements nested n) k d ss R
  | [], n, k, d, R, _, _, hk, hR => readsBlock_nil hk hR
  | s :: ss, n, 0, d, R, hlength, hn, hk, hR => absurd hk (Nat.not_lt_zero _)
  | s :: ss, n, k + 1, d, R, hlength, hn, hk, hR => by
    simp only [follow, List.length_append, List.length_cons, length_lineText] at hlength hk
    -- a statement is followed by the rest of its block
    have hnext := hR.follows.append ss
    have hs := readsStatement hconditions s n (d + 1) (follow (d + 1) ss ++ R) (by omega)
      (by omega) hnext
    have hss := readsBlock hconditions ss n k d R (by omega) (by omega) (by omega) hR
    exact hs.block hss hnext.ends.stops

end

end ImportAtlas.Program
