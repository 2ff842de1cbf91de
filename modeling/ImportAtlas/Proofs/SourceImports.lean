import ImportAtlas.Proofs.TidyStatement

/-!
The imports of a source text are those of the nodes of its tree.

The walk leaves import statements unsearched and stops at the first offence. Nothing is lost by
either: what stands within an import is inert, so the walk comes to the same as asking every node
of the tree in source order.
-/

namespace ImportAtlas

open Source

namespace Source.Tree

variable (base : ModulePath)

/-- What one node has to say: it offends, or it has some modules that it depends on. -/
def finding (t : Tree) : Except SourceError (List ModulePath) :=
  if t.isLegacy then .error (.syntaxError base t.position)
  else
    match ImportStatement.ofTree? t with
    | some s => (s.resolve base).mapError .climb
    | none => .ok []

def findings : List Tree → Except SourceError (List ModulePath)
  | [] => .ok []
  | t :: ts => do
    let first ← finding base t
    let others ← findings ts
    return first ++ others

/-- The node is a construct of the second version, or an import that climbs too far. -/
def offends (t : Tree) : Bool :=
  t.isLegacy || (ImportStatement.ofTree? t).any fun s => !(s.resolve base).isOk

variable {base}

/-! ### The walk asks every node -/

lemma findings_append (ts us : List Tree) :
    findings base (ts ++ us) = do
      let first ← findings base ts
      let others ← findings base us
      return first ++ others := by
  induction ts with
  | nil =>
    rw [List.nil_append]
    cases findings base us <;> rfl
  | cons t ts ih =>
    rw [List.cons_append, findings, ih, findings]
    cases finding base t with
    | error => rfl
    | ok first =>
      cases findings base ts with
      | error => rfl
      | ok middle =>
        cases findings base us with
        | error => rfl
        | ok last => exact congrArg Except.ok (List.append_assoc first middle last).symm

lemma finding_legacy {t : Tree} (h : t.isLegacy = true) :
    finding base t = .error (.syntaxError base t.position) := if_pos h

lemma finding_of_not_legacy {t : Tree} (h : ¬t.isLegacy = true) :
    finding base t = match ImportStatement.ofTree? t with
      | some s => (s.resolve base).mapError .climb
      | none => .ok [] := if_neg h

lemma finding_plain {t : Tree} (h : t.Plain) : finding base t = .ok [] := by
  rw [finding_of_not_legacy (by simp [h.not_legacy]), h.not_import]

lemma findings_plain {ts : List Tree} (h : ∀ t ∈ ts, t.Plain) : findings base ts = .ok [] := by
  induction ts with
  | nil => rfl
  | cons t ts ih =>
    rw [List.forall_mem_cons] at h
    rw [findings, finding_plain h.1, ih h.2]
    rfl

/-- A tree that is walked through comes to what it says itself and what its children come to. -/
lemma targets_node {k : NodeKind} {p : Position} {cs : List Tree}
    (hall : allTargets base cs = findings base (preorderAll cs))
    (himport : ∀ s, ImportStatement.ofTree? (node k p cs) = some s →
      findings base (preorderAll cs) = .ok []) :
    targets base (node k p cs) = findings base (node k p cs).preorder := by
  rw [targets, preorder, findings, hall]
  -- an offence of the node itself comes before those of its children
  by_cases hlegacy : (node k p cs).isLegacy = true
  · rw [if_pos hlegacy, finding_legacy hlegacy]
    rfl
  · rw [if_neg hlegacy, finding_of_not_legacy hlegacy]
    cases hs : ImportStatement.ofTree? (node k p cs) with
    | none => cases findings base (preorderAll cs) <;> rfl
    | some s =>
      rw [himport s hs]
      dsimp only
      cases s.resolve base with
      | error => rfl
      | ok found => exact congrArg Except.ok (List.append_nil found).symm

lemma targets_token (t : Token) : targets base (token t) = findings base (token t).preorder := by
  rw [targets, preorder, findings, findings]
  by_cases hlegacy : (token t).isLegacy = true
  · rw [if_pos hlegacy, finding_legacy hlegacy]
    rfl
  · rw [if_neg hlegacy, finding_of_not_legacy hlegacy]
    rfl

lemma allTargets_eq_findings {cs : List Tree}
    (h : ∀ c ∈ cs, targets base c = findings base c.preorder) :
    allTargets base cs = findings base (preorderAll cs) := by
  induction cs with
  | nil => rfl
  | cons c cs ih =>
    rw [List.forall_mem_cons] at h
    rw [allTargets, preorderAll, findings_append, h.1, ih h.2]

mutual

lemma targets_inert : (t : Tree) → t.Inert → targets base t = findings base t.preorder
  | token t, _ => targets_token t
  | node _ _ cs, h =>
    have hall : ∀ u ∈ preorderAll cs, u.Plain := fun u hu => h u (List.mem_cons_of_mem _ hu)
    targets_node (allTargets_inert cs hall) fun _ _ => findings_plain hall

lemma allTargets_inert : (ts : List Tree) → (∀ u ∈ preorderAll ts, u.Plain) →
    allTargets base ts = findings base (preorderAll ts)
  | [], _ => rfl
  | t :: ts, h => by
    rw [preorderAll, List.forall_mem_append] at h
    rw [allTargets, preorderAll, findings_append, targets_inert t h.1, allTargets_inert ts h.2]

end

lemma targets_tidy [ImportProperty] {t : Tree} (h : t.Tidy) :
    targets base t = findings base t.preorder := by
  induction h with
  | token t => exact targets_token t
  | @node k p cs hkind _ ih =>
    refine targets_node (allTargets_eq_findings ih) fun s hs => ?_
    have hnone : ImportStatement.ofTree? (node k p cs) = none := by
      cases k <;> simp_all [ImportStatement.ofTree?]
    rw [hnone] at hs
    cases hs
  | @«import» t _ hparts =>
    cases t with
    | token t => exact targets_token t
    | node k p cs =>
      -- the walk stops at an import, and what stands within it has nothing to say
      have hall : ∀ u ∈ preorderAll cs, u.Plain := by
        intro u hu
        obtain ⟨c, hc, hu⟩ := mem_preorderAll.mp hu
        exact hparts c hc u hu
      exact targets_node (allTargets_inert cs hall) fun _ _ => findings_plain hall

/-! ### The first offence -/

/-- The modules of an import that resolves are all that a node without an offence has to say. -/
lemma finding_ok {t : Tree} (h : t.offends base = false) :
    ∃ found, finding base t = .ok found ∧ ∀ m, m ∈ found ↔
      ∃ s ∈ ImportStatement.ofTree? t, ∃ ms, s.resolve base = .ok ms ∧ m ∈ ms := by
  rw [offends, Bool.or_eq_false_iff] at h
  obtain ⟨hlegacy, hresolve⟩ := h
  rw [finding_of_not_legacy (by simp [hlegacy])]
  cases hs : ImportStatement.ofTree? t with
  | none => exact ⟨[], rfl, by simp⟩
  | some s =>
    cases hms : s.resolve base with
    | error e => simp [hs, hms, Except.isOk, Except.toBool] at hresolve
    | ok ms => exact ⟨ms, by simp [hms, Except.mapError], by simp [hms]⟩

lemma findings_ok {ts : List Tree} (h : ∀ t ∈ ts, t.offends base = false) :
    ∃ found, findings base ts = .ok found ∧ ∀ m, m ∈ found ↔
      ∃ s ∈ ts.filterMap ImportStatement.ofTree?, ∃ ms, s.resolve base = .ok ms ∧ m ∈ ms := by
  induction ts with
  | nil => exact ⟨[], rfl, by simp⟩
  | cons t ts ih =>
    rw [List.forall_mem_cons] at h
    obtain ⟨first, hfirst, hmem⟩ := finding_ok h.1
    obtain ⟨others, hothers, hmems⟩ := ih h.2
    refine ⟨first ++ others, by rw [findings, hfirst, hothers]; rfl, fun m => ?_⟩
    rw [List.mem_append, hmem, hmems]
    cases hs : ImportStatement.ofTree? t <;> simp [hs]

/-- An offence is an error of its node. -/
lemma finding_error {t : Tree} (h : t.offends base = true) :
    (t.isLegacy = true ∧ finding base t = .error (.syntaxError base t.position)) ∨
      ∃ s e, ImportStatement.ofTree? t = some s ∧ s.resolve base = .error e ∧
        finding base t = .error (.climb e) := by
  by_cases hlegacy : t.isLegacy = true
  · exact .inl ⟨hlegacy, finding_legacy hlegacy⟩
  · obtain ⟨s, hs, hresolve⟩ : ∃ s, ImportStatement.ofTree? t = some s ∧
        (s.resolve base).isOk = false := by
      simpa [offends, hlegacy, Option.any_eq_true] using h
    cases he : s.resolve base with
    | ok ms => simp [he, Except.isOk, Except.toBool] at hresolve
    | error e =>
      refine .inr ⟨s, e, hs, he, ?_⟩
      rw [finding_of_not_legacy hlegacy, hs]
      simp only [he]
      rfl

lemma findings_error {before after : List Tree} {t : Tree} {e : SourceError}
    (hbefore : ∀ u ∈ before, u.offends base = false) (ht : finding base t = .error e) :
    findings base (before ++ t :: after) = .error e := by
  obtain ⟨found, hfound, -⟩ := findings_ok hbefore
  rw [findings_append, hfound, findings, ht]
  rfl

end Source.Tree

abbrev anyImport : ImportProperty where
  Holds _ := True
  importStatement _ := Reader.gives_true _
  fromImport _ := Reader.gives_true _

/-- The imports of a program are what the nodes of its tree have to say. -/
lemma resolveSource_eq_findings {source : String} {tree : Tree} {base : ModulePath}
    (h : Tree.ofSource source = .ok tree) :
    resolveSource source base = (Tree.findings base tree.preorder).map .ofList := by
  have htidy := @tidy_ofSource anyImport _ _ h
  rw [resolveSource, h]
  exact congrArg (Except.map OrderedSet.ofList)
    (@Tree.targets_tidy base anyImport tree htidy)

/-- **The imports of a source text.** A text that is no program has a syntax error. If some node
of the tree offends, the first of them in source order decides the error; otherwise the imports
are the modules that the import statements of all nodes depend on. -/
theorem resolveSource_eq_nodes (source : String) (base : ModulePath) :
    match Tree.ofSource source with
    | .error _ => ∃ p, resolveSource source base = .error (.syntaxError base p)
    | .ok tree =>
      match tree.preorder.find? (Tree.offends base) with
      | none => ∃ imports, resolveSource source base = .ok imports ∧ ∀ m, m ∈ imports ↔
          ∃ s ∈ tree.importStatements, ∃ found, s.resolve base = .ok found ∧ m ∈ found
      | some t =>
          (t.isLegacy = true ∧
            resolveSource source base = .error (.syntaxError base t.position)) ∨
          (∃ s e, ImportStatement.ofTree? t = some s ∧ s.resolve base = .error e ∧
            resolveSource source base = .error (.climb e)) := by
  cases hsource : Tree.ofSource source with
  | error p => exact ⟨_, by rw [resolveSource, hsource]⟩
  | ok tree =>
    have hresult := @resolveSource_eq_findings source tree base hsource
    dsimp only
    split
    · rename_i hfirst
      have hnone : ∀ t ∈ tree.preorder, t.offends base = false := by simpa using hfirst
      obtain ⟨found, hfound, hmem⟩ := Tree.findings_ok hnone
      rw [hfound] at hresult
      exact ⟨_, hresult, fun m => OrderedSet.mem_ofList.trans (hmem m)⟩
    · rename_i t hfirst
      obtain ⟨hoffends, before, after, hnodes, hbefore⟩ := List.find?_eq_some_iff_append.mp hfirst
      -- the nodes in front have nothing to object to, so this one decides
      have hbefore : ∀ u ∈ before, u.offends base = false := by simpa using hbefore
      rw [hnodes] at hresult
      rcases Tree.finding_error hoffends with ⟨hlegacy, ht⟩ | ⟨s, e, hs, he, ht⟩
      · rw [Tree.findings_error hbefore ht] at hresult
        exact .inl ⟨hlegacy, hresult⟩
      · rw [Tree.findings_error hbefore ht] at hresult
        exact .inr ⟨s, e, hs, he, hresult⟩

end ImportAtlas
