import ImportAtlas.Proofs.ArtifactPath
import ImportAtlas.Proofs.DrawnGraph

/-!
What a run leaves behind.

A run without a graph changes nothing. A run with one writes to its output and, if it draws, to the
source and the document beside it. These are different places, unless the output is the source; so
each file holds what was written to it.
-/

namespace ImportAtlas.CommandLine

open FileTree

variable {env : Environment} {o : Options} {t t' u : FileTree} {g : ImportGraph} {text : String}
variable {p : Progress} {result : Except Report Unit}

/-! ### The paths of a run -/

def placeOf (env : Environment) (path : String) : Location := (Path.ofText path).place env.here

/-- The places that a run may write to. -/
def artifacts (env : Environment) (o : Options) : List Location :=
  placeOf env (outputPath env o) ::
    if o.render then
      [placeOf env (sourcePath env o), placeOf env (documentPath (sourcePath env o))]
    else []

lemma mem_artifacts_iff {l : Location} :
    l ∈ artifacts env o ↔ l = placeOf env (outputPath env o) ∨
      o.render = true ∧ (l = placeOf env (sourcePath env o) ∨
        l = placeOf env (documentPath (sourcePath env o))) := by
  unfold artifacts
  cases o.render <;> simp

lemma outputPath_eq (ho : o.output = some text) :
    outputPath env o = Path.withExtension text o.format.extension := by
  unfold outputPath
  rw [ho]

lemma sourcePath_eq (ho : o.output = some text) :
    sourcePath env o = Path.withExtension text Format.dot.extension := by
  have hdot : '.' ∉ o.format.extension.toList := by cases o.format <;> decide
  rw [sourcePath, outputPath_eq ho,
    Path.withExtension_withExtension o.format.isEnding hdot Format.dot.isEnding]

section Places

variable (ht : t.LinkFree) (ho : o.output = some text)
  (h : t.Writable env.here (.ofText (outputPath env o)))

include ht ho h

lemma exists_run_places :
    ∃ (d : Location) (n : FileName),
      placeOf env (outputPath env o) = d.child (n.extend _ o.format.isEnding) ∧
      placeOf env (sourcePath env o) = d.child (n.extend _ Format.dot.isEnding) ∧
      placeOf env (documentPath (sourcePath env o)) = d.child (n.extend _ isEnding_document) := by
  rw [sourcePath_eq ho]
  rw [outputPath_eq ho] at h ⊢
  exact exists_places ht o.format h

lemma source_ne_document :
    placeOf env (sourcePath env o) ≠ placeOf env (documentPath (sourcePath env o)) := by
  obtain ⟨d, n, -, hsource, hdocument⟩ := exists_run_places ht ho h
  rw [hsource, hdocument]
  exact Location.child_ne (FileName.extend_ne (Format.extension_ne_document _))

lemma output_ne_document :
    placeOf env (outputPath env o) ≠ placeOf env (documentPath (sourcePath env o)) := by
  obtain ⟨d, n, houtput, -, hdocument⟩ := exists_run_places ht ho h
  rw [houtput, hdocument]
  exact Location.child_ne (FileName.extend_ne (Format.extension_ne_document _))

/-- The output is the source of the drawing, or stands beside it. -/
lemma output_eq_or_ne_source :
    outputPath env o = sourcePath env o ∧ o.format = .dot ∨
      placeOf env (outputPath env o) ≠ placeOf env (sourcePath env o) := by
  by_cases hformat : o.format = .dot
  · refine .inl ⟨?_, hformat⟩
    rw [outputPath_eq ho, sourcePath_eq ho, hformat]
  · obtain ⟨d, n, houtput, hsource, -⟩ := exists_run_places ht ho h
    rw [houtput, hsource]
    refine .inr (Location.child_ne (FileName.extend_ne fun heq => hformat ?_))
    cases hf : o.format with
    | dot => rfl
    | html =>
      rw [hf] at heq
      exact absurd heq (by decide)
    | json =>
      rw [hf] at heq
      exact absurd heq (by decide)

end Places

/-! ### The parts of a run -/

/-- The graph is written and, if that is asked for, drawn in the tree that has it. -/
lemma program_cases (hs : (survey t env.here o).1 = .ok g)
    (h : (program env o).outcome { tree := t } = (result, p)) :
    (p.tree = t ∧ (∃ r, result = .error r) ∧
        ¬t.Writable env.here (.ofText (outputPath env o))) ∨
      ∃ u, t.writeText env.here (.ofText (outputPath env o)) (g.exported o.format) = .ok u ∧
        (o.render = false ∧ p.tree = u ∨
          o.render = true ∧
            ∃ r, u.draw env.here env.layout g (sourcePath env o) = (p.tree, r)) := by
  cases hw : t.writeText env.here (.ofText (outputPath env o)) (g.exported o.format) with
  | error e =>
    rw [outcome_program_unwritten (p := { tree := t }) hs hw] at h
    obtain ⟨rfl, rfl⟩ := Prod.mk.inj h
    refine .inl ⟨rfl, ⟨_, rfl⟩, fun hwritable => ?_⟩
    obtain ⟨u, hu⟩ := writable_iff.mp hwritable
    rw [hw] at hu
    cases hu
  | ok u =>
    rw [outcome_program_written (p := { tree := t }) hs hw] at h
    refine .inr ⟨u, rfl, ?_⟩
    cases hrender : o.render with
    | false =>
      rw [hrender, if_neg (by simp)] at h
      obtain ⟨-, rfl⟩ := Prod.mk.inj h
      exact .inl ⟨rfl, rfl⟩
    | true =>
      rw [hrender, if_pos rfl] at h
      -- drawing tells of its own failure, but leaves its tree in any case
      rcases hdraw : u.draw env.here env.layout g (sourcePath env o) with ⟨v, r⟩
      have htree : v = p.tree := by
        rw [hdraw] at h
        have htree := congrArg (·.2.tree) h
        rwa [drawingOutcome_tree] at htree
      rw [htree]
      exact .inr ⟨rfl, r, rfl⟩

lemma writable_of_program_ok (hs : (survey t env.here o).1 = .ok g)
    (h : (program env o).outcome { tree := t } = (.ok (), p)) :
    t.Writable env.here (.ofText (outputPath env o)) := by
  rcases program_cases hs h with ⟨-, ⟨r, hr⟩, -⟩ | ⟨u, hu, -⟩
  · cases hr
  · exact writable_iff.mpr ⟨u, hu⟩

section Parts

variable (ht : t.LinkFree) (hs : (survey t env.here o).1 = .ok g)
  (h : (program env o).outcome { tree := t } = (result, p))

include ht hs h

lemma program_adds : t.Adds p.tree (artifacts env o) := by
  rcases program_cases hs h with ⟨htree, -⟩ | ⟨u, hu, hrest⟩
  · rw [htree]
    exact .refl _ _
  · have hadds : t.Adds u (artifacts env o) :=
      (puts_of_writeText ht hu).adds (List.mem_cons_self ..)
    refine hadds.trans ?_
    rcases hrest with ⟨-, htree⟩ | ⟨hrender, r, hdraw⟩
    · rw [htree]
      exact .refl _ _
    · exact draw_adds (hadds.linkFree ht) hdraw (mem_artifacts_iff.mpr (.inr ⟨hrender, .inl rfl⟩))
        (mem_artifacts_iff.mpr (.inr ⟨hrender, .inr rfl⟩))

variable (ho : o.output = some text)

include ho

lemma program_holds_output (hw : t.Writable env.here (.ofText (outputPath env o))) :
    p.tree.Holds env.here (.ofText (outputPath env o)) (g.exported o.format) := by
  rcases program_cases hs h with ⟨-, -, hnot⟩ | ⟨u, hu, hrest⟩
  · exact absurd hw hnot
  · have hadds : t.Adds u (artifacts env o) :=
      (puts_of_writeText ht hu).adds (List.mem_cons_self ..)
    have hholds := holds_of_writeText ht hu
    rcases hrest with ⟨-, htree⟩ | ⟨-, r, hdraw⟩
    · rw [htree]
      exact hholds
    · rcases output_eq_or_ne_source ht ho hw with ⟨hpath, hformat⟩ | hne
      · rw [hpath] at hw ⊢
        rw [hformat]
        exact draw_holds (hadds.linkFree ht) hdraw (source_ne_document ht ho (hpath ▸ hw))
          (hadds.writable ht hw)
      · exact draw_keeps (hadds.linkFree ht) hdraw hholds hne (output_ne_document ht ho hw)

lemma program_holds_source (hrender : o.render = true)
    (hw : t.Writable env.here (.ofText (outputPath env o)))
    (hsource : t.Writable env.here (.ofText (sourcePath env o))) :
    p.tree.Holds env.here (.ofText (sourcePath env o)) g.dot := by
  rcases program_cases hs h with ⟨-, -, hnot⟩ | ⟨u, hu, ⟨hno, -⟩ | ⟨-, r, hdraw⟩⟩
  · exact absurd hw hnot
  · rw [hrender] at hno
    cases hno
  · have hadds : t.Adds u (artifacts env o) :=
      (puts_of_writeText ht hu).adds (List.mem_cons_self ..)
    exact draw_holds (hadds.linkFree ht) hdraw (source_ne_document ht ho hw)
      (hadds.writable ht hsource)

end Parts

/-- A run that cannot write its output changes nothing. -/
lemma runOptions_tree_of_not_writable
    (hg : env.tree.packageGraph env.here o.root o.filter = .ok g)
    (h : ¬env.tree.Writable env.here (.ofText (outputPath env o))) :
    (runOptions env o).tree = env.tree := by
  rw [(runOptions_eq env o).1]
  rcases hout : (program env o).outcome { tree := env.tree } with ⟨result, p⟩
  rcases program_cases (survey_eq_ok_iff.mpr hg) hout with ⟨htree, -⟩ | ⟨u, hu, -⟩
  · exact htree
  · exact absurd (writable_iff.mpr ⟨u, hu⟩) h

/-! ### A package beside a directory -/

def bare : Location := ⟨[⟨"pkg", by decide +kernel⟩]⟩

/-- A package of one empty file, beside a directory. -/
def bareTree : FileTree :=
  (empty.add (bare.child initName) (.file #[])).makeDirectory ⟨[⟨"x.html", by decide +kernel⟩]⟩

/-- A call in the directory that holds the package. -/
def bareEnvironment : Environment := { tree := bareTree, here := .root, temporary := "/tmp/x" }

def bareOptions (output : String) : Options :=
  { root := "pkg", output := some output, render := true }

lemma bareTree_linkFree : bareTree.LinkFree := by
  have hentries : bareTree.table.entries = [(bare, .directory),
      (bare.child initName, .file #[]), (⟨[⟨"x.html", by decide +kernel⟩]⟩, .directory)] := rfl
  exact linkFree_of_entries (by simp [hentries])

lemma bare_packageRoot : bareTree.packageRoot .root "pkg" = .ok bare := by
  have hroot : Path.ofText "pkg" = ⟨false, bare.names.map .down⟩ := by decide +kernel
  have hfile : Path.ofText (Path.join "pkg" initName.text) =
      ⟨false, (bare.child initName).names.map .down⟩ := by decide +kernel
  refine packageRoot_eq_ok_iff.mpr ⟨?_, rfl, isFile_iff.mpr ⟨bare.child initName, #[], ?_, rfl⟩⟩
  · rw [hroot]
    exact resolve_names (e := .directory) (by decide) rfl (by simp)
  · rw [hfile]
    exact resolve_names (e := .file #[]) (by decide) rfl (by simp)

lemma bare_sourceFiles : bareTree.sourceFiles bare = [bare.child initName] := by
  have hdir : bareTree.entry? bare = some .directory := rfl
  have hfile : bareTree.entry? (bare.child initName) = some (.file #[]) := rfl
  have hwithin : bareTree.within bare = [bare, bare.child initName] := rfl
  rw [sourceFiles, hwithin]
  simp only [List.filter_cons, List.filter_nil, isSourceFile_eq hdir (by simp),
    isSourceFile_eq hfile (by simp)]
  rfl

lemma exists_bare_graph : ∃ g, bareTree.packageGraph .root "pkg" .all = .ok g := by
  obtain ⟨imports, himports⟩ : ∃ imports, resolveSource "" ⟨["pkg"]⟩ = .ok imports :=
    exists_ok_of_isSome (by decide +kernel)
  have hentry : bareTree.entry? (bare.child initName) = some (.file #[]) := rfl
  have hfile : bareTree.ResolvesTo bare (bare.child initName) (⟨["pkg"]⟩, imports) :=
    resolvesTo_of_source rfl hentry rfl (by decide +kernel) himports
  have hroot : bareTree.resolve .root bare.path = .ok bare :=
    resolve_path (e := .directory) rfl (by simp)
  have hall : ∀ f ∈ [bare.child initName], ∃ m, bareTree.ResolvesTo bare f m := fun f hf =>
    ⟨_, List.mem_singleton.mp hf ▸ hfile⟩
  obtain ⟨ms, hms, -⟩ := resolveFiles_ok hall
  refine ⟨graphOf bare .all ms, ?_⟩
  rw [packageGraph, bare_packageRoot]
  show bareTree.importGraph .root bare.path .all = _
  rw [importGraph_eq hroot, bare_sourceFiles, hms]
  rfl

lemma bare_ofArguments {output : String} (h : output ∈ ["x", "y", "pkg/y"]) :
    Options.ofArguments ["pkg", "-o", output, "--render"] = .ok (bareOptions output) := by
  simp only [List.mem_cons, List.not_mem_nil, or_false] at h
  rcases h with rfl | rfl | rfl <;> decide +kernel

lemma bare_writable {n : FileName} (hn : Path.ofText text = ⟨false, [.down n]⟩)
    (h : bareTree.entry? (Location.root.child n) = none) :
    bareTree.Writable .root (.ofText text) := by
  rw [hn]
  exact writable_name bareTree_linkFree rfl (by rw [h]; simp)

/-! ### The result -/

/-- **What a run leaves behind.** If there is no package or no graph of it, a run ends with status
1, prints nothing and changes nothing. Otherwise a run with an output changes nothing but the output
and, if it draws, the source and the document beside it. The output holds the graph if the run ends
with status 0, and wherever it could be written at all; then the source of a drawing holds the
graph too if that could be written, whatever the layout program does. -/
theorem run_artifacts (env : Environment) {o : Options} {arguments : List String}
    (ht : env.tree.LinkFree) (ho : Options.ofArguments arguments = .ok o) :
    (∀ e, env.tree.packageGraph env.here o.root o.filter = .error e →
      (run env arguments).code = 1 ∧ (run env arguments).stdout = "" ∧
        (run env arguments).tree = env.tree) ∧
    ∀ g text, env.tree.packageGraph env.here o.root o.filter = .ok g → o.output = some text →
      let path := Path.withExtension text o.format.extension
      let source := Path.withExtension path Format.dot.extension
      let after := (run env arguments).tree
      (∀ l, after.entry? l ≠ env.tree.entry? l →
        l = (Path.ofText path).place env.here ∨
          o.render ∧ (l = (Path.ofText source).place env.here ∨
            l = (Path.ofText (documentPath source)).place env.here)) ∧
      ((run env arguments).code = 0 ∨ env.tree.Writable env.here (.ofText path) →
        after.readText env.here (.ofText path) = .ok (g.exported o.format)) ∧
      (o.render → env.tree.Writable env.here (.ofText path) →
        env.tree.Writable env.here (.ofText source) →
        after.readText env.here (.ofText source) = .ok g.dot) := by
  obtain ⟨htree, hstdout, hcode⟩ := runOptions_eq env o
  rw [run_eq_runOptions ho, htree, hstdout, hcode]
  constructor
  · intro e he
    obtain ⟨r, hr⟩ := survey_error he
    rw [outcome_program_failed (p := { tree := env.tree }) hr]
    exact ⟨rfl, rfl, rfl⟩
  · intro g text hg htext path source after
    have hs := survey_eq_ok_iff.mpr hg
    rcases hout : (program env o).outcome { tree := env.tree } with ⟨result, p⟩
    have hafter : after = p.tree := congrArg (·.2.tree) hout
    have hpath : outputPath env o = path := outputPath_eq htext
    have hsource : sourcePath env o = source := by rw [sourcePath, hpath]
    rw [hafter, ← hsource, ← hpath]
    refine ⟨fun l hl => ?_, fun hwritten => ?_, fun hrender hw hws => ?_⟩
    · by_contra hnot
      exact hl ((program_adds ht hs hout).entry?_eq fun hmem => hnot (mem_artifacts_iff.mp hmem))
    · -- a run that ends well has written its output, so that could be written
      have hw : env.tree.Writable env.here (.ofText (outputPath env o)) := by
        rcases hwritten with hcode | hw
        · cases result with
          | error r => cases hcode
          | ok => exact writable_of_program_ok hs hout
        · exact hw
      exact (program_holds_output ht hs hout htext hw).readText
    · exact (program_holds_source ht hs hout htext hrender hw hws).readText

/-- A drawing of a package, without a layout program, leaves both files. -/
theorem run_artifacts_bare :
    ∃ g, bareTree.packageGraph .root "pkg" .all = .ok g ∧
      let after := (run bareEnvironment ["pkg", "-o", "y", "--render"]).tree
      after.readText .root (.ofText "y.html") = .ok (g.exported .html) ∧
        after.readText .root (.ofText "y.gv") = .ok g.dot := by
  obtain ⟨g, hg⟩ := exists_bare_graph
  have hrun := (run_artifacts bareEnvironment bareTree_linkFree (bare_ofArguments (by simp))).2
    g "y" hg rfl
  have hpath : Path.withExtension "y" (bareOptions "y").format.extension = "y.html" := by
    decide +kernel
  have hsource : Path.withExtension "y.html" Format.dot.extension = "y.gv" := by decide +kernel
  rw [hpath] at hrun
  dsimp only at hrun
  rw [hsource] at hrun
  obtain ⟨-, houtput, hdrawn⟩ := hrun
  have hwo : bareTree.Writable .root (.ofText "y.html") :=
    bare_writable (n := ⟨"y.html", by decide +kernel⟩) (by decide +kernel) rfl
  have hws : bareTree.Writable .root (.ofText "y.gv") :=
    bare_writable (n := ⟨"y.gv", by decide +kernel⟩) (by decide +kernel) rfl
  exact ⟨g, hg, houtput (.inr hwo), hdrawn rfl hwo hws⟩

/-- Where the output is a directory, nothing is drawn, though the source could be written. -/
theorem bare_source_not_written :
    bareTree.LinkFree ∧
      Options.ofArguments ["pkg", "-o", "x", "--render"] = .ok (bareOptions "x") ∧
      ∃ g, bareTree.packageGraph .root "pkg" .all = .ok g ∧
        bareTree.Writable .root (.ofText (sourcePath bareEnvironment (bareOptions "x"))) ∧
        (run bareEnvironment ["pkg", "-o", "x", "--render"]).tree.readText .root
          (.ofText (sourcePath bareEnvironment (bareOptions "x"))) ≠ .ok g.dot := by
  obtain ⟨g, hg⟩ := exists_bare_graph
  have hoptions : Options.ofArguments ["pkg", "-o", "x", "--render"] = .ok (bareOptions "x") :=
    bare_ofArguments (by simp)
  have hpath : Path.ofText (outputPath bareEnvironment (bareOptions "x")) =
      ⟨false, [.down ⟨"x.html", by decide +kernel⟩]⟩ := by decide +kernel
  have hsource : Path.ofText (sourcePath bareEnvironment (bareOptions "x")) =
      ⟨false, [.down ⟨"x.gv", by decide +kernel⟩]⟩ := by decide +kernel
  refine ⟨bareTree_linkFree, hoptions, g, hg, bare_writable hsource rfl, fun hread => ?_⟩
  -- the output is the directory beside the package
  have hnot :
      ¬bareTree.Writable .root (.ofText (outputPath bareEnvironment (bareOptions "x"))) := by
    rintro ⟨l, hl, hdir⟩
    rw [hpath] at hl
    obtain rfl := resolve_eq_place bareTree_linkFree hl
    exact hdir rfl
  have htree : (run bareEnvironment ["pkg", "-o", "x", "--render"]).tree = bareTree := by
    rw [run_eq_runOptions hoptions]
    exact runOptions_tree_of_not_writable hg hnot
  rw [htree, hsource] at hread
  obtain ⟨l, hl, hentry⟩ := readText_eq_ok_iff.mp hread
  obtain rfl := resolve_eq_place bareTree_linkFree hl
  cases hentry

end ImportAtlas.CommandLine
