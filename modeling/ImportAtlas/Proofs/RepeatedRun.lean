import ImportAtlas.Proofs.RunArtifacts

/-!
Runs that are repeated.

What a run writes is never called like a source file. So the package is the same afterwards, each
file that was written holds what would be written to it, and a file that could not be written
cannot be written again: the same run once more prints the same and changes nothing.
-/

namespace ImportAtlas

namespace FileName

def EndsAsSource (n : FileName) : Prop := ".py".toList <:+ n.text.toList

variable {n : FileName} {e : String}

lemma endsAsSource_of_isSource (h : n.isSource = true) : n.EndsAsSource :=
  ⟨n.stem.toList, by rw [text_of_isSource h, String.toList_append]⟩

/-- The last character tells that a name does not end so. -/
lemma not_endsAsSource_extend {he : IsEnding e} (hlast : e.toList.getLast? ≠ some 'y') :
    ¬(n.extend e he).EndsAsSource := by
  rintro ⟨s, hs⟩
  refine hlast ?_
  have hext := congrArg List.getLast? hs
  rw [toList_extend, List.getLast?_append_cons, List.getLast?_cons_of_ne_nil he.1] at hext
  rw [← hext]
  simp

end FileName

lemma Format.getLast?_extension_ne (f : Format) : f.extension.toList.getLast? ≠ some 'y' := by
  cases f <;> decide

lemma getLast?_documentEnding_ne : documentEnding.toList.getLast? ≠ some 'y' := by decide

namespace CommandLine

open FileTree

variable {env : Environment} {o : Options} {t : FileTree} {g : ImportGraph} {text : String}
variable {p q : Progress} {result : Except Report Unit}

lemma not_endsAsSource_of_mem_artifacts (ht : t.LinkFree) (ho : o.output = some text)
    (h : t.Writable env.here (.ofText (outputPath env o))) {l : Location} {n : FileName}
    (hl : l ∈ artifacts env o) (hn : l.name? = some n) : ¬n.EndsAsSource := by
  obtain ⟨d, m, houtput, hsource, hdocument⟩ := exists_run_places ht ho h
  have hname : ∃ e, ∃ he : FileName.IsEnding e, n = m.extend e he ∧
      e.toList.getLast? ≠ some 'y' := by
    rcases mem_artifacts_iff.mp hl with hl | ⟨-, hl | hl⟩
    · rw [hl, houtput, Location.name?_child, Option.some.injEq] at hn
      exact ⟨_, _, hn.symm, Format.getLast?_extension_ne _⟩
    · rw [hl, hsource, Location.name?_child, Option.some.injEq] at hn
      exact ⟨_, _, hn.symm, Format.getLast?_extension_ne _⟩
    · rw [hl, hdocument, Location.name?_child, Option.some.injEq] at hn
      exact ⟨_, _, hn.symm, getLast?_documentEnding_ne⟩
  obtain ⟨e, he, rfl, hlast⟩ := hname
  exact FileName.not_endsAsSource_extend hlast

lemma noSources_artifacts (ht : t.LinkFree) (ho : o.output = some text)
    (h : t.Writable env.here (.ofText (outputPath env o))) : NoSources (artifacts env o) := by
  intro l hl
  cases hn : l.name? with
  | none => rfl
  | some n =>
    refine Bool.eq_false_iff.mpr fun hsource => ?_
    exact not_endsAsSource_of_mem_artifacts ht ho h hl hn
      (FileName.endsAsSource_of_isSource hsource)

/-- What is told of a drawing does not depend on the tree that it was made in. -/
lemma drawingOutcome_congr {source : String} {d : FileTree × Except DrawingError String}
    (hstdout : p.stdout = q.stdout) (hmessages : p.messages = q.messages) :
    drawingOutcome source p d = drawingOutcome source q d := by
  obtain ⟨t, e | document⟩ := d
  · cases e <;> simp [drawingOutcome, hstdout, hmessages]
  · simp [drawingOutcome, hstdout, hmessages]

lemma program_again (ht : t.LinkFree) (ho : o.output = some text)
    (h : (program env o).outcome { tree := t } = (result, p)) :
    (program env o).outcome { tree := p.tree } = (result, p) := by
  cases hs : (survey t env.here o).1 with
  | error r =>
    have htree : p.tree = t := by
      rw [outcome_program_failed (p := { tree := t }) hs] at h
      exact (congrArg (·.2.tree) h).symm
    rwa [htree]
  | ok g =>
    rcases program_cases hs h with ⟨htree, -⟩ | ⟨u, hu, hrest⟩
    · rwa [htree]
    · have hw := writable_iff.mpr ⟨u, hu⟩
      have hadds := program_adds ht hs h
      -- the second survey comes to the same graph, which is written over itself
      have hsurvey := hadds.survey ht (noSources_artifacts ht ho hw) hs
      have hagain := (program_holds_output ht hs h ho hw).writeText_eq_self (hadds.linkFree ht)
      rw [outcome_program_written (p := { tree := p.tree }) (hsurvey ▸ hs) hagain]
      rw [outcome_program_written (p := { tree := t }) hs hu] at h
      -- both runs differ in the tree alone, so they log and print the same
      have hsurveyed : written env o (surveyed env o { tree := p.tree }) p.tree =
          { written env o (surveyed env o { tree := t }) u with tree := p.tree } := by
        unfold surveyed
        dsimp only
        rw [hsurvey]
        rfl
      rw [hsurveyed]
      rcases hrest with ⟨hrender, htree⟩ | ⟨hrender, r, hdraw⟩
      · rw [hrender, if_neg (by simp)] at h ⊢
        rw [htree]
        exact h
      · have hlinkFree : u.LinkFree := (puts_of_writeText ht hu).linkFree ht
        rw [hrender, if_pos rfl] at h ⊢
        rw [draw_again hlinkFree hdraw (source_ne_document ht ho hw), ← h, hdraw]
        exact drawingOutcome_congr rfl rfl

lemma program_tree (env : Environment) (o : Options) (t : FileTree) :
    program { env with tree := t } o = program env o := by
  have houtput : outputPath { env with tree := t } o = outputPath env o := rfl
  have hwrite : ∀ g, writeGraph { env with tree := t } o g = writeGraph env o g := by
    intro g
    unfold writeGraph
    simp only [houtput]
  have hdraw : ∀ path g, drawGraph { env with tree := t } path g = drawGraph env path g := by
    intro path g
    simp only [drawGraph]
  unfold program
  simp only [houtput, hwrite, hdraw]

/-- What a run leaves behind is told by what its program comes to. -/
lemma runOptions_congr {env' : Environment} (hlog : env'.log = env.log)
    (h : (program env' o).outcome { tree := env'.tree } =
      (program env o).outcome { tree := env.tree }) :
    runOptions env' o = runOptions env o := by
  unfold Run.outcome at h
  unfold runOptions logFilter
  rw [h, hlog]

/-- **A run does not touch a later one.** A run with an output changes nothing that is called like a
source file, and the same run once more, in the tree that the first one left behind, ends with the
same status, prints the same and leaves the same tree. -/
theorem run_again (env : Environment) {o : Options} {arguments : List String}
    (ht : env.tree.LinkFree) (ho : Options.ofArguments arguments = .ok o)
    (houtput : o.output.isSome = true) :
    (∀ l n, l.name? = some n → n.EndsAsSource →
      FileTree.entry? (run env arguments).tree l = env.tree.entry? l) ∧
    run { env with tree := (run env arguments).tree } arguments = run env arguments := by
  obtain ⟨text, htext⟩ := Option.isSome_iff_exists.mp houtput
  have htree := (runOptions_eq env o).1
  rw [run_eq_runOptions ho, run_eq_runOptions ho, htree]
  rcases hout : (program env o).outcome { tree := env.tree } with ⟨result, p⟩
  constructor
  · intro l n hn hsource
    cases hs : (survey env.tree env.here o).1 with
    | error r =>
      rw [outcome_program_failed (p := { tree := env.tree }) hs] at hout
      obtain ⟨-, rfl⟩ := Prod.mk.inj hout
      rfl
    | ok g =>
      -- what cannot be written is not, and what is written is not called like a source
      by_cases hw : env.tree.Writable env.here (.ofText (outputPath env o))
      · exact (program_adds ht hs hout).entry?_eq fun hmem =>
          not_endsAsSource_of_mem_artifacts ht htext hw hmem hn hsource
      · rcases program_cases hs hout with ⟨htree, -⟩ | ⟨u, hu, -⟩
        · exact congrArg (fun t => t.entry? l) htree
        · exact absurd (writable_iff.mpr ⟨u, hu⟩) hw
  · refine runOptions_congr rfl ?_
    rw [program_tree]
    exact (program_again ht htext hout).trans hout.symm

/-- Drawing into the package, twice. -/
theorem run_again_bare :
    let arguments := ["pkg", "-o", "pkg/y", "--render"]
    let first := run bareEnvironment arguments
    first.tree.entry? (bare.child initName) = some (.file #[]) ∧
      run { bareEnvironment with tree := first.tree } arguments = first := by
  obtain ⟨hkept, hagain⟩ := run_again bareEnvironment bareTree_linkFree
    (bare_ofArguments (List.mem_of_getLast? rfl)) rfl
  refine ⟨(hkept _ initName Location.name?_child ?_).trans rfl, hagain⟩
  exact FileName.endsAsSource_of_isSource (by decide +kernel)

end CommandLine

end ImportAtlas
