import ImportAtlas.CommandLine.Program
import ImportAtlas.Proofs.PackageGraph

/-!
A run, part by part: what each part of the program comes to and what it leaves behind.

The package is surveyed first, which changes nothing. Then the graph is written, and at last it is
drawn; a part that fails ends the run.
-/

namespace ImportAtlas

namespace FileTree

def packageGraph (t : FileTree) (here : Location) (path : String) (F : ModuleFilter) :
    Except PackageError ImportGraph := do
  let root ← t.packageRoot here path
  t.importGraph here root.path F

variable {t : FileTree} {here root : Location} {path : String}

lemma isDirectory_iff {p : Path} :
    t.isDirectory here p = true ↔ ∃ l, t.resolve here p = .ok l ∧ t.entry? l = some .directory := by
  unfold isDirectory resolveEntry?
  rw [decide_eq_true_eq]
  cases t.resolve here p <;> simp [Except.toOption]

lemma isFile_iff {p : Path} :
    t.isFile here p = true ↔ ∃ l c, t.resolve here p = .ok l ∧ t.entry? l = some (.file c) := by
  unfold isFile resolveEntry?
  cases t.resolve here p with
  | error e => simp [Except.toOption]
  | ok l =>
    simp only [Except.toOption, Option.bind_some, Except.ok.injEq, exists_and_left,
      exists_eq_left']
    split
    · rename_i c hentry
      simp [hentry]
    · rename_i hnot
      simp only [Bool.false_eq_true, false_iff, not_exists]
      exact hnot

lemma packageRoot_eq_ok_iff :
    t.packageRoot here path = .ok root ↔
      t.resolve here (.ofText path) = .ok root ∧ t.entry? root = some .directory ∧
        t.isFile here (.ofText (Path.join path initName.text)) = true := by
  unfold packageRoot
  cases hdir : t.isDirectory here (.ofText path) with
  | false =>
    have hnot : ¬∃ l, t.resolve here (.ofText path) = .ok l ∧ t.entry? l = some .directory :=
      fun h => by simp [isDirectory_iff.mpr h] at hdir
    simp only [Bool.not_false, if_true, reduceCtorEq, false_iff]
    rintro ⟨hroot, hentry, -⟩
    exact hnot ⟨root, hroot, hentry⟩
  | true =>
    obtain ⟨l, hl, hentry⟩ := isDirectory_iff.mp hdir
    cases hfile : t.isFile here (.ofText (Path.join path initName.text)) with
    | false => simp
    | true =>
      simp only [hl, Bool.not_true, Bool.false_eq_true, if_false, Except.mapError, Except.ok.injEq,
        and_true]
      constructor
      · rintro rfl
        exact ⟨rfl, hentry⟩
      · exact And.left

end FileTree

namespace CommandLine

open FileTree

variable {α β : Type} {here : Location} {o : Options} {p p' : Progress} {g : ImportGraph}

/-! ### Parts in turn -/

namespace Run

/-- What a part of a run comes to and leaves behind. -/
def outcome (r : Run α) (p : Progress) : Except Report α × Progress := r.run.run p

variable {r : Run α} {f : α → Run β} {a : α} {e : Report}

lemma outcome_bind_ok (h : r.outcome p = (.ok a, p')) :
    (r >>= f).outcome p = (f a).outcome p' := by
  show (match r.outcome p with | (x, p') => ExceptT.bindCont f x p') = _
  rw [h]
  rfl

lemma outcome_bind_error (h : r.outcome p = (.error e, p')) :
    (r >>= f).outcome p = (.error e, p') := by
  show (match r.outcome p with | (x, p') => ExceptT.bindCont f x p') = _
  rw [h]
  rfl

lemma outcome_get_bind {f : Progress → Run β} :
    (get >>= f : Run β).outcome p = (f p).outcome p := rfl

lemma outcome_modify_bind {f : Progress → Progress} {r : Run β} :
    (modify f >>= fun _ => r : Run β).outcome p = r.outcome (f p) := rfl

lemma outcome_log_bind {messages : List Message} {r : Run β} :
    (log messages >>= fun _ => r).outcome p =
      r.outcome { p with messages := p.messages ++ messages } := rfl

lemma outcome_orReport_ok {ε : Type} {summary : String} {causes : ε → List String} :
    (orReport (.ok a) summary causes >>= f).outcome p = (f a).outcome p := rfl

lemma outcome_orReport_error {ε : Type} {e : ε} {summary : String} {causes : ε → List String} :
    (orReport (.error e) summary causes >>= f).outcome p =
      (.error ⟨summary, causes e⟩, p) := rfl

end Run

/-! ### The survey of the package -/

/-- The graph of the package that is asked for, or a report, and what is logged on the way. -/
def survey (t : FileTree) (here : Location) (o : Options) :
    Except Report ImportGraph × List Message :=
  match t.packageRoot here o.root with
  | .error e => (.error ⟨s!"Invalid package root {o.root}", e.chain⟩, [])
  | .ok root =>
    let messages := scanMessages root (t.sourceFiles root) (t.modules root)
    match t.modules root with
    | .error e => (.error ⟨s!"Failed to build import graph for {root.text}", e.chain⟩, messages)
    | .ok modules =>
      let g := graphOf root o.filter modules
      (.ok g, messages ++ graphMessages modules g ++ findings g)

/-- Building the graph logs messages and changes nothing else. -/
lemma outcome_buildGraph :
    (buildGraph here o).outcome p = ((survey p.tree here o).1,
      { p with messages := p.messages ++ (survey p.tree here o).2 }) := by
  unfold survey buildGraph
  rw [Run.outcome_get_bind]
  dsimp only
  -- the run and the survey take the same two turns: at the package, and at its modules
  cases p.tree.packageRoot here o.root with
  | error e =>
    rw [Run.outcome_orReport_error]
    simp
  | ok root =>
    rw [Run.outcome_orReport_ok, Run.outcome_log_bind]
    dsimp only
    cases p.tree.modules root with
    | error e => rw [Run.outcome_orReport_error]
    | ok modules =>
      rw [Run.outcome_orReport_ok, Run.outcome_log_bind, Run.outcome_log_bind]
      simp only [List.append_assoc]
      rfl

lemma survey_eq_ok_iff :
    (survey t here o).1 = .ok g ↔ t.packageGraph here o.root o.filter = .ok g := by
  unfold survey packageGraph
  cases hroot : t.packageRoot here o.root with
  | error e => simp [bind, Except.bind]
  | ok root =>
    have hpath : t.resolve here root.path = .ok root :=
      resolve_path (packageRoot_eq_ok_iff.mp hroot).2.1 (by simp)
    simp only [bind, Except.bind, importGraph, hpath, Except.mapError]
    cases t.modules root <;> simp [pure, Except.pure]

lemma survey_error {e : PackageError} (h : t.packageGraph here o.root o.filter = .error e) :
    ∃ r, (survey t here o).1 = .error r := by
  cases hs : (survey t here o).1 with
  | error r => exact ⟨r, rfl⟩
  | ok g =>
    rw [survey_eq_ok_iff, h] at hs
    cases hs

/-! ### The graph that is written -/

variable {env : Environment} {messages : List Message} {r : Report} {t' : FileTree}

def written (env : Environment) (o : Options) (p : Progress) (t : FileTree) : Progress where
  tree := t
  stdout := if o.output.isNone then p.stdout ++ s!"file://{outputPath env o}\n" else p.stdout
  messages := p.messages ++
    [⟨.info, .program, s!"Wrote {o.format.name} output to {outputPath env o}"⟩]

lemma outcome_writeGraph_ok
    (h : p.tree.writeText env.here (.ofText (outputPath env o)) (g.exported o.format) = .ok t) :
    (writeGraph env o g).outcome p = (.ok (), written env o p t) := by
  unfold writeGraph written
  rw [Run.outcome_get_bind, h, Run.outcome_orReport_ok, Run.outcome_modify_bind]
  cases o.output <;> rfl

lemma outcome_writeGraph_error {e : FileError}
    (h : p.tree.writeText env.here (.ofText (outputPath env o)) (g.exported o.format) = .error e) :
    (writeGraph env o g).outcome p =
      (.error ⟨s!"Failed to write {outputPath env o}", [e.message]⟩, p) := by
  unfold writeGraph
  rw [Run.outcome_get_bind, h, Run.outcome_orReport_error]

/-! ### The graph that is drawn -/

/-- What drawing to a source file comes to. -/
def drawingOutcome (source : String) (p : Progress) :
    FileTree × Except DrawingError String → Except Report Unit × Progress
  | (t, .error (.file e)) =>
    (.error ⟨s!"Failed to render {source}", (DrawingError.file e).chain⟩, { p with tree := t })
  | (t, .error e) =>
    (.error ⟨s!"Failed to render {source}", e.chain⟩,
      { p with tree := t, messages := p.messages ++
          [⟨.debug, .drawing, s!"Running dot on {source}"⟩] })
  | (t, .ok document) =>
    (.ok (),
      { p with tree := t, messages := p.messages ++
          [⟨.debug, .drawing, s!"Running dot on {source}"⟩] ++
            [⟨.info, .program, s!"Rendered {document}"⟩] })

lemma outcome_drawGraph {path : String} :
    (drawGraph env path g).outcome p =
      drawingOutcome (Path.withExtension path Format.dot.extension) p
        (p.tree.draw env.here env.layout g (Path.withExtension path Format.dot.extension)) := by
  unfold drawGraph
  rw [Run.outcome_get_bind]
  dsimp only
  rcases p.tree.draw env.here env.layout g _ with ⟨t, e | document⟩
  · cases e <;> rfl
  · rfl

/-! ### The whole run -/

/-- What is done when the package was surveyed. -/
def surveyed (env : Environment) (o : Options) (p : Progress) : Progress :=
  { p with messages := p.messages ++ (survey p.tree env.here o).2 }

lemma outcome_program_failed (h : (survey p.tree env.here o).1 = .error r) :
    (program env o).outcome p = (.error r, surveyed env o p) := by
  unfold program
  refine Run.outcome_bind_error ?_
  rw [outcome_buildGraph, h]
  rfl

/-- If the graph cannot be written, it is not drawn either. -/
lemma outcome_program_unwritten {e : FileError} (hs : (survey p.tree env.here o).1 = .ok g)
    (hw : p.tree.writeText env.here (.ofText (outputPath env o)) (g.exported o.format) =
      .error e) :
    (program env o).outcome p =
      (.error ⟨s!"Failed to write {outputPath env o}", [e.message]⟩, surveyed env o p) := by
  have hgraph : (buildGraph env.here o).outcome p = (.ok g, surveyed env o p) := by
    rw [outcome_buildGraph, hs]
    rfl
  unfold program
  rw [Run.outcome_bind_ok hgraph]
  exact Run.outcome_bind_error (outcome_writeGraph_error hw)

def sourcePath (env : Environment) (o : Options) : String :=
  Path.withExtension (outputPath env o) Format.dot.extension

/-- The graph that was written is drawn if that is asked for. -/
lemma outcome_program_written (hs : (survey p.tree env.here o).1 = .ok g)
    (hw : p.tree.writeText env.here (.ofText (outputPath env o)) (g.exported o.format) = .ok t) :
    (program env o).outcome p =
      if o.render then
        drawingOutcome (sourcePath env o) (written env o (surveyed env o p) t)
          (t.draw env.here env.layout g (sourcePath env o))
      else (.ok (), written env o (surveyed env o p) t) := by
  have hgraph : (buildGraph env.here o).outcome p = (.ok g, surveyed env o p) := by
    rw [outcome_buildGraph, hs]
    rfl
  have hwrite : (writeGraph env o g).outcome (surveyed env o p) =
      (.ok (), written env o (surveyed env o p) t) := outcome_writeGraph_ok hw
  unfold program
  rw [Run.outcome_bind_ok hgraph, Run.outcome_bind_ok hwrite]
  cases o.render with
  | false => rfl
  | true =>
    rw [if_pos rfl, if_pos rfl]
    exact outcome_drawGraph

@[simp] lemma drawingOutcome_tree {source : String} {d : FileTree × Except DrawingError String} :
    (drawingOutcome source p d).2.tree = d.1 := by
  obtain ⟨t, e | document⟩ := d
  · cases e <;> rfl
  · rfl

/-- What a run with options leaves behind, part by part. -/
lemma runOptions_eq (env : Environment) (o : Options) :
    (runOptions env o).tree = ((program env o).outcome { tree := env.tree }).2.tree ∧
      (runOptions env o).stdout = ((program env o).outcome { tree := env.tree }).2.stdout ∧
      (runOptions env o).code =
        match ((program env o).outcome { tree := env.tree }).1 with
        | .ok _ => 0
        | .error _ => 1 := by
  unfold runOptions Run.outcome
  rcases (program env o).run.run { tree := env.tree } with ⟨_ | _, p⟩
  · exact ⟨rfl, rfl, rfl⟩
  · exact ⟨rfl, rfl, rfl⟩

lemma run_eq_runOptions {arguments : List String} (h : Options.ofArguments arguments = .ok o) :
    run env arguments = runOptions env o := by
  rw [run, h]

end CommandLine

end ImportAtlas
