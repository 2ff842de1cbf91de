import ImportAtlas.Proofs.Assembly
import ImportAtlas.Proofs.Walk

/-!
The import graph of a package, from the walk through its directory.

The source files met in the walk are resolved one by one, as long as that goes well. So the first
of them that does not resolve is the error, and without such a file the graph is made of all of
them.
-/

namespace ImportAtlas

namespace FileTree

variable {t : FileTree} {root file : Location} {files : List Location}

/-- The file is the module `m` of the package at `root`, with its imports. -/
def ResolvesTo (t : FileTree) (root file : Location) (m : ResolvedModule) : Prop :=
  t.resolveFile .root file.path root.path = .ok m

/-! ### A file that is no link -/

/-- What stands at a place decides, with its name, whether it is a source file. -/
lemma isSourceFile_eq {e : Entry} (h : t.entry? file = some e)
    (hlink : ∀ target, e ≠ .link target) :
    t.isSourceFile file = (e ≠ .directory && file.name?.any FileName.isSource) := by
  unfold isSourceFile isFile resolveEntry?
  rw [resolve_path h hlink]
  cases e with
  | directory => simp [Except.toOption, h]
  | file content => simp [Except.toOption, h]
  | link target => exact absurd rfl (hlink target)

lemma resolveFile_eq {content : Array UInt8} {m : ModulePath}
    (hroot : t.entry? root = some .directory) (hfile : t.entry? file = some (.file content))
    (hm : ModulePath.ofLocation file root = .ok m) :
    t.resolveFile .root file.path root.path =
      match String.fromUTF8? ⟨content⟩ with
      | none => .error (.unreadable .notText)
      | some text => ((resolveSource text m).mapError .source).map (m, ·) := by
  unfold resolveFile moduleAt readText
  rw [resolve_path hroot (by simp), resolve_path hfile (by simp)]
  simp only [Except.mapError, bind, Except.bind, hm, hfile]
  cases String.fromUTF8? ⟨content⟩ with
  | none => rfl
  | some text => cases resolveSource text m <;> rfl

lemma resolvesTo_of_source {content : Array UInt8} {source : String} {m : ModulePath}
    {imports : OrderedSet ModulePath} (hroot : t.entry? root = some .directory)
    (hfile : t.entry? file = some (.file content)) (hm : ModulePath.ofLocation file root = .ok m)
    (htext : String.fromUTF8? ⟨content⟩ = some source)
    (hsource : resolveSource source m = .ok imports) : t.ResolvesTo root file (m, imports) := by
  rw [ResolvesTo, resolveFile_eq hroot hfile hm, htext]
  simp only [hsource]
  rfl

lemma fromUTF8?_toUTF8 (source : String) :
    String.fromUTF8? ⟨source.toUTF8.data⟩ = some source :=
  dif_pos source.isValidUTF8

lemma exists_resolvesTo {source : String} {m : ModulePath} {ps : List ModulePath}
    (hroot : t.entry? root = some .directory)
    (hfile : t.entry? file = some (.file source.toUTF8.data))
    (hm : ModulePath.ofLocation file root = .ok m)
    (hsource : (resolveSource source m).toOption.map OrderedSet.toList = some ps) :
    ∃ imports, t.ResolvesTo root file (m, imports) ∧ imports.toList = ps := by
  obtain ⟨imports, himports, hlist⟩ := Option.map_eq_some_iff.mp hsource
  exact ⟨imports, resolvesTo_of_source hroot hfile hm (fromUTF8?_toUTF8 source)
    (toOption_eq_some_iff.mp himports), hlist⟩

/-! ### The module of a file -/

/-- A file is a module by the places that its path and that of the package lead to. -/
lemma moduleAt_eq_ok_iff {here : Location} {p q : Path} {m : ModulePath} :
    t.moduleAt here p q = .ok m ↔ ∃ file root, t.resolve here p = .ok file ∧
      t.resolve here q = .ok root ∧ ModulePath.ofLocation file root = .ok m := by
  simp only [moduleAt, bind_eq_ok_iff, mapError_eq_ok_iff]
  constructor
  · rintro ⟨file, hfile, root, hroot, h⟩
    exact ⟨file, root, hfile, hroot, h⟩
  · rintro ⟨file, root, hfile, hroot, h⟩
    exact ⟨file, hfile, root, hroot, h⟩

/-- A file below the directory that holds the package is a module by the names on the way to it. -/
lemma ofLocation_eq_ok_iff {m : ModulePath} :
    ModulePath.ofLocation file root = .ok m ↔ root ≠ .root ∧
      ∃ names, file.names = root.parent.names ++ names ∧ ModulePath.ofNames names = m := by
  unfold ModulePath.ofLocation Location.within?
  by_cases hroot : root = .root
  · simp [hroot]
  · rw [if_neg hroot, and_iff_right hroot]
    by_cases hprefix : root.parent.names <+: file.names
    · obtain ⟨rest, hrest⟩ := hprefix
      rw [if_pos ⟨rest, hrest⟩]
      simp [← hrest]
    · rw [if_neg hprefix]
      simp only [reduceCtorEq, false_iff]
      rintro ⟨names, hnames, -⟩
      exact hprefix ⟨names, hnames.symm⟩

/-! ### Resolving files in turn -/

/-- What stands behind the first file that does not resolve plays no part. -/
lemma resolveFiles_error {before after : List Location} {e : ModuleError}
    (hbefore : ∀ f ∈ before, ∃ m, t.ResolvesTo root f m)
    (hfile : t.resolveFile .root file.path root.path = .error e) :
    t.resolveFiles root (before ++ file :: after) = .error (file, e) := by
  induction before with
  | nil => rw [List.nil_append, resolveFiles, hfile]
  | cons f fs ih =>
    obtain ⟨m, hm⟩ := hbefore f (List.mem_cons_self ..)
    have hrest := ih fun f' hf' => hbefore f' (List.mem_cons_of_mem _ hf')
    unfold ResolvesTo at hm
    rw [List.cons_append, resolveFiles, hm]
    show (t.resolveFiles root (fs ++ file :: after)).map (m :: ·) = _
    rw [hrest]
    rfl

/-- If all files resolve, so does the list of them, file by file. -/
lemma resolveFiles_ok (h : ∀ f ∈ files, ∃ m, t.ResolvesTo root f m) :
    ∃ ms, t.resolveFiles root files = .ok ms ∧ List.Forall₂ (t.ResolvesTo root) files ms := by
  induction files with
  | nil => exact ⟨[], rfl, .nil⟩
  | cons f fs ih =>
    obtain ⟨m, hm⟩ := h f (List.mem_cons_self ..)
    obtain ⟨ms, hms, hall⟩ := ih fun f' hf' => h f' (List.mem_cons_of_mem _ hf')
    refine ⟨m :: ms, ?_, .cons hm hall⟩
    unfold ResolvesTo at hm
    rw [resolveFiles, hm]
    show (t.resolveFiles root fs).map (m :: ·) = _
    rw [hms]
    rfl

/-- Some of the modules has a property exactly if one of the files resolves to such a module. -/
lemma exists_module_iff {ms : List ResolvedModule} {P : ResolvedModule → Prop}
    (h : List.Forall₂ (t.ResolvesTo root) files ms) :
    (∃ m ∈ ms, P m) ↔ ∃ f ∈ files, ∃ m, t.ResolvesTo root f m ∧ P m := by
  induction h with
  | nil => simp
  | @cons f m fs ms hm _ ih =>
    have hunique : (∃ m', t.ResolvesTo root f m' ∧ P m') ↔ P m := by
      unfold ResolvesTo at hm ⊢
      rw [hm]
      simp
    simp only [List.exists_mem_cons_iff, ih, hunique]

/-! ### The graph -/

variable {F : ModuleFilter} {k v : String}

lemma mem_importers_graphOf {ms : List ResolvedModule} :
    k ∈ (graphOf root F ms).importers ↔ F.allows k ∧ ∃ m ∈ ms, m.1.text = k := by
  unfold graphOf
  rw [ImportGraph.mem_importers_ofModules]
  simp [HasImporter]

lemma imports_graphOf {ms : List ResolvedModule} :
    (graphOf root F ms).Imports k v ↔
      F.allows k ∧ F.allows v ∧ ∃ m ∈ ms, m.1.text = k ∧ ∃ p ∈ m.2, p.text = v := by
  unfold graphOf
  rw [ImportGraph.imports_ofModules]
  simp [HasImport, OrderedSet.mem_def]

variable {here : Location} {path : Path}

lemma importGraph_eq (hroot : t.resolve here path = .ok root) :
    t.importGraph here path F =
      ((t.resolveFiles root (t.sourceFiles root)).mapError fun (f, e) => .module f e).map
        (graphOf root F) := by
  unfold importGraph
  rw [hroot]
  show (t.modules root >>= fun ms => pure (graphOf root F ms)) = _
  unfold modules
  cases t.resolveFiles root (t.sourceFiles root) <;> rfl

/-- **The graph of a package.** The source files met in a walk are resolved in turn. The first of
them that does not resolve is the error of the package. If all resolve, there is a graph, named for
the last name on the way to the package; it holds what the filter allows of the modules that the
files are and of what they import. -/
theorem importGraph_spec (F : ModuleFilter) (hroot : t.resolve here path = .ok root)
    (hdir : t.entry? root = some .directory) :
    (∀ before after file e, t.sourcesMet root = before ++ file :: after →
      (∀ f ∈ before, ∃ m, t.ResolvesTo root f m) →
      t.resolveFile .root file.path root.path = .error e →
      t.importGraph here path F = .error (.module file e)) ∧
    ((∀ f ∈ t.sourcesMet root, ∃ m, t.ResolvesTo root f m) →
      ∃ g, t.importGraph here path F = .ok g ∧
        g.rootName = root.name?.elim "" FileName.text ∧ g.filter = F ∧
        (∀ k, k ∈ g.importers ↔
          F.allows k ∧ ∃ f ∈ t.sourcesMet root, ∃ m, t.ResolvesTo root f m ∧ m.1.text = k) ∧
        ∀ k v, g.Imports k v ↔
          F.allows k ∧ F.allows v ∧ ∃ f ∈ t.sourcesMet root, ∃ m,
            t.ResolvesTo root f m ∧ m.1.text = k ∧ ∃ p ∈ m.2, p.text = v) := by
  rw [importGraph_eq hroot, sourceFiles_eq_sourcesMet hdir]
  constructor
  · -- what stands in front resolves, so the walk comes to the file and stops
    intro before after file e hsplit hbefore hfile
    rw [hsplit, resolveFiles_error hbefore hfile]
    rfl
  · intro hall
    obtain ⟨ms, hms, hresolved⟩ := resolveFiles_ok hall
    refine ⟨graphOf root F ms, by rw [hms]; rfl, rfl, rfl, fun k => ?_, fun k v => ?_⟩
    · rw [mem_importers_graphOf, exists_module_iff hresolved]
    · rw [imports_graphOf, exists_module_iff hresolved]

/-! ### A package of one file -/

def lone : Location := ⟨[⟨"a", by decide +kernel⟩]⟩

def loneFile : Location := lone.child ⟨"b.py", by decide +kernel⟩

def loneTree (content : Array UInt8) : FileTree := empty.add loneFile (.file content)

lemma resolve_lone (content : Array UInt8) :
    (loneTree content).resolve .root lone.path = .ok lone :=
  resolve_path (e := .directory) rfl (by simp)

lemma sourceFiles_lone (content : Array UInt8) :
    (loneTree content).sourceFiles lone = [loneFile] := by
  have hdir : entry? (loneTree content) lone = some .directory := rfl
  have hfile : entry? (loneTree content) loneFile = some (.file content) := rfl
  have hwithin : (loneTree content).within lone = [lone, loneFile] := rfl
  rw [sourceFiles, hwithin]
  simp only [List.filter_cons, List.filter_nil, isSourceFile_eq hdir (by simp),
    isSourceFile_eq hfile (by simp)]
  rfl

lemma resolveFile_lone (content : Array UInt8) :
    (loneTree content).resolveFile .root loneFile.path lone.path =
      match String.fromUTF8? ⟨content⟩ with
      | none => .error (.unreadable .notText)
      | some text => ((resolveSource text ⟨["a", "b"]⟩).mapError .source).map (⟨["a", "b"]⟩, ·) :=
  resolveFile_eq rfl rfl rfl

/-! ### A package of three files -/

def loneDirectory : Location := lone.child ⟨"b", by decide +kernel⟩

def innerFile : Location := loneDirectory.child initName

def lastFile : Location := lone.child ⟨"z.py", by decide +kernel⟩

/-- The files in the order in which they are met. The first two are the same module. -/
def threeTree (inner file last : Array UInt8) : FileTree :=
  ((loneTree file).add innerFile (.file inner)).add lastFile (.file last)

section

variable (inner middle last : Array UInt8)

lemma entries_three : (threeTree inner middle last).table.entries =
    [(lone, .directory), (loneDirectory, .directory), (innerFile, .file inner),
      (loneFile, .file middle), (lastFile, .file last)] := rfl

lemma entry?_lone : entry? (threeTree inner middle last) lone = some .directory :=
  entry?_of_mem (by simp [entries_three])

lemma entry?_innerFile : entry? (threeTree inner middle last) innerFile = some (.file inner) :=
  entry?_of_mem (by simp [entries_three])

lemma entry?_loneFile : entry? (threeTree inner middle last) loneFile = some (.file middle) :=
  entry?_of_mem (by simp [entries_three])

lemma entry?_lastFile : entry? (threeTree inner middle last) lastFile = some (.file last) :=
  entry?_of_mem (by simp [entries_three])

lemma sourcesMet_three :
    (threeTree inner middle last).sourcesMet lone = [innerFile, loneFile, lastFile] := by
  have hdirectory : entry? (threeTree inner middle last) loneDirectory = some .directory :=
    entry?_of_mem (by simp [entries_three])
  have hwithin : (threeTree inner middle last).within lone =
      [lone, loneDirectory, innerFile, loneFile, lastFile] := by
    rw [within, OrderedMap.keys, entries_three]
    rfl
  rw [← sourceFiles_eq_sourcesMet (entry?_lone ..), sourceFiles, hwithin]
  simp only [List.filter_cons, List.filter_nil, isSourceFile_eq (entry?_lone ..) (by simp),
    isSourceFile_eq hdirectory (by simp), isSourceFile_eq (entry?_innerFile ..) (by simp),
    isSourceFile_eq (entry?_loneFile ..) (by simp), isSourceFile_eq (entry?_lastFile ..) (by simp)]
  rfl

end

/-- Of a file that is no text the error is that of the package, whatever is behind it. Two files
that are the same module are merged. -/
theorem importGraph_spec_three :
    (threeTree "import os\n".toUTF8.data #[255] #[254]).importGraph .root lone.path .all =
      .error (.module loneFile (.unreadable .notText)) ∧
    ∃ g, (threeTree "import os\n".toUTF8.data "import re\n".toUTF8.data "".toUTF8.data).importGraph
        .root lone.path .all = .ok g ∧
      g.rootName = "a" ∧ g.Imports "a.b" "os" ∧ g.Imports "a.b" "re" ∧ "a.z" ∈ g.importers := by
  have hinner : ∀ middle last, ∃ imports,
      (threeTree "import os\n".toUTF8.data middle last).ResolvesTo lone innerFile
        (⟨["a", "b"]⟩, imports) ∧ imports.toList = [⟨["os"]⟩] :=
    fun middle last =>
      exists_resolvesTo (entry?_lone ..) (entry?_innerFile ..) rfl (by decide +kernel)
  have hroot : ∀ inner middle last,
      (threeTree inner middle last).resolve .root lone.path = .ok lone :=
    fun inner middle last => resolve_path (entry?_lone ..) (by simp)
  constructor
  · obtain ⟨imports, hbefore, -⟩ := hinner #[255] #[254]
    have htext : String.fromUTF8? ⟨#[255]⟩ = none := by decide +kernel
    refine (importGraph_spec .all (hroot ..) (entry?_lone ..)).1 [innerFile] [lastFile] loneFile _
      (sourcesMet_three ..) (by simpa using ⟨_, _, hbefore⟩) ?_
    rw [resolveFile_eq (entry?_lone ..) (entry?_loneFile ..) rfl, htext]
  · obtain ⟨imports, hfirst, hos⟩ := hinner "import re\n".toUTF8.data "".toUTF8.data
    obtain ⟨imports', hsecond, hre⟩ : ∃ imports,
        (threeTree "import os\n".toUTF8.data "import re\n".toUTF8.data "".toUTF8.data).ResolvesTo
          lone loneFile (⟨["a", "b"]⟩, imports) ∧ imports.toList = [⟨["re"]⟩] :=
      exists_resolvesTo (entry?_lone ..) (entry?_loneFile ..) rfl (by decide +kernel)
    obtain ⟨imports'', hthird, -⟩ : ∃ imports,
        (threeTree "import os\n".toUTF8.data "import re\n".toUTF8.data "".toUTF8.data).ResolvesTo
          lone lastFile (⟨["a", "z"]⟩, imports) ∧ imports.toList = [] :=
      exists_resolvesTo (entry?_lone ..) (entry?_lastFile ..) rfl (by decide +kernel)
    obtain ⟨g, hg, hname, -, himporters, hedges⟩ :=
      (importGraph_spec .all (hroot ..) (entry?_lone ..)).2 (by
        rw [sourcesMet_three]
        simpa using ⟨⟨_, _, hfirst⟩, ⟨_, _, hsecond⟩, _, _, hthird⟩)
    have hb : ModulePath.text ⟨["a", "b"]⟩ = "a.b" := by decide +kernel
    have hz : ModulePath.text ⟨["a", "z"]⟩ = "a.z" := by decide +kernel
    rw [sourcesMet_three] at himporters hedges
    refine ⟨g, hg, hname,
      (hedges _ _).mpr ⟨by simp, by simp, innerFile, by simp, _, hfirst, hb, ?_⟩,
      (hedges _ _).mpr ⟨by simp, by simp, loneFile, by simp, _, hsecond, hb, ?_⟩,
      (himporters _).mpr ⟨by simp, lastFile, by simp, _, hthird, hz⟩⟩
    · exact ⟨⟨["os"]⟩, by simp [OrderedSet.mem_def, hos], by decide +kernel⟩
    · exact ⟨⟨["re"]⟩, by simp [OrderedSet.mem_def, hre], by decide +kernel⟩

end FileTree

end ImportAtlas
