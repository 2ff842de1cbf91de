import ImportAtlas.Proofs.PackageGraph

/-!
Scanning a package with a filter and without one.

The files of a package are resolved before any filter is asked, so both scans meet the same errors.
Without an error they have the same modules, and the filter leaves out importers and imports by
their names alone.
-/

namespace ImportAtlas

namespace FileTree

variable {t : FileTree} {here root : Location} {path : Path} {F : ModuleFilter} {k v : String}

/-- The place of a package and the modules in it, which no filter has a part in. -/
def scan (t : FileTree) (here : Location) (path : Path) :
    Except PackageError (Location × List ResolvedModule) := do
  let root ← (t.resolve here path).mapError .file
  return (root, ← t.modules root)

lemma importGraph_eq_map_scan :
    t.importGraph here path F = (t.scan here path).map fun (root, ms) => graphOf root F ms := by
  unfold importGraph scan
  cases (t.resolve here path).mapError PackageError.file with
  | error e => rfl
  | ok root =>
    show (t.modules root >>= fun ms => pure (graphOf root F ms)) =
      (t.modules root >>= fun ms => pure (root, ms)).map _
    cases t.modules root <;> rfl

/-- The filter is asked about the scanned modules only. -/
lemma importGraph_eq_ok_iff {g : ImportGraph} :
    t.importGraph here path F = .ok g ↔
      ∃ root ms, t.scan here path = .ok (root, ms) ∧ graphOf root F ms = g := by
  rw [importGraph_eq_map_scan, map_eq_ok_iff, Prod.exists]

lemma importGraph_eq_error_iff {e : PackageError} :
    t.importGraph here path F = .error e ↔ t.scan here path = .error e := by
  rw [importGraph_eq_map_scan]
  cases t.scan here path <;> simp [Except.map]

lemma mem_importers_graphOf_all {ms : List ResolvedModule} :
    k ∈ (graphOf root F ms).importers ↔ k ∈ (graphOf root .all ms).importers ∧ F.allows k := by
  simp only [mem_importers_graphOf, ModuleFilter.allows_all]
  tauto

lemma imports_graphOf_all {ms : List ResolvedModule} :
    (graphOf root F ms).Imports k v ↔
      (graphOf root .all ms).Imports k v ∧ F.allows k ∧ F.allows v := by
  simp only [imports_graphOf, ModuleFilter.allows_all]
  tauto

/-- **Filtering and scanning.** A scan with a filter ends in an error exactly if the scan without
one does, and in the same one. Otherwise its graph has the importers of the other graph that the
filter allows, with those of their imports that the filter allows, and its nodes are the names of
both. -/
theorem importGraph_filtered (t : FileTree) (here : Location) (path : Path) (F : ModuleFilter) :
    (∀ e, t.importGraph here path F = .error e ↔ t.importGraph here path .all = .error e) ∧
    ∀ g₀, t.importGraph here path .all = .ok g₀ →
      ∃ g, t.importGraph here path F = .ok g ∧ g.rootName = g₀.rootName ∧ g.filter = F ∧
        (∀ k, k ∈ g.importers ↔ k ∈ g₀.importers ∧ F.allows k) ∧
        (∀ k v, g.Imports k v ↔ g₀.Imports k v ∧ F.allows k ∧ F.allows v) ∧
        ∀ x, x ∈ g.nodes ↔ x ∈ g.importers ∨ ∃ k, g.Imports k x := by
  constructor
  · intro e
    rw [importGraph_eq_error_iff, importGraph_eq_error_iff]
  · intro g₀ hg₀
    obtain ⟨root, ms, hscan, rfl⟩ := importGraph_eq_ok_iff.mp hg₀
    have hg : t.importGraph here path F = .ok (graphOf root F ms) :=
      importGraph_eq_ok_iff.mpr ⟨root, ms, hscan, rfl⟩
    exact ⟨graphOf root F ms, hg, rfl, rfl, fun k => mem_importers_graphOf_all,
      fun k v => imports_graphOf_all, fun x => ImportGraph.mem_nodes_iff⟩

def dropping (name : String) : ModuleFilter := { dropped := some (.ofList [name]) }

lemma scan_lone (content : Array UInt8) :
    (loneTree content).scan .root lone.path =
      match (loneTree content).resolveFile .root loneFile.path lone.path with
      | .error e => .error (.module loneFile e)
      | .ok m => .ok (lone, [m]) := by
  have hmodules : (loneTree content).modules lone =
      match (loneTree content).resolveFile .root loneFile.path lone.path with
      | .error e => .error (.module loneFile e)
      | .ok m => .ok [m] := by
    unfold modules
    rw [sourceFiles_lone, resolveFiles]
    cases (loneTree content).resolveFile .root loneFile.path lone.path <;> rfl
  unfold scan
  rw [resolve_lone]
  show ((loneTree content).modules lone >>= fun ms => pure (lone, ms)) = _
  rw [hmodules]
  cases (loneTree content).resolveFile .root loneFile.path lone.path <;> rfl

lemma exists_scan_lone_import :
    ∃ imports, (loneTree "import os\n".toUTF8.data).scan .root lone.path =
      .ok (lone, [(⟨["a", "b"]⟩, imports)]) := by
  obtain ⟨imports, hfile, -⟩ : ∃ imports,
      (loneTree "import os\n".toUTF8.data).ResolvesTo lone loneFile (⟨["a", "b"]⟩, imports) ∧
        imports.toList = [⟨["os"]⟩] :=
    exists_resolvesTo rfl rfl rfl (by decide +kernel)
  unfold ResolvesTo at hfile
  exact ⟨imports, by rw [scan_lone, hfile]⟩

lemma exists_importGraph_lone_import :
    ∃ imports, (loneTree "import os\n".toUTF8.data).importGraph .root lone.path .all =
      .ok (graphOf lone .all [(⟨["a", "b"]⟩, imports)]) := by
  obtain ⟨imports, hscan⟩ := exists_scan_lone_import
  exact ⟨imports, importGraph_eq_ok_iff.mpr ⟨_, _, hscan, rfl⟩⟩

/-- A filter that drops an unreadable module does not hide its error; one that drops an imported
module leaves the importer in the graph, without that import. -/
theorem importGraph_filtered_lone :
    (loneTree #[255]).importGraph .root lone.path (dropping "a") =
      .error (.module loneFile (.unreadable .notText)) ∧
    ∃ g, (loneTree "import os\n".toUTF8.data).importGraph .root lone.path (dropping "os") = .ok g ∧
      "a.b" ∈ g.importers ∧ ¬g.Imports "a.b" "os" := by
  constructor
  · -- the filter drops the module of the file, whose fault is found all the same
    refine ((importGraph_filtered _ _ _ _).1 _).mpr (importGraph_eq_error_iff.mpr ?_)
    rw [scan_lone, resolveFile_lone, show String.fromUTF8? ⟨#[255]⟩ = none by decide +kernel]
  · obtain ⟨imports, hg₀⟩ := exists_importGraph_lone_import
    obtain ⟨g, hg, -, -, himporters, hedges, -⟩ :=
      (importGraph_filtered _ _ _ (dropping "os")).2 _ hg₀
    have hdropped : (dropping "os").allows "os" = false := by decide +kernel
    have hkept : (dropping "os").allows "a.b" = true := by decide +kernel
    have himporter : ∃ m ∈ [((⟨["a", "b"]⟩, imports) : ResolvedModule)], m.1.text = "a.b" :=
      ⟨_, List.mem_singleton.mpr rfl, show ModulePath.text ⟨["a", "b"]⟩ = "a.b" by decide +kernel⟩
    refine ⟨g, hg, ?_, fun h => ?_⟩
    · exact (himporters _).mpr ⟨mem_importers_graphOf.mpr ⟨by simp, himporter⟩, hkept⟩
    · have hallowed := ((hedges _ _).mp h).2.2
      rw [hdropped] at hallowed
      cases hallowed

end FileTree

end ImportAtlas
