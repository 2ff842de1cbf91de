import ImportAtlas.Proofs.DrawnModules
import ImportAtlas.Proofs.GraphNames
import ImportAtlas.Proofs.ModuleOfFile

/-!
The modules of a package lie within it.

Without links, a source file of a package is below the directory of the package, and the path of its
module begins with the name of that directory. So all importers lie within the package, whatever its
name is, and nothing else is drawn.
-/

namespace ImportAtlas

/-! ### Paths of modules -/

lemma ModulePath.isWithin_first (s : String) (ss : List String) :
    isWithin (text ⟨s :: ss⟩) s = true := by
  refine isWithin_iff.mpr ?_
  by_cases hss : ss = []
  · subst hss
    exact .inl (by simp [text, join])
  · refine .inr ⟨text ⟨ss⟩, ?_⟩
    rw [← String.toList_inj]
    simp [text, join_cons (mt List.map_eq_nil_iff.mp hss)]

/-! ### The package -/

namespace FileTree

variable {t : FileTree} {here root file : Location} {path : Path} {F : ModuleFilter}
variable {g : ImportGraph} {m : ResolvedModule} {k : String}

/-- A source file is the module that its place says. -/
lemma ofLocation_of_resolvesTo {content : Array UInt8} (hdir : t.entry? root = some .directory)
    (hfile : t.entry? file = some (.file content)) (h : t.ResolvesTo root file m) :
    ModulePath.ofLocation file root = .ok m.1 := by
  have hmodule := (exists_of_resolvesTo h).1
  rwa [moduleAt_eq (resolve_path hfile (by simp)) (resolve_path hdir (by simp))] at hmodule

/-- The path of a module begins with the name of its package. -/
lemma exists_segments (ht : t.LinkFree) (hdir : t.entry? root = some .directory)
    (hsource : file ∈ t.sourceFiles root) (h : t.ResolvesTo root file m) :
    ∃ ss, m.1 = ⟨packageName root :: ss⟩ := by
  obtain ⟨⟨content, hfile⟩, -, -⟩ := ht.mem_sourceFiles_iff.mp hsource
  have hpath := ofLocation_of_resolvesTo hdir hfile h
  have hroot : root ≠ .root := by
    rintro rfl
    rw [ModulePath.ofLocation, if_pos rfl] at hpath
    cases hpath
  obtain ⟨d, n, rfl, hd, -⟩ := exists_child_of_mem_sourceFiles ht hdir hsource
  obtain ⟨top, rest, hname, hfrom, -⟩ := Location.exists_namesFrom hroot hd
  rw [ModulePath.ofLocation_child hroot hd, hfrom] at hpath
  rw [packageName, hname, ← Except.ok.inj hpath]
  exact ⟨_, rfl⟩

lemma isWithin_packageName (ht : t.LinkFree) (hdir : t.entry? root = some .directory)
    (hsource : file ∈ t.sourceFiles root) (h : t.ResolvesTo root file m) :
    isWithin m.1.text (packageName root) = true := by
  obtain ⟨ss, hss⟩ := exists_segments ht hdir hsource h
  rw [hss]
  exact ModulePath.isWithin_first _ _

lemma isInternal_of_mem_importers (ht : t.LinkFree) (hroot : t.resolve here path = .ok root)
    (hdir : t.entry? root = some .directory) (hg : t.importGraph here path F = .ok g)
    (hk : k ∈ g.importers) : g.isInternal k = true := by
  obtain ⟨ms, hms, rfl⟩ := (importGraph_eq_ok_iff_modules hroot).mp hg
  obtain ⟨-, himporter⟩ := mem_importers_graphOf.mp hk
  obtain ⟨f, hf, m, hm, rfl⟩ := (exists_module_iff (forall₂_of_resolveFiles hms)).mp himporter
  exact isWithin_packageName ht hdir hf hm

end FileTree

namespace ImportGraph

variable {g : ImportGraph} {x : String}

/-- If all importers lie within the package, nothing else is drawn. -/
lemma mem_nodes_drawnGraph_of_internal (h : ∀ k ∈ g.importers, g.isInternal k = true) :
    x ∈ g.drawnGraph.nodes ↔ x = g.rootName ∨ x ∈ g.nodes ∧ g.isInternal x = true := by
  have houtside : x ∉ g.outside := by
    intro hx
    obtain ⟨hexternal, v, himport, -⟩ := mem_outside_iff.mp hx
    rw [h x (mem_importers_of_imports himport)] at hexternal
    cases hexternal
  rw [mem_nodes_drawnGraph]
  simp [houtside]

end ImportGraph

namespace FileTree

variable {t : FileTree} {here root : Location} {path : Path} {F : ModuleFilter} {g : ImportGraph}

/-- **The package and its drawing.** In a tree without links all importers of a package lie within
it: they are called like the package or go on from its name behind a dot. So all that is drawn lies
within the package, and it is the package with those names in its graph that lie within it. -/
theorem importers_internal (ht : t.LinkFree) (hroot : t.resolve here path = .ok root)
    (hdir : t.entry? root = some .directory) (hg : t.importGraph here path F = .ok g) :
    (∀ k ∈ g.importers, g.isInternal k = true) ∧
    (∀ x, g.isInternal x = true ↔ x = g.rootName ∨ ∃ rest, x = g.rootName ++ "." ++ rest) ∧
    (∀ x ∈ g.drawnGraph.nodes, g.isInternal x = true) ∧
    ∀ x, x ∈ g.drawnGraph.nodes ↔ x = g.rootName ∨ x ∈ g.nodes ∧ g.isInternal x = true := by
  have hinternal : ∀ k ∈ g.importers, g.isInternal k = true := fun k hk =>
    isInternal_of_mem_importers ht hroot hdir hg hk
  refine ⟨hinternal, fun x => isWithin_iff, fun x hx => ?_,
    fun x => ImportGraph.mem_nodes_drawnGraph_of_internal hinternal⟩
  rcases (ImportGraph.mem_nodes_drawnGraph_of_internal hinternal).mp hx with rfl | ⟨-, hx⟩
  · exact g.isInternal_rootName
  · exact hx

/-- Of a package that imports another one only its own modules are drawn. -/
theorem importers_internal_lone :
    ∃ g, (loneTree "import os\n".toUTF8.data).importGraph .root lone.path .all = .ok g ∧
      "a.b" ∈ g.importers ∧ g.isInternal "a.b" = true ∧ "os" ∉ g.drawnGraph.nodes := by
  obtain ⟨imports, hg⟩ := exists_importGraph_lone_import
  have htext : ModulePath.text ⟨["a", "b"]⟩ = "a.b" := by decide +kernel
  have himporter : "a.b" ∈ (graphOf lone .all [(⟨["a", "b"]⟩, imports)]).importers :=
    mem_importers_graphOf.mpr ⟨by simp, _, List.mem_singleton.mpr rfl, htext⟩
  obtain ⟨hinternal, -, hdrawn, -⟩ := importers_internal loneTree_linkFree (resolve_lone _) rfl hg
  refine ⟨_, hg, himporter, hinternal _ himporter, fun hos => ?_⟩
  have hexternal : isWithin "os" (packageName lone) = false := by decide +kernel
  have hwithin : isWithin "os" (packageName lone) = true := hdrawn "os" hos
  rw [hexternal] at hwithin
  cases hwithin

end FileTree

end ImportAtlas
