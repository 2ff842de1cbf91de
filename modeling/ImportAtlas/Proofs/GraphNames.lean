import ImportAtlas.Proofs.ArtifactPath
import ImportAtlas.Proofs.LinkedModules
import ImportAtlas.Proofs.SlashFree
import ImportAtlas.Proofs.SourceImports

/-!
The names in the graph of a package.

They come from the names of files and from the import statements of source texts, and have no slash
in them, whatever tree the package is in.
-/

namespace ImportAtlas

open Source

/-! ### What a source text depends on -/

namespace Source.Tree

variable {base m : ModulePath} {t u : Tree} {ts : List Tree} {found : List ModulePath}

/-- Each import statement in a tidy tree has the property. -/
lemma holds_of_tidy [ImportProperty] {s : ImportStatement} (h : t.Tidy) (hu : u ∈ t.preorder)
    (hs : ImportStatement.ofTree? u = some s) : ImportProperty.Holds u := by
  induction h with
  | token t =>
    obtain rfl := List.mem_singleton.mp hu
    cases hs
  | @node k p cs hkind _ ih =>
    rcases List.mem_cons.mp hu with rfl | hu
    · cases k <;> simp_all [ImportStatement.ofTree?]
    · obtain ⟨c, hc, hu⟩ := mem_preorderAll.mp hu
      exact ih c hc hu
  | @«import» t hholds hparts =>
    cases t with
    | token t =>
      obtain rfl := List.mem_singleton.mp hu
      cases hs
    | node k p cs =>
      rcases List.mem_cons.mp hu with rfl | hu
      · -- the tree itself: nothing within it is an import of its own
        exact hholds
      · obtain ⟨c, hc, hu⟩ := mem_preorderAll.mp hu
        rw [(hparts c hc u hu).not_import] at hs
        cases hs

lemma mem_finding_iff (h : finding base t = .ok found) :
    m ∈ found ↔
      ∃ s, ImportStatement.ofTree? t = some s ∧ ∃ ms, s.resolve base = .ok ms ∧ m ∈ ms := by
  unfold finding at h
  split at h
  · cases h
  · split at h
    · rename_i s hs
      simp [hs, mapError_eq_ok_iff.mp h]
    · rename_i hnone
      obtain rfl := Except.ok.inj h
      simp [hnone]

/-- What the nodes have to say is what their import statements depend on. -/
lemma mem_findings_iff (h : findings base ts = .ok found) :
    m ∈ found ↔ ∃ t ∈ ts, ∃ s, ImportStatement.ofTree? t = some s ∧
      ∃ ms, s.resolve base = .ok ms ∧ m ∈ ms := by
  induction ts generalizing found with
  | nil =>
    obtain rfl := Except.ok.inj h
    simp
  | cons t ts ih =>
    obtain ⟨first, hfirst, h⟩ := bind_eq_ok_iff.mp h
    obtain ⟨others, hothers, h⟩ := bind_eq_ok_iff.mp h
    obtain rfl : first ++ others = found := Except.ok.inj h
    rw [List.mem_append, mem_finding_iff hfirst, ih hothers, List.exists_mem_cons_iff]

abbrev slashFreeImports : ImportProperty where
  Holds t := ∀ c ∈ t.children, c.SlashFree
  importStatement := @holds_importStatement slashFreeParts
  fromImport := @holds_fromImport slashFreeParts

end Source.Tree

lemma slashFree_resolveSource {source : String} {base : ModulePath}
    {imports : OrderedSet ModulePath} (hbase : base.SlashFree)
    (h : resolveSource source base = .ok imports) : ∀ m ∈ imports, m.SlashFree := by
  intro m hm
  cases htree : Tree.ofSource source with
  | error p =>
    rw [resolveSource, htree] at h
    cases h
  | ok tree =>
    rw [resolveSource_eq_findings htree] at h
    obtain ⟨found, hfound, rfl⟩ := map_eq_ok_iff.mp h
    obtain ⟨t, ht, s, hs, ms, hms, hm⟩ :=
      (Tree.mem_findings_iff hfound).mp (OrderedSet.mem_ofList.mp hm)
    have htidy := @tidy_ofSource Tree.slashFreeImports _ _ htree
    have hparts := @Tree.holds_of_tidy _ _ Tree.slashFreeImports s htidy ht hs
    exact ImportStatement.slashFree_resolve (ImportStatement.slashFree_ofTree hparts hs) hbase
      hms m hm

/-! ### The modules of a package -/

lemma FileName.slash_not_mem_stem (n : FileName) : '/' ∉ n.stem.toList := fun h =>
  n.slash_not_mem (mem_of_mem_stem h)

lemma slashFree_ofNames (names : List FileName) : (ModulePath.ofNames names).SlashFree := by
  induction names with
  | nil => exact ModulePath.slashFree_empty
  | cons n names ih =>
    cases names with
    | nil =>
      unfold ModulePath.ofNames
      split
      · exact ModulePath.slashFree_empty
      · exact List.forall_mem_singleton.mpr n.slash_not_mem_stem
    | cons m names => exact List.forall_mem_cons.mpr ⟨n.slash_not_mem, ih⟩

lemma slashFree_ofLocation {file root : Location} {m : ModulePath}
    (h : ModulePath.ofLocation file root = .ok m) : m.SlashFree := by
  obtain ⟨-, names, -, rfl⟩ := FileTree.ofLocation_eq_ok_iff.mp h
  exact slashFree_ofNames names

namespace FileTree

variable {t : FileTree} {here root file : Location} {path : Path} {F : ModuleFilter}
variable {g : ImportGraph} {m : ResolvedModule} {ms : List ResolvedModule}

/-- A file resolves by its module and its text. -/
lemma exists_of_resolvesTo (h : t.ResolvesTo root file m) :
    t.moduleAt .root file.path root.path = .ok m.1 ∧
      ∃ text, t.readText .root file.path = .ok text ∧ resolveSource text m.1 = .ok m.2 := by
  obtain ⟨p, hmodule, h⟩ := bind_eq_ok_iff.mp h
  obtain ⟨text, htext, h⟩ := bind_eq_ok_iff.mp h
  obtain ⟨imports, himports, h⟩ := bind_eq_ok_iff.mp h
  obtain rfl : (p, imports) = m := Except.ok.inj h
  exact ⟨hmodule, text, mapError_eq_ok_iff.mp htext, mapError_eq_ok_iff.mp himports⟩

lemma ResolvesTo.unique {m' : ResolvedModule} (h : t.ResolvesTo root file m)
    (h' : t.ResolvesTo root file m') : m = m' := Except.ok.inj (h.symm.trans h')

lemma slashFree_of_resolvesTo (h : t.ResolvesTo root file m) :
    m.1.SlashFree ∧ ∀ p ∈ m.2, p.SlashFree := by
  obtain ⟨hmodule, text, -, hsource⟩ := exists_of_resolvesTo h
  obtain ⟨_, _, -, -, hl⟩ := moduleAt_eq_ok_iff.mp hmodule
  have hm := slashFree_ofLocation hl
  exact ⟨hm, slashFree_resolveSource hm hsource⟩

lemma resolveFiles_of_scan (h : t.scan here path = .ok (root, ms)) :
    t.resolveFiles root (t.sourceFiles root) = .ok ms := by
  obtain ⟨l, -, h⟩ := bind_eq_ok_iff.mp h
  obtain ⟨found, hfound, h⟩ := bind_eq_ok_iff.mp h
  obtain ⟨rfl, rfl⟩ := Prod.mk.inj (Except.ok.inj h)
  exact mapError_eq_ok_iff.mp hfound

lemma slashFree_of_scan (h : t.scan here path = .ok (root, ms)) :
    ∀ m ∈ ms, m.1.SlashFree ∧ ∀ p ∈ m.2, p.SlashFree := by
  have hall := forall₂_of_resolveFiles (resolveFiles_of_scan h)
  intro m hm
  obtain ⟨f, -, m', hm', rfl⟩ := (exists_module_iff (P := (· = m)) hall).mp ⟨m, hm, rfl⟩
  exact slashFree_of_resolvesTo hm'

lemma slash_not_mem_nodes (hg : t.importGraph here path F = .ok g) {x : String}
    (hx : x ∈ g.nodes) : '/' ∉ x.toList := by
  obtain ⟨root, ms, hscan, rfl⟩ := importGraph_eq_ok_iff.mp hg
  have hms := slashFree_of_scan hscan
  rcases ImportGraph.mem_nodes_iff.mp hx with himporter | ⟨k, himport⟩
  · obtain ⟨-, m, hm, rfl⟩ := mem_importers_graphOf.mp himporter
    exact (hms m hm).1.text
  · obtain ⟨-, -, m, hm, -, p, hp, rfl⟩ := imports_graphOf.mp himport
    exact ((hms m hm).2 p hp).text

end FileTree

end ImportAtlas
