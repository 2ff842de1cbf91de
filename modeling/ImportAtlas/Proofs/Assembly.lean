import ImportAtlas.ImportGraph
import ImportAtlas.Proofs.OrderedMap

/-!
Assembling an import graph from modules and their imports.

Adding one module to a table adds what the filter allows of it and nothing else. So a graph has an
importer, or an import, exactly if the filter allows its names and some module has it, and
neither the order of the modules nor their number matters.
-/

namespace ImportAtlas

namespace ImportTable

/-- The table has `imported` among the imports of `importer`. -/
def Lists (t : ImportTable) (importer imported : String) : Prop :=
  ∃ names, t.find? importer = some names ∧ imported ∈ names

lemma mem_keys_addImports {t : ImportTable} {importer k : String} {imports : List String} :
    k ∈ (t.addImports importer imports).keys ↔ k = importer ∨ k ∈ t.keys := by
  rw [OrderedMap.mem_keys_iff, OrderedMap.mem_keys_iff, addImports, OrderedMap.find?_alter]
  split
  · next h => simp [h]
  · next h => simp [h]

lemma lists_addImports {t : ImportTable} {importer k v : String} {imports : List String} :
    (t.addImports importer imports).Lists k v ↔ t.Lists k v ∨ k = importer ∧ v ∈ imports := by
  unfold Lists addImports
  rw [OrderedMap.find?_alter]
  by_cases h : k = importer
  · subst h
    cases hfind : t.find? k with
    | none => simp
    | some old => simp
  · simp [h]

/-- A table is determined by its importers and their imports. -/
lemma eq_of_lists_iff {t u : ImportTable} (hkeys : ∀ k, k ∈ t.keys ↔ k ∈ u.keys)
    (hlists : ∀ k v, t.Lists k v ↔ u.Lists k v) : t = u := by
  refine OrderedMap.ext fun k => ?_
  have hk := hkeys k
  rw [OrderedMap.mem_keys_iff, OrderedMap.mem_keys_iff] at hk
  have hv := hlists k
  unfold Lists at hv
  rcases ht : t.find? k with _ | s <;> rcases hu : u.find? k with _ | s'
  · rfl
  · simp [ht, hu] at hk
  · simp [ht, hu] at hk
  · congr 1
    exact OrderedSet.ext fun v => by simpa [ht, hu] using hv v

end ImportTable

def HasImporter (modules : List (ModulePath × List ModulePath)) (k : String) : Prop :=
  ∃ m ∈ modules, m.1.text = k

def HasImport (modules : List (ModulePath × List ModulePath)) (k v : String) : Prop :=
  ∃ m ∈ modules, m.1.text = k ∧ ∃ p ∈ m.2, p.text = v

section

variable {m : ModulePath × List ModulePath} {ms : List (ModulePath × List ModulePath)}
variable {k v : String}

@[simp] lemma hasImporter_cons : HasImporter (m :: ms) k ↔ m.1.text = k ∨ HasImporter ms k := by
  simp [HasImporter]

@[simp] lemma hasImport_cons :
    HasImport (m :: ms) k v ↔ (m.1.text = k ∧ ∃ p ∈ m.2, p.text = v) ∨ HasImport ms k v := by
  simp [HasImport]

end

namespace ImportGraph

def Imports (g : ImportGraph) (m n : String) : Prop := g.table.Lists m n

/-! ### One module more -/

section Step

variable {F : ModuleFilter} {t : ImportTable} {module : ModulePath × List ModulePath}

lemma mem_keys_addModule {k : String} :
    k ∈ (addModule F t module).keys ↔ k ∈ t.keys ∨ F.allows k ∧ module.1.text = k := by
  unfold addModule
  split
  · next h =>
    rw [ImportTable.mem_keys_addImports]
    constructor
    · rintro (rfl | hk)
      · exact .inr ⟨h, rfl⟩
      · exact .inl hk
    · rintro (hk | ⟨-, rfl⟩)
      · exact .inr hk
      · exact .inl rfl
  · next h =>
    refine ⟨.inl, ?_⟩
    rintro (hk | ⟨hk, rfl⟩)
    · exact hk
    · exact absurd hk h

lemma lists_addModule {k v : String} :
    (addModule F t module).Lists k v ↔
      t.Lists k v ∨ F.allows k ∧ F.allows v ∧ module.1.text = k ∧ ∃ p ∈ module.2, p.text = v := by
  unfold addModule
  split
  · next h =>
    rw [ImportTable.lists_addImports, List.mem_filter, List.mem_map]
    constructor
    · rintro (hl | ⟨rfl, himport, hv⟩)
      · exact .inl hl
      · exact .inr ⟨h, hv, rfl, himport⟩
    · rintro (hl | ⟨-, hv, rfl, himport⟩)
      · exact .inl hl
      · exact .inr ⟨rfl, himport, hv⟩
  · next h =>
    refine ⟨.inl, ?_⟩
    rintro (hl | ⟨hk, -, rfl, -⟩)
    · exact hl
    · exact absurd hk h

end Step

/-! ### All modules -/

section Run

variable {F : ModuleFilter} {modules : List (ModulePath × List ModulePath)}

lemma mem_keys_foldl_addModule {t : ImportTable} {k : String} :
    k ∈ (modules.foldl (addModule F) t).keys ↔
      k ∈ t.keys ∨ F.allows k ∧ HasImporter modules k := by
  induction modules generalizing t with
  | nil => simp [HasImporter]
  | cons m ms ih =>
    rw [List.foldl_cons, ih, mem_keys_addModule, hasImporter_cons]
    simp only [and_or_left, or_assoc]

lemma lists_foldl_addModule {t : ImportTable} {k v : String} :
    (modules.foldl (addModule F) t).Lists k v ↔
      t.Lists k v ∨ F.allows k ∧ F.allows v ∧ HasImport modules k v := by
  induction modules generalizing t with
  | nil => simp [HasImport]
  | cons m ms ih =>
    rw [List.foldl_cons, ih, lists_addModule, hasImport_cons]
    simp only [and_or_left, or_assoc]

variable {rootName : String}

lemma mem_importers_ofModules {k : String} :
    k ∈ (ofModules rootName F modules).importers ↔ F.allows k ∧ HasImporter modules k := by
  unfold importers ofModules
  rw [mem_keys_foldl_addModule]
  simp [OrderedMap.keys, OrderedMap.empty]

lemma imports_ofModules {k v : String} :
    (ofModules rootName F modules).Imports k v ↔
      F.allows k ∧ F.allows v ∧ HasImport modules k v := by
  unfold Imports ofModules
  rw [lists_foldl_addModule]
  simp [ImportTable.Lists, OrderedMap.find?, OrderedMap.empty]

end Run

/-! ### The nodes -/

section Nodes

variable {g : ImportGraph} {k v : String}

lemma mem_pairs_iff : (k, v) ∈ g.pairs ↔ g.Imports k v := by
  simp only [pairs, List.mem_flatMap, List.mem_map, Prod.mk.injEq]
  unfold Imports ImportTable.Lists
  constructor
  · rintro ⟨⟨_, s⟩, hs, w, hw, rfl, rfl⟩
    exact ⟨s, OrderedMap.find?_eq_some_iff.mpr hs, hw⟩
  · rintro ⟨s, hs, hv⟩
    exact ⟨(k, s), OrderedMap.find?_eq_some_iff.mp hs, v, hv, rfl, rfl⟩

lemma mem_importers_of_imports (h : g.Imports k v) : k ∈ g.importers := by
  obtain ⟨names, hnames, -⟩ := h
  exact OrderedMap.mem_keys_iff.mpr ⟨names, hnames⟩

lemma mem_nodes_iff {x : String} : x ∈ g.nodes ↔ x ∈ g.importers ∨ ∃ k, g.Imports k x := by
  unfold nodes
  rw [OrderedSet.mem_ofList, List.mem_append, List.mem_map]
  simp only [Prod.exists, mem_pairs_iff]
  simp

lemma nodes_nodup (g : ImportGraph) : g.nodes.toList.Nodup :=
  g.nodes.ascending.imp fun h => String.ne_of_lt h

lemma mem_nodes_of_imports (h : g.Imports k v) : k ∈ g.nodes ∧ v ∈ g.nodes :=
  ⟨mem_nodes_iff.mpr (.inl (mem_importers_of_imports h)), mem_nodes_iff.mpr (.inr ⟨k, h⟩)⟩

lemma allows_of_mem_nodes {rootName x : String} {F : ModuleFilter}
    {modules : List (ModulePath × List ModulePath)} (h : x ∈ (ofModules rootName F modules).nodes) :
    F.allows x := by
  rcases mem_nodes_iff.mp h with himporter | ⟨k, himport⟩
  · exact (mem_importers_ofModules.mp himporter).1
  · exact (imports_ofModules.mp himport).2.1

end Nodes

/-- **Assembly.** A graph holds what the filter allows of its modules, its nodes are all the names
in it, and it does not depend on how its modules are listed. -/
theorem ofModules_spec (rootName : String) (F : ModuleFilter)
    (modules : List (ModulePath × List ModulePath)) :
    let g := ofModules rootName F modules
    (∀ k, k ∈ g.importers ↔ F.allows k ∧ HasImporter modules k) ∧
    (∀ k v, g.Imports k v ↔ F.allows k ∧ F.allows v ∧ HasImport modules k v) ∧
    (∀ x, x ∈ g.nodes ↔ x ∈ g.importers ∨ ∃ k, g.Imports k x) ∧
    (∀ x ∈ g.nodes, F.allows x) ∧
    ∀ others, (∀ k, HasImporter modules k ↔ HasImporter others k) →
      (∀ k v, HasImport modules k v ↔ HasImport others k v) →
      g = ofModules rootName F others := by
  intro g
  refine ⟨fun k => mem_importers_ofModules, fun k v => imports_ofModules,
    fun x => mem_nodes_iff, fun x hx => allows_of_mem_nodes hx, ?_⟩
  intro others himporters himports
  -- the table is known by its importers and imports, which are those of both lists
  have htable : g.table = (ofModules rootName F others).table := by
    refine ImportTable.eq_of_lists_iff (fun k => ?_) fun k v => ?_
    · show k ∈ g.importers ↔ k ∈ (ofModules rootName F others).importers
      rw [mem_importers_ofModules, mem_importers_ofModules, himporters]
    · show g.Imports k v ↔ (ofModules rootName F others).Imports k v
      rw [imports_ofModules, imports_ofModules, himports]
  exact congrArg (ImportGraph.mk rootName F) htable

/-- Modules in another order, with the imports of one of them split. -/
theorem ofModules_split :
    ofModules "p" .all [(⟨["p"]⟩, [⟨["os"]⟩, ⟨["re"]⟩, ⟨["os"]⟩]), (⟨["p", "a"]⟩, [])] =
      ofModules "p" .all [(⟨["p"]⟩, [⟨["re"]⟩]), (⟨["p", "a"]⟩, []), (⟨["p"]⟩, [⟨["os"]⟩])] := by
  refine (ofModules_spec "p" .all _).2.2.2.2 _ (fun k => ?_) fun k v => ?_
  · simp only [hasImporter_cons]
    tauto
  · simp only [hasImport_cons, List.mem_cons, List.not_mem_nil, or_false, exists_eq_or_imp,
      exists_eq_left, false_and, exists_false, and_false]
    tauto

end ImportGraph

end ImportAtlas
