import ImportAtlas.Export.Format
import ImportAtlas.Proofs.Assembly
import ImportAtlas.Proofs.DottedPath
import ImportAtlas.Proofs.JsonRecord

/-!
Graphs as JSON and back.

The records of a graph have the importers and the imports of the graph. So merging them gives its
table, and building a graph of them gives the graph, as its filter allows every name in it.
-/

namespace ImportAtlas

namespace Json.ImportRecord

def module (r : ImportRecord) : ModulePath × List ModulePath :=
  (.ofDotted r.name, r.imports.map .ofDotted)

/-- Merging records is building a graph of them that keeps everything. -/
lemma table_eq (rootName : String) (records : List ImportRecord) :
    table records = (ImportGraph.ofModules rootName .all (records.map module)).table := by
  have hstep : ∀ (t : ImportTable) (r : ImportRecord),
      t.addImports r.name r.imports = ImportGraph.addModule .all t r.module := by
    intro t r
    have htexts : (r.imports.map ModulePath.ofDotted).map ModulePath.text = r.imports := by
      simp [Function.comp_def]
    have hkept : r.imports.filter ModuleFilter.all.allows = r.imports :=
      List.filter_eq_self.mpr fun x _ => ModuleFilter.allows_all x
    simp [ImportGraph.addModule, module, htexts, hkept]
  simp only [table, ImportGraph.ofModules, List.foldl_map, hstep]

lemma readAll_written (records : List ImportRecord) :
    readAll (writeAll records) = .ok records := by
  have h := readAll_writeAll records [] rfl
  rwa [String.ofList_nil, String.append_empty] at h

end Json.ImportRecord

namespace ImportGraph

open Json

variable {g : ImportGraph} {k v : String}

lemma hasImporter_records :
    HasImporter (g.records.map ImportRecord.module) k ↔ k ∈ g.importers := by
  simp [HasImporter, ImportRecord.module, records, importers, OrderedMap.keys]

lemma hasImport_records :
    HasImport (g.records.map ImportRecord.module) k v ↔ g.Imports k v := by
  unfold Imports ImportTable.Lists
  simp only [OrderedMap.find?_eq_some_iff]
  simp [HasImport, ImportRecord.module, records, OrderedSet.mem_def]

/-- A graph is built of its own records by any filter that allows what is in it. -/
lemma table_ofModules_records {F : ModuleFilter} (rootName : String)
    (hnodes : ∀ x ∈ g.nodes, F.allows x) :
    (ofModules rootName F (g.records.map ImportRecord.module)).table = g.table := by
  refine ImportTable.eq_of_lists_iff (fun k => ?_) fun k v => ?_
  · show k ∈ (ofModules rootName F _).importers ↔ k ∈ g.importers
    rw [mem_importers_ofModules, hasImporter_records, and_iff_right_iff_imp]
    exact fun hk => hnodes k (mem_nodes_iff.mpr (.inl hk))
  · show (ofModules rootName F _).Imports k v ↔ g.Imports k v
    rw [imports_ofModules, hasImport_records, ← and_assoc, and_iff_right_iff_imp]
    intro h
    obtain ⟨hk, hv⟩ := mem_nodes_of_imports h
    exact ⟨hnodes k hk, hnodes v hv⟩

lemma table_records (g : ImportGraph) : ImportRecord.table g.records = g.table := by
  rw [ImportRecord.table_eq ""]
  exact table_ofModules_records "" fun x _ => ModuleFilter.allows_all x

lemma readAll_json (g : ImportGraph) : ImportRecord.readAll g.json = .ok g.records :=
  ImportRecord.readAll_written g.records

lemma readAll_exported (g : ImportGraph) :
    ImportRecord.readAll (g.exported .json) = .ok g.records :=
  ImportRecord.readAll_writeAll g.records ['\n'] rfl

lemma readTable_json (g : ImportGraph) : ImportRecord.readTable g.json = .ok g.table := by
  rw [ImportRecord.readTable, readAll_json, ← table_records g]
  rfl

lemma readTable_exported (g : ImportGraph) :
    ImportRecord.readTable (g.exported .json) = .ok g.table := by
  rw [ImportRecord.readTable, readAll_exported, ← table_records g]
  rfl

lemma json_eq_iff {h : ImportGraph} : g.json = h.json ↔ g.table = h.table := by
  constructor
  · intro hjson
    have htable := readTable_json g
    rw [hjson, readTable_json h] at htable
    exact (Except.ok.inj htable).symm
  · intro htable
    simp only [json, records, htable]

/-- **JSON and back.** A graph that is built of modules is read back from its JSON, as a table and,
by building a graph of the records, as a whole; two graphs have the same JSON only if they have the
same table. The file has one line feed, at its end. -/
theorem json_round_trip (rootName : String) (F : ModuleFilter)
    (modules : List (ModulePath × List ModulePath)) :
    let g := ofModules rootName F modules
    ImportRecord.readTable g.json = .ok g.table ∧
    ImportRecord.readTable (g.exported .json) = .ok g.table ∧
    (g.exported .json).toList.count '\n' = 1 ∧
    (g.exported .json).toList.getLast? = some '\n' ∧
    (∃ records, ImportRecord.readAll g.json = .ok records ∧
      ofModules g.rootName g.filter (records.map ImportRecord.module) = g) ∧
    ∀ h : ImportGraph, g.json = h.json ↔ g.table = h.table := by
  intro g
  have hfile : (g.exported .json).toList = g.json.toList ++ ['\n'] := by
    simp [exported]
  refine ⟨readTable_json g, readTable_exported g, ?_, ?_, ⟨g.records, readAll_json g, ?_⟩,
    fun h => json_eq_iff⟩
  · -- no line feed is in the records, where it would be escaped
    have hline : g.json.toList.count '\n' = 0 :=
      List.count_eq_zero.mpr (ImportRecord.line_feed_not_mem_writeAll g.records)
    rw [hfile, List.count_append, hline]
    rfl
  · rw [hfile, List.getLast?_concat]
  · refine congrArg (ImportGraph.mk rootName F) (table_ofModules_records rootName ?_)
    exact fun x hx => allows_of_mem_nodes hx

end ImportGraph

end ImportAtlas
