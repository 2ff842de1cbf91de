import ImportAtlas.Proofs.JsonRoundTrip

/-!
Records that are merged.

Reading any list of records merges those of the same name, as building a graph of them does. So the
table has the names of the records and what they import, and it does not matter in which order they
are listed, how often, or over how many records the imports of a name are spread.
-/

namespace ImportAtlas.Json.ImportRecord

variable {records others : List ImportRecord} {k v : String}

def HasName (records : List ImportRecord) (k : String) : Prop := ∃ r ∈ records, r.name = k

def Mentions (records : List ImportRecord) (k v : String) : Prop :=
  ∃ r ∈ records, r.name = k ∧ v ∈ r.imports

/-! ### The merged table -/

lemma mem_keys_table : k ∈ (table records).keys ↔ HasName records k := by
  rw [table_eq ""]
  show k ∈ (ImportGraph.ofModules "" .all (records.map module)).importers ↔ _
  rw [ImportGraph.mem_importers_ofModules]
  simp [HasImporter, HasName, module]

lemma lists_table : (table records).Lists k v ↔ Mentions records k v := by
  rw [table_eq ""]
  show (ImportGraph.ofModules "" .all (records.map module)).Imports k v ↔ _
  rw [ImportGraph.imports_ofModules]
  simp [HasImport, Mentions, module]

lemma table_eq_iff :
    table records = table others ↔
      (∀ k, HasName records k ↔ HasName others k) ∧
        ∀ k v, Mentions records k v ↔ Mentions others k v := by
  constructor
  · intro h
    refine ⟨fun k => ?_, fun k v => ?_⟩
    · rw [← mem_keys_table, ← mem_keys_table, h]
    · rw [← lists_table, ← lists_table, h]
  · rintro ⟨hnames, himports⟩
    refine ImportTable.eq_of_lists_iff (fun k => ?_) fun k v => ?_
    · rw [mem_keys_table, mem_keys_table, hnames]
    · rw [lists_table, lists_table, himports]

/-! ### Other lists of the same records -/

/-- The records in another order, some of them listed again, and some of them in parts. -/
inductive Rearranged : List ImportRecord → List ImportRecord → Prop where
  | ordered {records others : List ImportRecord} (h : records.Perm others) :
      Rearranged records others
  | again {r : ImportRecord} {records : List ImportRecord} (h : r ∈ records) :
      Rearranged records (r :: records)
  | parted {name : String} {imports part rest : List String} {records : List ImportRecord}
      (h : ∀ v, v ∈ imports ↔ v ∈ part ∨ v ∈ rest) :
      Rearranged (⟨name, imports⟩ :: records) (⟨name, part⟩ :: ⟨name, rest⟩ :: records)
  | trans {records others last : List ImportRecord} (h : Rearranged records others)
      (h' : Rearranged others last) : Rearranged records last

namespace Rearranged

lemma hasName_iff (h : Rearranged records others) : HasName records k ↔ HasName others k := by
  unfold HasName
  induction h with
  | ordered h => simp only [h.mem_iff]
  | again h =>
    rw [List.exists_mem_cons_iff]
    exact ⟨.inr, fun hk => hk.elim (fun hr => ⟨_, h, hr⟩) id⟩
  | parted h => simp only [List.exists_mem_cons_iff, or_self_left]
  | trans _ _ ih ih' => exact ih.trans ih'

lemma mentions_iff (h : Rearranged records others) :
    Mentions records k v ↔ Mentions others k v := by
  unfold Mentions
  induction h with
  | ordered h => simp only [h.mem_iff]
  | again h =>
    rw [List.exists_mem_cons_iff]
    exact ⟨.inr, fun hk => hk.elim (fun hr => ⟨_, h, hr⟩) id⟩
  | parted h => simp only [List.exists_mem_cons_iff, h, and_or_left, or_assoc]
  | trans _ _ ih ih' => exact ih.trans ih'

lemma table_eq (h : Rearranged records others) : table others = table records :=
  table_eq_iff.mpr ⟨fun _ => h.hasName_iff.symm, fun _ _ => h.mentions_iff.symm⟩

end Rearranged

/-! ### Through JSON -/

lemma readTable_written (records : List ImportRecord) :
    readTable (writeAll records) = .ok (table records) := by
  rw [readTable, readAll_written]
  rfl

/-- **Merging records.** Any list of records is read back as it was written. Merged, the records
make the table of a graph that is built of them and keeps everything: it has an entry for each name
that is listed, also for one that imports nothing, and the imports of a name are those of all
records of that name. Lists that agree on these have the same table, and no others do; so the table
stays the same when the records are put in another order, listed again or divided. -/
theorem merged_records (rootName : String) (records : List ImportRecord) :
    readAll (writeAll records) = .ok records ∧
    readTable (writeAll records) =
      .ok (ImportGraph.ofModules rootName .all (records.map module)).table ∧
    (∃ t : ImportTable, readTable (writeAll records) = .ok t ∧
      (∀ k, k ∈ t.keys ↔ ∃ r ∈ records, r.name = k) ∧
      ∀ k v, t.Lists k v ↔ ∃ r ∈ records, r.name = k ∧ v ∈ r.imports) ∧
    (∀ others, readTable (writeAll others) = readTable (writeAll records) ↔
      (∀ k, HasName others k ↔ HasName records k) ∧
        ∀ k v, Mentions others k v ↔ Mentions records k v) ∧
    ∀ others, Rearranged records others →
      readTable (writeAll others) = readTable (writeAll records) := by
  simp only [readTable_written, Except.ok.injEq]
  exact ⟨readAll_written records, table_eq rootName records,
    ⟨table records, rfl, fun k => mem_keys_table, fun k v => lists_table⟩,
    fun others => table_eq_iff, fun others h => h.table_eq⟩

/-- A name without imports is listed again, and the imports of another one are divided. -/
theorem merged_records_divided :
    readTable (writeAll [⟨"b", []⟩, ⟨"a", ["y"]⟩, ⟨"a", ["x", "x"]⟩, ⟨"b", []⟩]) =
      readTable (writeAll [⟨"a", ["x", "y", "x"]⟩, ⟨"b", []⟩]) := by
  refine (merged_records "" _).2.2.2.2 _ ?_
  have hparted : Rearranged [⟨"a", ["x", "y", "x"]⟩, ⟨"b", []⟩]
      [⟨"a", ["y"]⟩, ⟨"a", ["x", "x"]⟩, ⟨"b", []⟩] :=
    .parted fun v => by simp [or_comm]
  exact hparted.trans (.again (by simp))

end ImportAtlas.Json.ImportRecord
