import Mathlib.Data.Finset.Card
import ImportAtlas.Proofs.InternalModules
import ImportAtlas.Proofs.NamePrefix

/-!
The entries of a graph and the modules that they are of.

A graph knows its modules by their dotted names, so two files of a package are in the same entry
exactly if the dotted names of their modules are equal. The paths themselves may then still differ:
a dot in the stem of a file or in the name of a directory looks like one between two segments. Below
the package there must be such a dot, as all paths begin with the name of the package.
-/

namespace ImportAtlas

/-! ### Paths with the same dotted name -/

namespace ModulePath

variable {p q : ModulePath} {s : String} {ss ss' : List String}

/-- The parts of a path between dots, those within a segment too. -/
def dottedParts (p : ModulePath) : List (List Char) := p.segments.flatMap dottedSegments

lemma dottedSegments_text (h : p.segments ≠ []) : dottedSegments p.text = p.dottedParts := by
  rw [dottedSegments, text, String.toList_ofList, split_join (mt List.map_eq_nil_iff.mp h),
    List.flatMap_map]
  rfl

lemma text_eq_iff (hp : p.segments ≠ []) (hq : q.segments ≠ []) :
    p.text = q.text ↔ p.dottedParts = q.dottedParts := by
  rw [← dottedSegments_text hp, ← dottedSegments_text hq]
  refine ⟨congrArg _, fun h => ?_⟩
  rw [← join_dottedSegments p.text, h, join_dottedSegments]

lemma dottedSegments_self (h : '.' ∉ s.toList) : dottedSegments s = [s.toList] := split_self h

lemma dottedParts_of_dotFree (h : ∀ s ∈ ss, '.' ∉ s.toList) :
    dottedParts ⟨ss⟩ = ss.map String.toList := by
  induction ss with
  | nil => rfl
  | cons s ss ih =>
    rw [List.forall_mem_cons] at h
    rw [List.map_cons, ← ih h.2, dottedParts, List.flatMap_cons, dottedSegments_self h.1]
    rfl

/-- Behind the same first segment, segments without dots are told apart by the dotted name. -/
lemma eq_of_text_eq (h : ∀ s ∈ ss, '.' ∉ s.toList) (h' : ∀ s ∈ ss', '.' ∉ s.toList)
    (heq : text ⟨s :: ss⟩ = text ⟨s :: ss'⟩) : ss = ss' := by
  rw [text_eq_iff (List.cons_ne_nil _ _) (List.cons_ne_nil _ _)] at heq
  have hparts : dottedParts ⟨ss⟩ = dottedParts ⟨ss'⟩ := List.append_cancel_left heq
  rw [dottedParts_of_dotFree h, dottedParts_of_dotFree h'] at hparts
  exact List.map_injective_iff.mpr (fun _ _ => String.toList_inj.mp) hparts

end ModulePath

/-! ### The entries of a graph -/

namespace FileTree

open ModulePath

variable {t : FileTree} {here root f f' : Location} {path : Path} {files : List Location}
variable {g : ImportGraph} {m m' : ResolvedModule} {ms : List ResolvedModule} {k : String}

/-- The entry to which a file adds its imports: the one that its module makes in an empty table. -/
def AddsTo (t : FileTree) (root file : Location) (k : String) : Prop :=
  ∃ m, t.ResolvesTo root file m ∧
    (ImportGraph.addModule .all .empty (m.1, m.2.toList)).keys = [k]

lemma addsTo_iff : t.AddsTo root f k ↔ ∃ m, t.ResolvesTo root f m ∧ m.1.text = k := by
  have hkeys : ∀ m : ResolvedModule,
      (ImportGraph.addModule .all .empty (m.1, m.2.toList)).keys = [m.1.text] := fun _ => rfl
  simp only [AddsTo, hkeys, List.cons.injEq, and_true]

lemma ResolvesTo.addsTo_iff (h : t.ResolvesTo root f m) : t.AddsTo root f k ↔ m.1.text = k := by
  rw [FileTree.addsTo_iff]
  exact ⟨fun ⟨_, hm, hk⟩ => h.unique hm ▸ hk, fun hk => ⟨m, h, hk⟩⟩

/-- If the package is no directory, there is no other source file in it than itself. -/
lemma eq_root_of_mem_sourceFiles (hdir : t.entry? root ≠ some .directory)
    (hf : f ∈ t.sourceFiles root) : f = root := by
  obtain ⟨hkey, ⟨rest, hrest⟩, -⟩ := mem_sourceFiles_iff.mp hf
  cases rest with
  | nil => exact congrArg Location.mk (hrest.symm.trans (List.append_nil _))
  | cons n rest =>
    obtain ⟨names⟩ := f
    obtain rfl : root.names ++ n :: rest = names := hrest
    exact absurd (directory_of_split hkey).1 hdir

/-- Two files of the same entry that are different modules have a dot in their names below the
package. -/
lemma exists_dot_of_text_eq (ht : t.LinkFree) (hf : f ∈ t.sourceFiles root)
    (hf' : f' ∈ t.sourceFiles root) (hm : t.ResolvesTo root f m) (hm' : t.ResolvesTo root f' m')
    (htext : m.1.text = m'.1.text) (hne : m.1 ≠ m'.1) :
    ∃ s ∈ m.1.segments.tail ++ m'.1.segments.tail, '.' ∈ s.toList := by
  by_contra hdots
  simp only [List.mem_append, not_exists, not_and] at hdots
  refine hne ?_
  by_cases hdir : t.entry? root = some .directory
  · obtain ⟨ss, hss⟩ := exists_segments ht hdir hf hm
    obtain ⟨ss', hss'⟩ := exists_segments ht hdir hf' hm'
    rw [hss, hss'] at htext hdots
    have hsegments : ss = ss' :=
      eq_of_text_eq (fun s hs => hdots s (.inl hs)) (fun s hs => hdots s (.inr hs)) htext
    rw [hss, hss', hsegments]
  · obtain rfl := eq_root_of_mem_sourceFiles hdir hf
    obtain rfl := eq_root_of_mem_sourceFiles hdir hf'
    rw [hm.unique hm']

/-! ### The number of entries -/

def modulePaths (t : FileTree) (root : Location) : List ModulePath :=
  (t.sourceFiles root).filterMap fun f => (t.moduleAt .root f.path root.path).toOption

lemma filterMap_moduleAt (h : List.Forall₂ (t.ResolvesTo root) files ms) :
    (files.filterMap fun f => (t.moduleAt .root f.path root.path).toOption) = ms.map (·.1) := by
  induction h with
  | nil => rfl
  | cons hm _ ih => rw [List.filterMap_cons, (exists_of_resolvesTo hm).1, List.map_cons, ← ih]; rfl

lemma importerCount_eq (hms : t.resolveFiles root (t.sourceFiles root) = .ok ms) :
    (graphOf root .all ms).importerCount =
      ((t.modulePaths root).toFinset.image ModulePath.text).card := by
  have hnodup : (graphOf root .all ms).importers.Nodup := OrderedMap.keys_nodup _
  have hset : (graphOf root .all ms).importers.toFinset =
      (t.modulePaths root).toFinset.image ModulePath.text := by
    ext k
    rw [modulePaths, filterMap_moduleAt (forall₂_of_resolveFiles hms)]
    simp [mem_importers_graphOf]
  rw [ImportGraph.importerCount, ← List.toFinset_card_of_nodup hnodup, hset]

lemma mem_modulePaths_iff (hms : t.resolveFiles root (t.sourceFiles root) = .ok ms)
    {p : ModulePath} :
    p ∈ t.modulePaths root ↔ ∃ f ∈ t.sourceFiles root, ∃ m, t.ResolvesTo root f m ∧ m.1 = p := by
  have hall := forall₂_of_resolveFiles hms
  rw [modulePaths, filterMap_moduleAt hall, List.mem_map, exists_module_iff hall]

/-- **Entries and modules.** In a tree without links, a graph has an entry for each dotted name of a
module of the package, with what all files of that name import, and as many entries as there are
such names. Two files are in the same entry exactly if the dotted names of their modules are equal.
If they are different modules nevertheless, there is a dot in a name on the way from the package to
one of them. There are as many entries as modules exactly if no two modules have the same dotted
name, and so if there is no such dot. -/
theorem importers_dotted_names (ht : t.LinkFree) (hroot : t.resolve here path = .ok root)
    (hg : t.importGraph here path .all = .ok g) :
    (∀ f ∈ t.sourceFiles root, ∃ m, t.ResolvesTo root f m) ∧
    (∀ k, k ∈ g.importers ↔ ∃ f ∈ t.sourceFiles root, t.AddsTo root f k) ∧
    (∀ k v, g.Imports k v ↔ ∃ f ∈ t.sourceFiles root, t.AddsTo root f k ∧
      ∃ m, t.ResolvesTo root f m ∧ ∃ p ∈ m.2, p.text = v) ∧
    (∀ f ∈ t.sourceFiles root, ∀ f' ∈ t.sourceFiles root, ∀ m m',
      t.ResolvesTo root f m → t.ResolvesTo root f' m' →
        ((∃ k, t.AddsTo root f k ∧ t.AddsTo root f' k) ↔ m.1.text = m'.1.text) ∧
        (m.1.text = m'.1.text → m.1 ≠ m'.1 →
          ∃ s ∈ m.1.segments.tail ++ m'.1.segments.tail, '.' ∈ s.toList)) ∧
    g.importerCount = ((t.modulePaths root).toFinset.image ModulePath.text).card ∧
    (g.importerCount = (t.modulePaths root).toFinset.card ↔
      ∀ p ∈ t.modulePaths root, ∀ q ∈ t.modulePaths root, p.text = q.text → p = q) ∧
    ((∀ p ∈ t.modulePaths root, ∀ s ∈ p.segments.tail, '.' ∉ s.toList) →
      g.importerCount = (t.modulePaths root).toFinset.card) := by
  obtain ⟨ms, hms, rfl⟩ := (importGraph_eq_ok_iff_modules hroot).mp hg
  have hall := forall₂_of_resolveFiles hms
  -- no name is lost if and only if the names tell the paths apart
  have hcount : (graphOf root .all ms).importerCount = (t.modulePaths root).toFinset.card ↔
      ∀ p ∈ t.modulePaths root, ∀ q ∈ t.modulePaths root, p.text = q.text → p = q := by
    rw [importerCount_eq hms, Finset.card_image_iff]
    simp [Set.InjOn]
  refine ⟨fun f hf => exists_of_resolveFiles hms hf, fun k => ?_, fun k v => ?_, ?_,
    importerCount_eq hms, hcount, fun hdots => hcount.mpr ?_⟩
  · simp only [mem_importers_graphOf, exists_module_iff hall, addsTo_iff]
    simp
  · simp only [imports_graphOf, exists_module_iff hall, addsTo_iff, ModuleFilter.allows_all,
      true_and]
    refine exists_congr fun f => and_congr_right fun _ => ?_
    constructor
    · rintro ⟨m, hm, hk, himport⟩
      exact ⟨⟨m, hm, hk⟩, m, hm, himport⟩
    · rintro ⟨⟨m, hm, hk⟩, m', hm', himport⟩
      obtain rfl := hm.unique hm'
      exact ⟨m, hm, hk, himport⟩
  · intro f hf f' hf' m m' hm hm'
    refine ⟨?_, exists_dot_of_text_eq ht hf hf' hm hm'⟩
    simp only [hm.addsTo_iff, hm'.addsTo_iff]
    exact ⟨fun ⟨k, hk, hk'⟩ => hk.trans hk'.symm, fun htext => ⟨_, rfl, htext.symm⟩⟩
  · intro p hp q hq htext
    obtain ⟨f, hf, m, hm, rfl⟩ := (mem_modulePaths_iff hms).mp hp
    obtain ⟨f', hf', m', hm', rfl⟩ := (mem_modulePaths_iff hms).mp hq
    -- two files of one name need a dot below the package, and there is none
    by_contra hne
    obtain ⟨s, hs, hdot⟩ := exists_dot_of_text_eq ht hf hf' hm hm' htext hne
    rcases List.mem_append.mp hs with hs | hs
    · exact hdots _ hp s hs hdot
    · exact hdots _ hq s hs hdot

/-! ### A dot in the name of a file -/

def dottedFile : Location := lone.child ⟨"b.f.py", by decide +kernel⟩

/-- The file that has a directory where the other one has a dot. -/
def nestedFile : Location := loneDirectory.child ⟨"f.py", by decide +kernel⟩

def dottedTree : FileTree := (empty.add dottedFile (.file #[])).add nestedFile (.file #[])

lemma entries_dottedTree : dottedTree.table.entries =
    [(lone, .directory), (loneDirectory, .directory), (nestedFile, .file #[]),
      (dottedFile, .file #[])] := rfl

lemma dottedTree_linkFree : dottedTree.LinkFree :=
  linkFree_of_entries (by simp [entries_dottedTree])

lemma sourceFiles_dottedTree : dottedTree.sourceFiles lone = [nestedFile, dottedFile] := by
  have hwithin : dottedTree.within lone = [lone, loneDirectory, nestedFile, dottedFile] := rfl
  have hlone : entry? dottedTree lone = some .directory := rfl
  have hdirectory : entry? dottedTree loneDirectory = some .directory := rfl
  have hnested : entry? dottedTree nestedFile = some (.file #[]) := rfl
  have hdotted : entry? dottedTree dottedFile = some (.file #[]) := rfl
  rw [sourceFiles, hwithin]
  simp only [List.filter_cons, List.filter_nil, isSourceFile_eq hlone (by simp),
    isSourceFile_eq hdirectory (by simp), isSourceFile_eq hnested (by simp),
    isSourceFile_eq hdotted (by simp)]
  rfl

lemma resolve_dottedTree : dottedTree.resolve .root lone.path = .ok lone :=
  resolve_path (e := .directory) rfl (by simp)

lemma exists_resolveFiles_dottedTree :
    ∃ m m', dottedTree.ResolvesTo lone nestedFile m ∧ dottedTree.ResolvesTo lone dottedFile m' ∧
      m.1 = ⟨["a", "b", "f"]⟩ ∧ m'.1 = ⟨["a", "b.f"]⟩ ∧
      dottedTree.resolveFiles lone (dottedTree.sourceFiles lone) = .ok [m, m'] := by
  have hempty : "".toUTF8.data = #[] := by decide +kernel
  have hfile : ∀ f, (f, .file #[]) ∈ dottedTree.table.entries →
      dottedTree.entry? f = some (.file "".toUTF8.data) := by
    rw [hempty]
    exact fun f hf => entry?_of_mem hf
  obtain ⟨imports, hnested, -⟩ : ∃ imports,
      dottedTree.ResolvesTo lone nestedFile (⟨["a", "b", "f"]⟩, imports) ∧ imports.toList = [] :=
    exists_resolvesTo rfl (hfile _ (by simp [entries_dottedTree])) rfl (by decide +kernel)
  obtain ⟨imports', hdotted, -⟩ : ∃ imports,
      dottedTree.ResolvesTo lone dottedFile (⟨["a", "b.f"]⟩, imports) ∧ imports.toList = [] :=
    exists_resolvesTo rfl (hfile _ (by simp [entries_dottedTree])) rfl (by decide +kernel)
  refine ⟨_, _, hnested, hdotted, rfl, rfl, ?_⟩
  unfold ResolvesTo at hnested hdotted
  rw [sourceFiles_dottedTree, resolveFiles, hnested, resolveFiles, hdotted]
  rfl

/-- The modules of the two files differ, but not their dotted names: a name on the way to one of the
files has a dot in it, and there are fewer entries than modules. -/
theorem importers_dotted_names_dotted :
    dottedTree.LinkFree ∧ ∃ g m m', dottedTree.importGraph .root lone.path .all = .ok g ∧
      dottedTree.ResolvesTo lone nestedFile m ∧ dottedTree.ResolvesTo lone dottedFile m' ∧
      (∃ k, dottedTree.AddsTo lone nestedFile k ∧ dottedTree.AddsTo lone dottedFile k) ∧
      (∃ s ∈ m.1.segments.tail ++ m'.1.segments.tail, '.' ∈ s.toList) ∧
      g.importerCount ≠ (dottedTree.modulePaths lone).toFinset.card := by
  obtain ⟨m, m', hnested, hdotted, hm, hm', hms⟩ := exists_resolveFiles_dottedTree
  have hg : dottedTree.importGraph .root lone.path .all = .ok (graphOf lone .all [m, m']) :=
    (importGraph_eq_ok_iff_modules resolve_dottedTree).mpr ⟨_, hms, rfl⟩
  have hsource : nestedFile ∈ dottedTree.sourceFiles lone := by simp [sourceFiles_dottedTree]
  have hsource' : dottedFile ∈ dottedTree.sourceFiles lone := by simp [sourceFiles_dottedTree]
  have htext : m.1.text = m'.1.text := by
    rw [hm, hm']
    decide +kernel
  have hne : m.1 ≠ m'.1 := by
    rw [hm, hm']
    decide +kernel
  obtain ⟨-, -, -, hpairs, -, hcount, -⟩ :=
    importers_dotted_names dottedTree_linkFree resolve_dottedTree hg
  obtain ⟨hshare, hdot⟩ := hpairs _ hsource _ hsource' m m' hnested hdotted
  refine ⟨dottedTree_linkFree, _, m, m', hg, hnested, hdotted, hshare.mpr htext, hdot htext hne,
    fun heq => hne ?_⟩
  -- as many entries as modules would tell the two paths apart
  exact hcount.mp heq _ ((mem_modulePaths_iff hms).mpr ⟨_, hsource, m, hnested, rfl⟩) _
    ((mem_modulePaths_iff hms).mpr ⟨_, hsource', m', hdotted, rfl⟩) htext

/-- Two files whose paths as modules differ are in one entry, and no other file is in it. -/
theorem importers_dotted_names_merged :
    dottedTree.LinkFree ∧ ∃ g m m', dottedTree.importGraph .root lone.path .all = .ok g ∧
      dottedTree.ResolvesTo lone nestedFile m ∧ dottedTree.ResolvesTo lone dottedFile m' ∧
      m.1 = ⟨["a", "b", "f"]⟩ ∧ m'.1 = ⟨["a", "b.f"]⟩ ∧
      dottedTree.AddsTo lone nestedFile "a.b.f" ∧ dottedTree.AddsTo lone dottedFile "a.b.f" ∧
      g.importerCount = 1 ∧ (dottedTree.modulePaths lone).toFinset.card = 2 := by
  obtain ⟨m, m', hnested, hdotted, hm, hm', hms⟩ := exists_resolveFiles_dottedTree
  have htext : m.1.text = "a.b.f" := by
    rw [hm]
    decide +kernel
  have htext' : m'.1.text = "a.b.f" := by
    rw [hm']
    decide +kernel
  have hpaths : dottedTree.modulePaths lone = [⟨["a", "b", "f"]⟩, ⟨["a", "b.f"]⟩] := by
    rw [modulePaths, filterMap_moduleAt (forall₂_of_resolveFiles hms), List.map_cons, List.map_cons,
      hm, hm', List.map_nil]
  refine ⟨dottedTree_linkFree, _, m, m',
    (importGraph_eq_ok_iff_modules resolve_dottedTree).mpr ⟨_, hms, rfl⟩, hnested, hdotted, hm, hm',
    hnested.addsTo_iff.mpr htext, hdotted.addsTo_iff.mpr htext', ?_, ?_⟩
  · rw [importerCount_eq hms, hpaths]
    decide +kernel
  · rw [hpaths]
    decide +kernel

end FileTree

end ImportAtlas
