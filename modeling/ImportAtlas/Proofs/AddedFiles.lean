import ImportAtlas.Proofs.ProgramRun
import ImportAtlas.Proofs.WrittenFile

/-!
Files that are added to a tree without links.

Some files may be new and others changed, but no directory comes or goes. As long as none of these
files is called like a source file, a package is the same to a survey as before.
-/

namespace ImportAtlas

namespace FileTree

variable {t t' : FileTree} {here l root file x : Location} {ls files : List Location}

/-- The trees differ at some of the places at most, where no directory was and a text is. -/
def Adds (t t' : FileTree) (ls : List Location) : Prop :=
  ∀ x, t'.entry? x = t.entry? x ∨
    x ∈ ls ∧ t.entry? x ≠ some .directory ∧ ∃ s, t'.entry? x = some (textFile s)

lemma Puts.adds {s : String} (h : t.Puts t' l s) (hl : l ∈ ls) : t.Adds t' ls := by
  intro x
  by_cases hx : x = l
  · subst hx
    exact .inr ⟨hl, h.free, s, h.entry⟩
  · exact .inl (h.others x hx)

namespace Adds

lemma refl (t : FileTree) (ls : List Location) : t.Adds t ls := fun _ => .inl rfl

variable (h : t.Adds t' ls)

include h

lemma directory_iff : t'.entry? x = some .directory ↔ t.entry? x = some .directory := by
  rcases h x with hx | ⟨-, hx, s, hs⟩
  · rw [hx]
  · rw [hs]
    exact iff_of_false (fun heq => Entry.noConfusion (Option.some.inj heq)) hx

lemma trans {t'' : FileTree} (h' : t'.Adds t'' ls) : t.Adds t'' ls := by
  intro x
  rcases h' x with hx' | ⟨hls, hdir, hs⟩
  · rw [hx']
    exact h x
  · exact .inr ⟨hls, fun hx => hdir (h.directory_iff.mpr hx), hs⟩

lemma entry?_eq (hx : x ∉ ls) : t'.entry? x = t.entry? x :=
  (h x).resolve_right fun hne => hx hne.1

lemma exists_file {c : Array UInt8} (hx : t.entry? x = some (.file c)) :
    ∃ c', t'.entry? x = some (.file c') := by
  rcases h x with hsame | ⟨-, -, s, hs⟩
  · exact ⟨c, hsame.trans hx⟩
  · exact ⟨_, hs⟩

variable (ht : t.LinkFree)

include ht

lemma linkFree : t'.LinkFree := by
  intro x target
  rcases h x with hx | ⟨-, -, s, hs⟩
  · rw [hx]
    exact ht x target
  · rw [hs]
    exact fun heq => Entry.noConfusion (Option.some.inj heq)

lemma resolve {p : Path} (hx : t.resolve here p = .ok x) : t'.resolve here p = .ok x := by
  have hentry : ∃ e, t'.entry? x = some e := by
    obtain ⟨e, he⟩ := (resolve_entry ht hx).resolve_right nofun
    rcases h x with hsame | ⟨-, -, s, hs⟩
    · exact ⟨e, hsame.trans he⟩
    · exact ⟨_, hs⟩
  exact resolve_keeps ht (fun _ => h.directory_iff.mpr) (h.linkFree ht x) id (.inr hentry) hx

lemma writable {p : Path} (hp : t.Writable here p) : t'.Writable here p := by
  obtain ⟨x, hx, hdir⟩ := hp
  exact ⟨x, resolve_keeps ht (fun _ => h.directory_iff.mpr) (h.linkFree ht x) id (.inl rfl) hx,
    mt h.directory_iff.mp hdir⟩

lemma packageRoot {path : String} (hroot : t.packageRoot here path = .ok root) :
    t'.packageRoot here path = .ok root := by
  obtain ⟨hpath, hdir, hfile⟩ := packageRoot_eq_ok_iff.mp hroot
  obtain ⟨x, c, hx, hc⟩ := isFile_iff.mp hfile
  obtain ⟨c', hc'⟩ := h.exists_file hc
  exact packageRoot_eq_ok_iff.mpr ⟨h.resolve ht hpath, h.directory_iff.mpr hdir,
    isFile_iff.mpr ⟨x, c', h.resolve ht hx, hc'⟩⟩

end Adds

/-! ### The source files of a package -/

lemma mem_sourceFiles_iff :
    x ∈ t.sourceFiles root ↔
      x ∈ t.table.keys ∧ root.names <+: x.names ∧ t.isSourceFile x = true := by
  rw [sourceFiles, List.mem_filter, mem_within_iff, and_assoc]

lemma sourceFiles_pairwise (t : FileTree) (root : Location) :
    (t.sourceFiles root).Pairwise (· < ·) :=
  ((OrderedMap.keys_pairwise t.table).filter _).filter _

/-- Trees with the same source files have them in the same order. -/
lemma sourceFiles_eq (h : ∀ x, x ∈ t'.sourceFiles root ↔ x ∈ t.sourceFiles root) :
    t'.sourceFiles root = t.sourceFiles root := by
  have hantisymm : Std.Antisymm fun a b : Location => a < b :=
    ⟨fun a b hab hba => absurd (Trans.trans hab hba : a < a) (Std.Irrefl.irrefl (r := (· < ·)) a)⟩
  exact (t'.sourceFiles_pairwise root).eq_of_mem_iff (t.sourceFiles_pairwise root) h

/-- In a tree without links the source files are the files with such names. -/
lemma LinkFree.mem_sourceFiles_iff (ht : t.LinkFree) :
    x ∈ t.sourceFiles root ↔
      (∃ c, t.entry? x = some (.file c)) ∧ root.names <+: x.names ∧
        x.name?.any FileName.isSource = true := by
  rw [FileTree.mem_sourceFiles_iff]
  constructor
  · rintro ⟨hx, hroot, hsource⟩
    obtain ⟨e, he⟩ := OrderedMap.mem_keys_iff.mp hx
    rw [← entry?_eq_find? (t.isRooted x hx).1] at he
    rw [isSourceFile_eq he fun target heq => ht x target (heq ▸ he), Bool.and_eq_true] at hsource
    refine ⟨?_, hroot, hsource.2⟩
    -- without links, an entry that counts as a file is one
    cases e with
    | directory => simp at hsource
    | link target => exact absurd he (ht x target)
    | file c => exact ⟨c, he⟩
  · rintro ⟨⟨c, hc⟩, hroot, hname⟩
    have hx : x ≠ .root := by
      rintro rfl
      rw [entry?_root] at hc
      cases hc
    refine ⟨mem_keys_of_entry hc hx, hroot, ?_⟩
    rw [isSourceFile_eq hc (by simp), hname]
    simp

/-- A file resolves alike wherever it stands in the same way. -/
lemma resolveFile_congr {c : Array UInt8} (hroot : t.entry? root = some .directory)
    (hroot' : t'.entry? root = some .directory) (hfile : t.entry? file = some (.file c))
    (hfile' : t'.entry? file = some (.file c)) :
    t'.resolveFile .root file.path root.path = t.resolveFile .root file.path root.path := by
  unfold resolveFile moduleAt readText
  rw [resolve_path hroot (by simp), resolve_path hroot' (by simp), resolve_path hfile (by simp),
    resolve_path hfile' (by simp)]
  simp only [bind, Except.bind, hfile, hfile']

lemma resolveFiles_congr
    (h : ∀ f ∈ files,
      t'.resolveFile .root f.path root.path = t.resolveFile .root f.path root.path) :
    t'.resolveFiles root files = t.resolveFiles root files := by
  induction files with
  | nil => rfl
  | cons f fs ih =>
    rw [resolveFiles, resolveFiles, h f (List.mem_cons_self ..),
      ih fun f' hf' => h f' (List.mem_cons_of_mem _ hf')]

def NoSources (ls : List Location) : Prop := ∀ l ∈ ls, l.name?.any FileName.isSource = false

namespace Adds

variable (h : t.Adds t' ls) (ht : t.LinkFree) (hls : NoSources ls)

include h hls

lemma entry?_of_source (hx : x.name?.any FileName.isSource = true) :
    t'.entry? x = t.entry? x := by
  refine h.entry?_eq fun hmem => ?_
  rw [hls x hmem] at hx
  cases hx

include ht

lemma sourceFiles : t'.sourceFiles root = t.sourceFiles root := by
  refine sourceFiles_eq fun x => ?_
  rw [ht.mem_sourceFiles_iff, (h.linkFree ht).mem_sourceFiles_iff]
  by_cases hx : x.name?.any FileName.isSource = true
  · rw [h.entry?_of_source hls hx]
  · simp [hx]

lemma modules (hroot : t.entry? root = some .directory) : t'.modules root = t.modules root := by
  unfold FileTree.modules
  rw [h.sourceFiles ht hls]
  rw [resolveFiles_congr fun f hf => ?_]
  obtain ⟨⟨c, hc⟩, -, hname⟩ := ht.mem_sourceFiles_iff.mp hf
  exact resolveFile_congr hroot (h.directory_iff.mpr hroot) hc
    ((h.entry?_of_source hls hname).trans hc)

/-- A survey that has a graph comes to the same with the files added. -/
lemma survey {o : CommandLine.Options} {g : ImportGraph}
    (hg : (CommandLine.survey t here o).1 = .ok g) :
    CommandLine.survey t' here o = CommandLine.survey t here o := by
  unfold CommandLine.survey at hg ⊢
  cases hroot : t.packageRoot here o.root with
  | error e => simp [hroot] at hg
  | ok root =>
    rw [h.packageRoot ht hroot]
    dsimp only
    rw [h.modules ht hls (packageRoot_eq_ok_iff.mp hroot).2.1, h.sourceFiles ht hls]

end Adds

end FileTree

end ImportAtlas
