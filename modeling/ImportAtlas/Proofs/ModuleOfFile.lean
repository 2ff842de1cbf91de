import ImportAtlas.Proofs.ArtifactPath
import ImportAtlas.Proofs.LinkedModules

/-!
Which files are the same module.

The path of a module is spelled by the names of the directories from the package down to its file
and by the stem of the file, unless that is the stem that stands for the directory. So a file
`x.py` and the file `__init__.py` of a directory `x` beside it are the same module, and no other
two files of a package are.
-/

namespace ImportAtlas

namespace FileName

def asSource (n : FileName) : FileName where
  text := n.text ++ ".py"
  isValid := isFileName_of_toList_eq (e := "py") ⟨by decide, by decide⟩ (by simp) n.toList_ne_nil
    n.slash_not_mem

variable {m n : FileName}

/-- A name with the extension of a source file behind something is cut there. -/
lemma cut?_of_text {stem : String} (hstem : stem ≠ "") (h : n.text = stem ++ ".py") :
    cut? n.text.toList = some (stem.toList, ['p', 'y']) := by
  have htext : n.text.toList = stem.toList ++ '.' :: ['p', 'y'] := by simp [h]
  rw [htext]
  exact cut?_append (mt String.toList_eq_nil_iff.mp hstem) (by decide)

lemma stem_of_text {stem : String} (hstem : stem ≠ "") (h : n.text = stem ++ ".py") :
    n.stem = stem := by
  rw [FileName.stem, cut?_of_text hstem h]
  exact String.ofList_toList

lemma isSource_of_text {stem : String} (hstem : stem ≠ "") (h : n.text = stem ++ ".py") :
    n.isSource = true := by
  rw [isSource, extension?, cut?_of_text hstem h]
  rfl

lemma stem_asSource (n : FileName) : n.asSource.stem = n.text := stem_of_text n.text_ne_empty rfl

lemma eq_of_stem_eq (hm : m.isSource = true) (hn : n.isSource = true) (h : m.stem = n.stem) :
    m = n :=
  text_injective (by rw [text_of_isSource hm, text_of_isSource hn, h])

lemma eq_asSource (hm : m.isSource = true) (h : m.stem = n.text) : m = n.asSource :=
  text_injective (by rw [text_of_isSource hm, h, asSource])

lemma stem_initName : initName.stem = initStem := by decide +kernel

lemma eq_initName (hm : m.isSource = true) (h : m.stem = initStem) : m = initName :=
  eq_of_stem_eq hm (by decide +kernel) (h.trans stem_initName.symm)

end FileName

/-! ### The names on the way to a file -/

namespace Location

variable {l top : Location}

/-- The names of the directories from one of them down to a place within it, both included. -/
def namesFrom (l top : Location) : List FileName := l.names.drop (top.names.length - 1)

/-- Within a directory the names begin with its own, and those in front lead to it. -/
lemma exists_namesFrom (htop : top ≠ .root) (h : top.names <+: l.names) :
    ∃ n rest, top.name? = some n ∧ l.namesFrom top = n :: rest ∧
      l.names = top.parent.names ++ n :: rest := by
  have hne : top.names ≠ [] := fun hnil => htop (congrArg Location.mk hnil)
  obtain ⟨n, hn⟩ : ∃ n, top.name? = some n := ⟨_, List.getLast?_eq_some_getLast hne⟩
  obtain ⟨rest, hrest⟩ := h
  have hnames : l.names = top.parent.names ++ n :: rest := by
    conv_lhs => rw [← hrest, ← child_parent hn]
    simp [child]
  have hlength : top.parent.names.length = top.names.length - 1 := List.length_dropLast
  refine ⟨n, rest, hn, ?_, hnames⟩
  rw [namesFrom, hnames, ← hlength, List.drop_left]

lemma names_eq_append (htop : top ≠ .root) (h : top.names <+: l.names) :
    l.names = top.parent.names ++ l.namesFrom top := by
  obtain ⟨n, rest, -, hfrom, hnames⟩ := exists_namesFrom htop h
  rw [hfrom, hnames]

/-- A place within a directory is known by the names that lead to it from there. -/
lemma eq_of_namesFrom_eq {l' : Location} (htop : top ≠ .root) (h : top.names <+: l.names)
    (h' : top.names <+: l'.names) (heq : l.namesFrom top = l'.namesFrom top) : l = l' := by
  have hnames : l.names = l'.names := by
    rw [names_eq_append htop h, names_eq_append htop h', heq]
  exact congrArg Location.mk hnames

lemma namesFrom_child (htop : top ≠ .root) (h : top.names <+: l.names) (n : FileName) :
    (l.child n).namesFrom top = l.namesFrom top ++ [n] := by
  have hnames : top.parent.names ++ (l.child n).namesFrom top =
      top.parent.names ++ (l.namesFrom top ++ [n]) := by
    rw [← names_eq_append htop (h.trans (prefix_child l n)), ← List.append_assoc,
      ← names_eq_append htop h]
    rfl
  exact List.append_cancel_left hnames

end Location

namespace ModulePath

variable {l l' root : Location} {m n : FileName}

/-- What the file adds to the path of the directory that it is in. -/
def ownSegments (n : FileName) : List String := if n.stem = initStem then [] else [n.stem]

lemma ofNames_cons {names : List FileName} (h : names ≠ []) :
    ofNames (n :: names) = ⟨n.text :: (ofNames names).segments⟩ := by
  obtain ⟨next, names, rfl⟩ := List.exists_cons_of_ne_nil h
  rfl

lemma segments_ofNames (names : List FileName) (n : FileName) :
    (ofNames (names ++ [n])).segments = names.map FileName.text ++ ownSegments n := by
  induction names with
  | nil =>
    unfold ownSegments
    rw [List.nil_append, ofNames]
    split <;> rfl
  | cons m names ih =>
    rw [List.cons_append, ofNames_cons (by simp), ih]
    rfl

lemma ofLocation_child (hroot : root ≠ .root) (h : root.names <+: l.names) (n : FileName) :
    ofLocation (l.child n) root =
      .ok ⟨(l.namesFrom root).map FileName.text ++ ownSegments n⟩ := by
  refine FileTree.ofLocation_eq_ok_iff.mpr
    ⟨hroot, l.namesFrom root ++ [n], ?_, congrArg mk (segments_ofNames ..)⟩
  rw [← List.append_assoc, ← Location.names_eq_append hroot h]
  rfl

/-! ### Files with the same path -/

/-- A file `x.py` in a directory of the package, and the file that stands for the directory `x`
beside it. -/
def StandsBeside (root file init : Location) : Prop :=
  ∃ (d : Location) (x : FileName), root.names <+: d.names ∧ x.text ≠ initStem ∧
    file = d.child x.asSource ∧ init = (d.child x).child initName

lemma ownSegments_asSource (h : n.text ≠ initStem) : ownSegments n.asSource = [n.text] := by
  rw [ownSegments, n.stem_asSource, if_neg h]

lemma ownSegments_initName : ownSegments initName = [] := if_pos FileName.stem_initName

lemma StandsBeside.ofLocation_eq {file init : Location} (hroot : root ≠ .root)
    (h : StandsBeside root file init) : ofLocation file root = ofLocation init root := by
  obtain ⟨d, x, hd, hx, rfl, rfl⟩ := h
  rw [ofLocation_child hroot hd, ofLocation_child hroot (hd.trans (Location.prefix_child d x)),
    ownSegments_asSource hx, ownSegments_initName, Location.namesFrom_child hroot hd,
    List.map_append, List.append_nil]
  rfl

/-- If the last name on the way to a directory is the stem of a file, the directory is beside it. -/
lemma standsBeside_of_map_eq (hroot : root ≠ .root) (h : root.names <+: l.names)
    (h' : root.names <+: l'.names) (hm : m.isSource = true) (hstem : m.stem ≠ initStem)
    (heq : (l'.namesFrom root).map FileName.text =
      (l.namesFrom root).map FileName.text ++ [m.stem]) :
    StandsBeside root (l.child m) (l'.child initName) := by
  obtain ⟨ns, xs, hnames, hns, hxs⟩ := List.map_eq_append_iff.mp heq
  obtain ⟨x, rfl, hx⟩ := List.map_eq_singleton_iff.mp hxs
  obtain rfl : ns = l.namesFrom root :=
    List.map_injective_iff.mpr (fun _ _ => FileName.text_injective) hns
  have hdir : l' = l.child x := by
    refine Location.eq_of_namesFrom_eq hroot h' (h.trans (Location.prefix_child l x)) ?_
    rw [hnames, Location.namesFrom_child hroot h]
  exact ⟨l, x, h, hx ▸ hstem, by rw [FileName.eq_asSource hm hx.symm], by rw [hdir]⟩

lemma eq_of_map_namesFrom_eq (hroot : root ≠ .root) (h : root.names <+: l.names)
    (h' : root.names <+: l'.names)
    (heq : (l.namesFrom root).map FileName.text = (l'.namesFrom root).map FileName.text) :
    l = l' :=
  Location.eq_of_namesFrom_eq hroot h h'
    (List.map_injective_iff.mpr (fun _ _ => FileName.text_injective) heq)

/-- Two files of a package have the same path if they are the same or one stands beside the
directory of the other. -/
lemma ofLocation_eq_iff (hroot : root ≠ .root) (h : root.names <+: l.names)
    (h' : root.names <+: l'.names) (hm : m.isSource = true) (hn : n.isSource = true) :
    ofLocation (l.child m) root = ofLocation (l'.child n) root ↔
      l.child m = l'.child n ∨ StandsBeside root (l.child m) (l'.child n) ∨
        StandsBeside root (l'.child n) (l.child m) := by
  constructor
  · intro heq
    rw [ofLocation_child hroot h, ofLocation_child hroot h', Except.ok.injEq, mk.injEq] at heq
    -- the path of a file ends with its stem unless it stands for its directory
    by_cases hminit : m.stem = initStem <;> by_cases hninit : n.stem = initStem
    · obtain rfl := FileName.eq_initName hm hminit
      obtain rfl := FileName.eq_initName hn hninit
      rw [ownSegments_initName, List.append_nil, List.append_nil] at heq
      exact .inl (by rw [eq_of_map_namesFrom_eq hroot h h' heq])
    · obtain rfl := FileName.eq_initName hm hminit
      rw [ownSegments_initName, List.append_nil, ownSegments, if_neg hninit] at heq
      exact .inr (.inr (standsBeside_of_map_eq hroot h' h hn hninit heq))
    · obtain rfl := FileName.eq_initName hn hninit
      rw [ownSegments_initName, List.append_nil, ownSegments, if_neg hminit] at heq
      exact .inr (.inl (standsBeside_of_map_eq hroot h h' hm hminit heq.symm))
    · rw [ownSegments, ownSegments, if_neg hminit, if_neg hninit] at heq
      obtain ⟨hnames, hstem⟩ := List.append_inj' heq rfl
      rw [eq_of_map_namesFrom_eq hroot h h' hnames,
        FileName.eq_of_stem_eq hm hn (List.cons.inj hstem).1]
      exact .inl rfl
  · rintro (heq | hbeside | hbeside)
    · rw [heq]
    · exact hbeside.ofLocation_eq hroot
    · exact (hbeside.ofLocation_eq hroot).symm

end ModulePath

namespace FileTree

open ModulePath

variable {t : FileTree} {here root f : Location} {p q : Path}

/-- The path of a file as a module depends on the places alone to which the paths lead. -/
lemma moduleAt_eq (hp : t.resolve here p = .ok f) (hq : t.resolve here q = .ok root) :
    t.moduleAt here p q = ofLocation f root := by
  rw [moduleAt, hp, hq]
  rfl

lemma exists_child_of_mem_sourceFiles (ht : t.LinkFree) (hdir : t.entry? root = some .directory)
    (hf : f ∈ t.sourceFiles root) :
    ∃ (d : Location) (n : FileName),
      f = d.child n ∧ root.names <+: d.names ∧ n.isSource = true := by
  obtain ⟨⟨c, hc⟩, hbelow, hname⟩ := ht.mem_sourceFiles_iff.mp hf
  obtain ⟨n, hn, hsource⟩ := (Option.any_eq_true _ _).mp hname
  have hchild := Location.child_parent hn
  refine ⟨f.parent, n, hchild.symm, ?_, hsource⟩
  rw [← hchild] at hbelow
  rcases List.prefix_concat_iff.mp hbelow with hnames | hparent
  · -- the package itself is no file
    obtain rfl : root = f := (congrArg Location.mk hnames).trans hchild
    rw [hdir] at hc
    cases hc
  · exact hparent

/-- **Modules of files.** In a tree without links the path of a source file as a module is spelled
by the names of the directories from the package down to it, the first of which is that of the
package, and by its stem unless that stands for the directory. Two files of a package have the same
path exactly if they are a file `x.py` and the file that stands for a directory `x` beside it. -/
theorem moduleAt_source_files (ht : t.LinkFree) (hq : t.resolve here q = .ok root)
    (hdir : t.entry? root = some .directory) (hroot : root ≠ .root) :
    (∀ p f, t.resolve here p = .ok f → f ∈ t.sourceFiles root →
      ∃ (d : Location) (n : FileName) (m : ModulePath), f = d.child n ∧
        t.moduleAt here p q = .ok m ∧
        m.segments = (d.namesFrom root).map FileName.text ++
          (if n.stem = "__init__" then [] else [n.stem]) ∧
        m.segments.head? = some (packageName root)) ∧
    ∀ p p' f f', t.resolve here p = .ok f → t.resolve here p' = .ok f' →
      f ∈ t.sourceFiles root → f' ∈ t.sourceFiles root → f ≠ f' →
      (t.moduleAt here p q = t.moduleAt here p' q ↔
        StandsBeside root f f' ∨ StandsBeside root f' f) := by
  constructor
  · intro p f hp hf
    obtain ⟨d, n, rfl, hd, hn⟩ := exists_child_of_mem_sourceFiles ht hdir hf
    refine ⟨d, n, _, rfl, (moduleAt_eq hp hq).trans (ofLocation_child hroot hd n), rfl, ?_⟩
    -- the names begin with that of the package, which is not the root of the tree
    obtain ⟨top, rest, htop, hfrom, -⟩ := Location.exists_namesFrom hroot hd
    rw [hfrom, packageName, htop]
    rfl
  · intro p p' f f' hp hp' hf hf' hne
    obtain ⟨d, n, rfl, hd, hn⟩ := exists_child_of_mem_sourceFiles ht hdir hf
    obtain ⟨d', n', rfl, hd', hn'⟩ := exists_child_of_mem_sourceFiles ht hdir hf'
    rw [moduleAt_eq hp hq, moduleAt_eq hp' hq, ofLocation_eq_iff hroot hd hd' hn hn',
      or_iff_right hne]

/-! ### A directory beside a file -/

/-- The package of one file with a directory of the same name beside it. -/
def besideTree : FileTree :=
  (loneTree #[]).add (loneDirectory.child initName) (.file #[])

theorem moduleAt_source_files_beside :
    besideTree.moduleAt .root loneFile.path lone.path =
      besideTree.moduleAt .root (loneDirectory.child initName).path lone.path ∧
    ∃ m, besideTree.moduleAt .root loneFile.path lone.path = .ok m ∧
      m.segments.head? = some (packageName lone) := by
  have hentries : besideTree.table.entries = [(lone, .directory), (loneDirectory, .directory),
      (loneDirectory.child initName, .file #[]), (loneFile, .file #[])] := rfl
  have hlinks : besideTree.LinkFree := linkFree_of_entries (by simp [hentries])
  have hmem : loneFile ∈ besideTree.sourceFiles lone :=
    hlinks.mem_sourceFiles_iff.mpr ⟨⟨#[], rfl⟩, by decide, by decide +kernel⟩
  have hmem' : loneDirectory.child initName ∈ besideTree.sourceFiles lone :=
    hlinks.mem_sourceFiles_iff.mpr ⟨⟨#[], rfl⟩, by decide, by decide +kernel⟩
  have hroot : besideTree.resolve .root lone.path = .ok lone :=
    resolve_path (e := .directory) rfl (by simp)
  have hfile : besideTree.resolve .root loneFile.path = .ok loneFile :=
    resolve_path (e := .file #[]) rfl (by simp)
  have hinit : besideTree.resolve .root (loneDirectory.child initName).path =
      .ok (loneDirectory.child initName) := resolve_path (e := .file #[]) rfl (by simp)
  obtain ⟨hpath, hsame⟩ := moduleAt_source_files hlinks hroot rfl (by decide)
  constructor
  · refine (hsame _ _ _ _ hfile hinit hmem hmem' (by decide)).mpr ?_
    exact .inl ⟨lone, ⟨"b", by decide +kernel⟩, List.prefix_refl _, by decide, by decide, rfl⟩
  · obtain ⟨d, n, m, -, hm, -, hhead⟩ := hpath _ _ hfile hmem
    exact ⟨m, hm, hhead⟩

end FileTree

end ImportAtlas
