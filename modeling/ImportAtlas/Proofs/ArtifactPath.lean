import ImportAtlas.Export.Dot
import ImportAtlas.Export.Format
import ImportAtlas.Package.ModuleFile
import ImportAtlas.Proofs.SplitText
import ImportAtlas.Proofs.WrittenFile

/-!
The paths that a run writes to.

They differ in their last names only, and these names go on differently from one stem. So they
begin at one directory and lead to different places.
-/

namespace ImportAtlas

namespace FileName

/-! ### Stems and extensions -/

lemma isFileName_iff {text : String} :
    isFileName text = true ↔ text ≠ "" ∧ text ≠ "." ∧ text ≠ ".." ∧ '/' ∉ text.toList := by
  simp [isFileName, and_assoc]

lemma ofText?_eq_some_iff {text : String} {n : FileName} :
    ofText? text = some n ↔ n.text = text := by
  rw [ofText?, Option.dite_none_right_eq_some]
  constructor
  · rintro ⟨_, h⟩
    exact Option.some.inj h ▸ rfl
  · rintro rfl
    exact ⟨n.isValid, rfl⟩

lemma text_ne_empty (n : FileName) : n.text ≠ "" := (isFileName_iff.mp n.isValid).1

lemma toList_ne_nil (n : FileName) : n.text.toList ≠ [] :=
  mt String.toList_eq_nil_iff.mp n.text_ne_empty

lemma slash_not_mem (n : FileName) : '/' ∉ n.text.toList := (isFileName_iff.mp n.isValid).2.2.2

/-- A name is cut at a dot behind something. -/
lemma cut?_eq_some {s e cs : List Char} (h : cut? cs = some (s, e)) :
    s ≠ [] ∧ cs = s ++ '.' :: e := by
  unfold cut? at h
  split at h
  · rename_i d c rest hcut
    obtain ⟨rfl, rfl⟩ := Prod.mk.inj (Option.some.inj h)
    have hdot := List.head?_dropWhile_not (fun c => decide (c ≠ '.')) cs.reverse
    rw [hcut] at hdot
    obtain rfl : d = '.' := by simpa using hdot
    refine ⟨by simp, ?_⟩
    have hsplit := List.takeWhile_append_dropWhile (p := fun c => decide (c ≠ '.'))
      (l := cs.reverse)
    rw [hcut] at hsplit
    conv_lhs => rw [← List.reverse_reverse cs, ← hsplit]
    simp
  · cases h

lemma cut?_append {s e : List Char} (hs : s ≠ []) (he : '.' ∉ e) :
    cut? (s ++ '.' :: e) = some (s, e) := by
  have hreverse : (s ++ '.' :: e).reverse = e.reverse ++ '.' :: s.reverse := by simp
  have hpos : ∀ c ∈ e.reverse, decide (c ≠ '.') = true := by
    intro c hc
    refine decide_eq_true ?_
    rintro rfl
    exact he (List.mem_reverse.mp hc)
  obtain ⟨c, cs, hcons⟩ := List.exists_cons_of_ne_nil (List.reverse_ne_nil_iff.mpr hs)
  have hdrop : (s ++ '.' :: e).reverse.dropWhile (· ≠ '.') = '.' :: c :: cs := by
    rw [hreverse, List.dropWhile_append_of_pos hpos, List.dropWhile_cons_of_neg (by simp), hcons]
  have htake : (s ++ '.' :: e).reverse.takeWhile (· ≠ '.') = e.reverse := by
    rw [hreverse, List.takeWhile_append_of_pos hpos, List.takeWhile_cons_of_neg (by simp),
      List.append_nil]
  unfold cut?
  rw [hdrop, htake]
  simp only [← hcons, List.reverse_reverse]

lemma stem_ne_nil (n : FileName) : n.stem.toList ≠ [] := by
  unfold stem
  split
  · rename_i s e h
    rw [String.toList_ofList]
    exact (cut?_eq_some h).1
  · exact n.toList_ne_nil

lemma mem_of_mem_stem {n : FileName} {c : Char} (h : c ∈ n.stem.toList) : c ∈ n.text.toList := by
  unfold stem at h
  split at h
  · rename_i s e hcut
    rw [String.toList_ofList] at h
    rw [(cut?_eq_some hcut).2]
    exact List.mem_append_left _ h
  · exact h

/-- Something that may stand behind the dot of a name. -/
def IsEnding (e : String) : Prop := e.toList ≠ [] ∧ '/' ∉ e.toList

/-- Something with an ending behind a dot is a name. -/
lemma isFileName_of_toList_eq {text e : String} {s : List Char} (he : IsEnding e)
    (htext : text.toList = s ++ '.' :: e.toList) (hs : s ≠ []) (hslash : '/' ∉ s) :
    isFileName text = true := by
  have hlength : 3 ≤ text.toList.length := by
    have hstem := List.length_pos_iff.mpr hs
    have hending := List.length_pos_iff.mpr he.1
    rw [htext, List.length_append, List.length_cons]
    omega
  -- the three texts that are no names are shorter than this one
  have hne : ∀ t : String, t.toList.length < 3 → text ≠ t := by
    rintro t ht rfl
    omega
  have hnone : '/' ∉ text.toList := by
    rw [htext, List.mem_append, List.mem_cons]
    rintro (h | h | h)
    · exact hslash h
    · cases h
    · exact he.2 h
  exact isFileName_iff.mpr
    ⟨hne "" (by decide), hne "." (by decide), hne ".." (by decide), hnone⟩

def extend (n : FileName) (e : String) (he : IsEnding e) : FileName where
  text := n.stem ++ "." ++ e
  isValid := isFileName_of_toList_eq he (by simp) n.stem_ne_nil fun h =>
    n.slash_not_mem (mem_of_mem_stem h)

variable {n : FileName} {e f : String} {he : IsEnding e} {hf : IsEnding f}

lemma toList_extend : (n.extend e he).text.toList = n.stem.toList ++ '.' :: e.toList := by
  simp [extend, String.toList_append]

lemma stem_extend (hdot : '.' ∉ e.toList) : (n.extend e he).stem = n.stem := by
  rw [stem, toList_extend, cut?_append n.stem_ne_nil hdot]
  exact String.ofList_toList

lemma extend_extend (hdot : '.' ∉ e.toList) : (n.extend e he).extend f hf = n.extend f hf := by
  apply text_injective
  show (n.extend e he).stem ++ "." ++ f = n.stem ++ "." ++ f
  rw [stem_extend hdot]

lemma extend_ne (hef : e ≠ f) : n.extend e he ≠ n.extend f hf := by
  intro h
  have htext := congrArg (·.text.toList) h
  simp only [toList_extend, List.append_cancel_left_eq, List.cons.injEq, true_and] at htext
  exact hef (String.toList_injective htext)

/-! ### Source files -/

lemma text_of_isSource (h : n.isSource = true) : n.text = n.stem ++ ".py" := by
  unfold isSource extension? at h
  cases hcut : cut? n.text.toList with
  | none => simp [hcut] at h
  | some parts =>
    obtain ⟨s, e⟩ := parts
    have he : e = ['p', 'y'] := by
      rw [hcut] at h
      simpa [← String.toList_inj] using h
    rw [← String.toList_inj, (cut?_eq_some hcut).2, stem, hcut, he]
    simp

end FileName

namespace Path

open ModulePath

/-! ### Texts of paths -/

/-- A name in the directory to which pieces lead. -/
def within (dir : List String) (name : String) : String := "/".intercalate (dir ++ [name])

/-- No piece of a path has a slash in it. -/
def ArePieces (dir : List String) : Prop := ∀ piece ∈ dir, '/' ∉ piece.toList

variable {dir : List String} {text ext name : String} {n : FileName} {here : Location}

lemma toList_within :
    (within dir name).toList = dir.flatMap (fun piece => piece.toList ++ ['/']) ++ name.toList := by
  induction dir with
  | nil => simp [within]
  | cons piece dir ih =>
    obtain ⟨q, qs, hq⟩ := List.exists_cons_of_ne_nil (List.append_ne_nil_of_right_ne_nil dir
      (List.cons_ne_nil name []))
    unfold within at ih ⊢
    rw [List.cons_append, hq, String.intercalate_cons_cons, ← hq, String.toList_append,
      String.toList_append, ih, List.flatMap_cons]
    simp

lemma within_append (ending : String) :
    within dir name ++ ending = within dir (name ++ ending) := by
  apply String.toList_injective
  simp only [String.toList_append, toList_within, List.append_assoc]

lemma pieces_within (hdir : ArePieces dir) (hname : '/' ∉ name.toList) :
    pieces (within dir name) = dir ++ [name] := by
  unfold pieces
  rw [toList_within]
  induction dir with
  | nil => simp [split_self hname]
  | cons piece dir ih =>
    rw [List.flatMap_cons, List.append_assoc, List.append_assoc, List.singleton_append,
      split_append (hdir piece (List.mem_cons_self ..)), List.map_cons,
      ih fun p hp => hdir p (List.mem_cons_of_mem _ hp), String.ofList_toList, List.cons_append]

lemma arePieces_pieces : ArePieces (pieces text) := by
  intro piece hpiece
  obtain ⟨cs, hcs, rfl⟩ := List.mem_map.mp hpiece
  rw [String.toList_ofList]
  exact not_mem_of_mem_split hcs

lemma arePieces_namedPieces : ArePieces (namedPieces text) := by
  intro piece hpiece
  have hmem := (List.dropWhile_sublist _).mem (List.mem_reverse.mp hpiece)
  exact arePieces_pieces piece (List.mem_reverse.mp hmem)

lemma arePieces_dropLast : ArePieces (namedPieces text).dropLast := fun piece hpiece =>
  arePieces_namedPieces piece (List.dropLast_subset _ hpiece)

/-! ### The name at the end of a path -/

def nameStep (n : FileName) : Step := if '\x00' ∈ n.text.toList then .broken else .down n

lemma stepOf_text (n : FileName) : stepOf n.text = some (nameStep n) := by
  obtain ⟨hempty, hdot, hdots, -⟩ := FileName.isFileName_iff.mp n.isValid
  unfold stepOf nameStep
  rw [if_neg hempty, if_neg hdot, if_neg hdots]
  by_cases hnul : '\x00' ∈ n.text.toList
  · simp [hnul]
  · simp [hnul, FileName.ofText?, n.isValid]

lemma ofText_within (hdir : ArePieces dir) :
    ofText (within dir n.text) = ⟨dir.head? = some "", dir.filterMap stepOf ++ [nameStep n]⟩ := by
  -- what stands behind the last slash is the name, which is not empty
  have hlast : (within dir n.text).toList.getLast? ≠ some '/' := by
    rw [toList_within, List.getLast?_append_of_ne_nil _ n.toList_ne_nil]
    exact fun h => n.slash_not_mem (List.mem_of_getLast? h)
  have habsolute : (within dir n.text).toList.head? = some '/' ↔ dir.head? = some "" := by
    rw [toList_within]
    cases dir with
    | nil =>
      simp only [List.flatMap_nil, List.nil_append, List.head?_nil, reduceCtorEq, iff_false]
      exact fun h => n.slash_not_mem (List.mem_of_head? h)
    | cons piece dir =>
      have hpiece := hdir piece (List.mem_cons_self ..)
      rw [List.head?_cons, Option.some.injEq, ← String.toList_eq_nil_iff]
      cases htext : piece.toList with
      | nil => simp [htext]
      | cons c cs =>
        rw [htext, List.mem_cons, not_or] at hpiece
        simp [htext, Ne.symm hpiece.1]
  unfold ofText
  rw [pieces_within hdir n.slash_not_mem, if_neg hlast, List.filterMap_append,
    List.filterMap_cons_some (stepOf_text n), List.filterMap_nil]
  simp only [habsolute, List.append_nil]

lemma namedPieces_within (hdir : ArePieces dir) :
    namedPieces (within dir n.text) = dir ++ [n.text] := by
  obtain ⟨hempty, hdot, -, -⟩ := FileName.isFileName_iff.mp n.isValid
  unfold namedPieces
  rw [pieces_within hdir n.slash_not_mem, List.reverse_append, List.reverse_singleton,
    List.singleton_append, List.dropWhile_cons_of_neg (by simp [hempty, hdot])]
  simp

lemma fileName?_within (hdir : ArePieces dir) : fileName? (within dir n.text) = some n := by
  unfold fileName?
  rw [namedPieces_within hdir, List.getLast?_concat]
  simp [FileName.ofText?, n.isValid]

/-- Another extension is put in place at the end of the path. -/
lemma withExtension_eq (h : fileName? text = some n) (he : FileName.IsEnding ext) :
    withExtension text ext = within (namedPieces text).dropLast (n.extend ext he).text := by
  unfold withExtension
  rw [h]
  rfl

lemma ofText?_of_stepOf {piece : String} (h : stepOf piece = some (.down n)) :
    FileName.ofText? piece = some n := by
  unfold stepOf at h
  split_ifs at h
  all_goals simp_all

/-- Only an empty piece makes no step. -/
lemma eq_empty_of_stepOf {piece : String} (hpiece : '/' ∉ piece.toList)
    (h : stepOf piece = none) : piece = "" := by
  unfold stepOf at h
  split_ifs at h with hempty hdot hdots
  · exact hempty
  · have hvalid := FileName.isFileName_iff.mpr ⟨hempty, hdot, hdots, hpiece⟩
    simp [FileName.ofText?, hvalid] at h

/-- The last piece that makes a step makes the last one. -/
lemma bind_ofText?_of_filterMap {ps : List String} {steps : List Step} (hps : ArePieces ps)
    (h : ps.filterMap stepOf = steps ++ [.down n]) :
    (ps.reverse.dropWhile fun piece => piece = "" || piece = ".").head?.bind FileName.ofText? =
      some n := by
  -- read from its end, the list loses what makes no step up to the last name
  induction ps using List.reverseRecOn with
  | nil => simp at h
  | append_singleton ps piece ih =>
    rw [List.reverse_append, List.reverse_singleton, List.singleton_append]
    rw [List.filterMap_append] at h
    cases hstep : stepOf piece with
    | none =>
      have hempty := eq_empty_of_stepOf (hps piece (by simp)) hstep
      rw [List.dropWhile_cons_of_pos (by simp [hempty])]
      refine ih (fun p hp => hps p (List.mem_append_left _ hp)) ?_
      simpa [hstep] using h
    | some step =>
      rw [List.filterMap_cons_some hstep, List.filterMap_nil] at h
      obtain rfl := List.singleton_inj.mp (List.append_inj' h rfl).2
      have hpiece := ofText?_of_stepOf hstep
      have hname : piece ≠ "" ∧ piece ≠ "." := by
        constructor <;> rintro rfl <;> simp [stepOf] at hstep
      rw [List.dropWhile_cons_of_neg (by simp [hname])]
      exact hpiece

lemma fileName?_of_last_down {steps : List Step} (h : (ofText text).steps = steps ++ [.down n]) :
    fileName? text = some n := by
  have hending : text.toList.getLast? ≠ some '/' := by
    intro hslash
    unfold ofText at h
    rw [if_pos hslash] at h
    cases (List.singleton_inj.mp (List.append_inj' h rfl).2)
  unfold ofText at h
  rw [if_neg hending] at h
  have hpiece := bind_ofText?_of_filterMap arePieces_pieces (by simpa using h)
  unfold fileName? namedPieces
  rwa [List.getLast?_reverse]

/-- An extension that was put in place can be put aside again. -/
lemma withExtension_withExtension {e f : String} (he : FileName.IsEnding e)
    (hdot : '.' ∉ e.toList) (hf : FileName.IsEnding f) :
    withExtension (withExtension text e) f = withExtension text f := by
  cases hname : fileName? text with
  | none =>
    have hsame : withExtension text e = text := by rw [withExtension, hname]
    rw [hsame]
  | some n =>
    have hdir : ArePieces (namedPieces text).dropLast := arePieces_dropLast
    rw [withExtension_eq hname he, withExtension_eq (fileName?_within hdir) hf,
      withExtension_eq hname hf, namedPieces_within hdir, List.dropLast_concat,
      FileName.extend_extend hdot]

/-! ### Places beside each other -/

variable {t : FileTree} {l : Location} {isNew : Bool} {e f : String}

def directory (here : Location) (text : String) : Location :=
  ((namedPieces text).dropLast.filterMap stepOf).foldl Location.after
    (if (namedPieces text).dropLast.head? = some "" then .root else here)

lemma place_within (hdir : ArePieces dir) (hn : '\x00' ∉ n.text.toList) :
    (ofText (within dir n.text)).place here =
      ((dir.filterMap stepOf).foldl Location.after
        (if dir.head? = some "" then .root else here)).child n := by
  rw [place_eq, ofText_within hdir, nameStep, if_neg hn]
  simp only [List.foldl_append, List.foldl_cons, List.foldl_nil, Location.after, start,
    decide_eq_true_eq]

/-- A path that leads somewhere has no broken names. -/
lemma stem_of_resolve (hname : fileName? text = some n) (he : FileName.IsEnding e)
    (h : t.resolve here (ofText (withExtension text e)) isNew = .ok l) :
    '\x00' ∉ n.stem.toList := by
  intro hnul
  have hmem : '\x00' ∈ (n.extend e he).text.toList := by
    rw [FileName.toList_extend]
    exact List.mem_append_left _ hnul
  have hbroken := (FileTree.resolve_eq_ok_iff.mp h).1
  rw [withExtension_eq hname he, ofText_within arePieces_dropLast, nameStep, if_pos hmem] at hbroken
  simp at hbroken

lemma place_withExtension (hname : fileName? text = some n) (hstem : '\x00' ∉ n.stem.toList)
    (he : FileName.IsEnding e) (hnul : '\x00' ∉ e.toList) :
    (ofText (withExtension text e)).place here = (directory here text).child (n.extend e he) := by
  rw [withExtension_eq hname he, directory, place_within arePieces_dropLast]
  rw [FileName.toList_extend, List.mem_append, List.mem_cons, not_or, not_or]
  exact ⟨hstem, by decide, hnul⟩

lemma fileName?_of_writable (ht : t.LinkFree)
    (h : t.Writable here (ofText (withExtension text e))) : ∃ n, fileName? text = some n := by
  cases hname : fileName? text with
  | some n => exact ⟨n, rfl⟩
  | none =>
    have hsame : withExtension text e = text := by rw [withExtension, hname]
    obtain ⟨l, hl, hdir⟩ := h
    obtain ⟨steps, n, hsteps⟩ := FileTree.resolve_last_down ht hdir hl
    rw [hsame] at hsteps
    rw [fileName?_of_last_down hsteps] at hname
    cases hname

end Path

/-! ### Artifacts -/

open ImportAtlas.Path FileName

lemma Format.isEnding (f : Format) : IsEnding f.extension := by
  cases f <;> exact ⟨by decide, by decide⟩

/-- The ending of the document beside a drawing. -/
def documentEnding : String := Format.dot.extension ++ ".pdf"

lemma isEnding_document : IsEnding documentEnding := ⟨by decide, by decide⟩

lemma Format.extension_ne_document (f : Format) : f.extension ≠ documentEnding := by
  cases f <;> decide

lemma documentPath_withExtension {text : String} {n : FileName} (h : fileName? text = some n) :
    documentPath (withExtension text Format.dot.extension) = withExtension text documentEnding := by
  rw [documentPath, withExtension_eq h Format.dot.isEnding, withExtension_eq h isEnding_document,
    within_append]
  simp only [extend, documentEnding, String.append_assoc]

/-- The output, the source of a drawing and its document stand side by side. -/
lemma exists_places {t : FileTree} {here : Location} {text : String} (ht : t.LinkFree) (f : Format)
    (h : t.Writable here (.ofText (withExtension text f.extension))) :
    ∃ (d : Location) (n : FileName),
      (ofText (withExtension text f.extension)).place here = d.child (n.extend _ f.isEnding) ∧
      (ofText (withExtension text Format.dot.extension)).place here =
        d.child (n.extend _ Format.dot.isEnding) ∧
      (ofText (documentPath (withExtension text Format.dot.extension))).place here =
        d.child (n.extend _ isEnding_document) := by
  obtain ⟨n, hname⟩ := fileName?_of_writable ht h
  obtain ⟨l, hl, -⟩ := h
  have hstem := stem_of_resolve hname f.isEnding hl
  refine ⟨directory here text, n, place_withExtension hname hstem _ ?_,
    place_withExtension hname hstem _ (by decide), ?_⟩
  · cases f <;> decide
  · rw [documentPath_withExtension hname]
    exact place_withExtension hname hstem _ (by decide)

end ImportAtlas
