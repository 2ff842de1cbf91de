import ImportAtlas.Proofs.LinkFree

/-!
Texts written to files of a tree without links.

Writing a text changes the tree at the place that the path spells and nowhere else, and the path
leads to the text afterwards. So a text that is written once more changes nothing.
-/

namespace ImportAtlas

namespace FileTree

variable {t t' : FileTree} {here l : Location} {p q : Path} {s u : String}

/-! ### Texts in files -/

def textFile (s : String) : Entry := .file s.toUTF8.data

lemma fromUTF8?_eq_some_iff {c : Array UInt8} :
    String.fromUTF8? ⟨c⟩ = some s ↔ Entry.file c = textFile s := by
  unfold String.fromUTF8? textFile
  constructor
  · intro h
    split at h
    · cases h
      rfl
    · cases h
  · intro h
    obtain rfl := Entry.file.inj h
    exact dif_pos s.isValidUTF8

lemma readText_eq_ok_iff :
    t.readText here p = .ok s ↔
      ∃ l, t.resolve here p = .ok l ∧ t.entry? l = some (textFile s) := by
  rw [readText, bind_eq_ok_iff]
  refine exists_congr fun l => and_congr_right fun _ => ?_
  cases hentry : t.entry? l with
  | none => simp [throw, throwThe, MonadExceptOf.throw]
  | some e =>
    cases e with
    | directory => simp [throw, throwThe, MonadExceptOf.throw, textFile]
    | link target => simp [throw, throwThe, MonadExceptOf.throw, textFile]
    | file c =>
      rw [Option.some.injEq, ← fromUTF8?_eq_some_iff]
      cases hutf : String.fromUTF8? ⟨c⟩ with
      | none => simp [hutf, throw, throwThe, MonadExceptOf.throw]
      | some u => simp [hutf, pure, Except.pure]

/-! ### What writing changes -/

def Writable (t : FileTree) (here : Location) (p : Path) : Prop :=
  ∃ l, t.resolve here p true = .ok l ∧ t.entry? l ≠ some .directory

/-- The trees differ at one place, where no directory was and a text is. -/
structure Puts (t t' : FileTree) (l : Location) (s : String) : Prop where
  entry : t'.entry? l = some (textFile s)
  others : ∀ x, x ≠ l → t'.entry? x = t.entry? x
  free : t.entry? l ≠ some .directory

lemma eq_of_entry? (h : ∀ l, t.entry? l = t'.entry? l) : t = t' := by
  have hroot : ∀ u : FileTree, u.table.find? .root = none := by
    intro u
    by_contra hne
    obtain ⟨e, he⟩ := Option.ne_none_iff_exists'.mp hne
    exact (u.isRooted _ (OrderedMap.mem_keys_iff.mpr ⟨e, he⟩)).1 rfl
  have htable : t.table = t'.table := by
    refine OrderedMap.ext fun l => ?_
    by_cases hl : l = .root
    · rw [hl, hroot, hroot]
    · rw [← entry?_eq_find? hl, ← entry?_eq_find? hl, h]
  cases t
  cases t'
  simp_all

lemma entry?_put {e : Entry} (hfree : t.isFree l = true) {x : Location} :
    entry? (t.put l e) x = if x = l then some e else t.entry? x := by
  have hl : l ≠ .root := by
    simp only [isFree, Bool.and_eq_true, decide_eq_true_eq] at hfree
    exact hfree.1.1
  unfold put
  rw [dif_pos hfree]
  unfold entry? lookup
  by_cases hx : x = .root
  · subst hx
    rw [if_pos rfl, if_pos rfl, if_neg hl.symm]
  · rw [if_neg hx, if_neg hx]
    exact OrderedMap.find?_alter

lemma isFree_of_resolve (ht : t.LinkFree) (h : t.resolve here p true = .ok l)
    (hl : t.entry? l ≠ some .directory) : t.isFree l = true := by
  have hroot : l ≠ .root := by
    rintro rfl
    exact hl entry?_root
  have hparent : t.entry? l.parent = some .directory := by
    rcases resolve_entry ht h with ⟨e, he⟩ | ⟨-, -, hparent⟩
    · exact entry?_parent he
    · exact hparent
  simp [isFree, hroot, hparent, hl]

lemma writeText_eq_ok_iff :
    t.writeText here p s = .ok t' ↔
      ∃ l, t.resolve here p true = .ok l ∧ t.entry? l ≠ some .directory ∧
        t' = t.put l (textFile s) := by
  rw [writeText, bind_eq_ok_iff]
  refine exists_congr fun l => and_congr_right fun _ => ?_
  split
  · rename_i hdir
    simp [hdir, throw, throwThe, MonadExceptOf.throw]
  · rename_i hdir
    simp [hdir, pure, Except.pure, textFile, eq_comm]

lemma writable_iff : t.Writable here p ↔ ∃ t', t.writeText here p s = .ok t' := by
  simp only [Writable, writeText_eq_ok_iff]
  constructor
  · rintro ⟨l, hl, hdir⟩
    exact ⟨_, l, hl, hdir, rfl⟩
  · rintro ⟨_, l, hl, hdir, -⟩
    exact ⟨l, hl, hdir⟩

/-- A name in a directory can be written to, unless it is that of a directory. -/
lemma writable_name {n : FileName} (ht : t.LinkFree) (hhere : t.entry? here = some .directory)
    (hn : t.entry? (here.child n) ≠ some .directory) : t.Writable here ⟨false, [.down n]⟩ := by
  refine ⟨here.child n, resolve_eq_ok_iff.mpr ⟨by simp, by simp, ?_⟩, hn⟩
  show t.follow true 40 here [.down n] = _
  rw [follow]
  simp only [hhere, ne_eq, not_true, if_false]
  cases hentry : t.entry? (here.child n) with
  | none => simp
  | some e =>
    cases e with
    | directory => exact absurd hentry hn
    | link target => exact absurd hentry (ht _ target)
    | file content => simp [follow]

lemma puts_of_writeText (ht : t.LinkFree) (h : t.writeText here p s = .ok t') :
    t.Puts t' (p.place here) s := by
  obtain ⟨l, hl, hdir, rfl⟩ := writeText_eq_ok_iff.mp h
  have hfree := isFree_of_resolve ht hl hdir
  obtain rfl := resolve_eq_place ht hl
  refine ⟨?_, fun x hx => ?_, hdir⟩
  · rw [entry?_put hfree, if_pos rfl]
  · rw [entry?_put hfree, if_neg hx]

namespace Puts

variable {x : Location} (h : t.Puts t' l s)

include h

lemma linkFree (ht : t.LinkFree) : t'.LinkFree := by
  intro x target
  by_cases hx : x = l
  · subst hx
    rw [h.entry]
    exact fun heq => Entry.noConfusion (Option.some.inj heq)
  · rw [h.others x hx]
    exact ht x target

lemma keeps_directory (hx : t.entry? x = some .directory) : t'.entry? x = some .directory := by
  rwa [h.others x]
  rintro rfl
  exact h.free hx

/-- A path leads where it led before, if something stands there or may be new there. -/
lemma resolve {isNew isNew' : Bool} (ht : t.LinkFree) (hnew : isNew' = true → isNew = true)
    (hentry : isNew' = true ∨ ∃ e, t'.entry? x = some e)
    (hx : t.resolve here q isNew = .ok x) : t'.resolve here q isNew' = .ok x :=
  resolve_keeps ht (fun _ => h.keeps_directory) (h.linkFree ht x) hnew hentry hx

end Puts

/-! ### What stands in a file -/

/-- The path leads to a file with the text, and another text can be written there. -/
def Holds (t : FileTree) (here : Location) (p : Path) (s : String) : Prop :=
  ∃ l, t.resolve here p true = .ok l ∧ t.resolve here p = .ok l ∧
    t.entry? l = some (textFile s)

lemma Holds.readText (h : t.Holds here p s) : t.readText here p = .ok s := by
  obtain ⟨l, -, hl, hentry⟩ := h
  exact readText_eq_ok_iff.mpr ⟨l, hl, hentry⟩

lemma holds_of_writeText (ht : t.LinkFree) (h : t.writeText here p s = .ok t') :
    t'.Holds here p s := by
  obtain ⟨l, hl, -⟩ := writeText_eq_ok_iff.mp h
  have hputs := puts_of_writeText ht h
  rw [← resolve_eq_place ht hl] at hputs
  have hentry : ∃ e, t'.entry? l = some e := ⟨_, hputs.entry⟩
  exact ⟨l, hputs.resolve ht id (.inl rfl) hl, hputs.resolve ht nofun (.inr hentry) hl,
    hputs.entry⟩

/-- What is written elsewhere does not count. -/
lemma Holds.of_puts (ht : t.LinkFree) (h : t.Holds here q u) (hputs : t.Puts t' l s)
    (hne : q.place here ≠ l) : t'.Holds here q u := by
  obtain ⟨x, hnew, hx, hentry⟩ := h
  obtain rfl := resolve_eq_place ht hx
  rw [← hputs.others _ hne] at hentry
  exact ⟨_, hputs.resolve ht id (.inl rfl) hnew, hputs.resolve ht id (.inr ⟨_, hentry⟩) hx, hentry⟩

/-- What stands in a file is written there again without a change. -/
lemma Holds.writeText_eq_self (ht : t.LinkFree) (h : t.Holds here p s) :
    t.writeText here p s = .ok t := by
  obtain ⟨l, hl, -, hentry⟩ := h
  have hdir : t.entry? l ≠ some .directory := by
    rw [hentry]
    exact fun heq => Entry.noConfusion (Option.some.inj heq)
  refine writeText_eq_ok_iff.mpr ⟨l, hl, hdir, eq_of_entry? fun x => ?_⟩
  rw [entry?_put (isFree_of_resolve ht hl hdir)]
  split
  · rename_i hx
    rw [hx, hentry]
  · rfl

end FileTree

end ImportAtlas
