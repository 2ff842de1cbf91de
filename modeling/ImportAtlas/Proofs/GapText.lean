import ImportAtlas.Proofs.ReaderYields
import ImportAtlas.Proofs.WordText

/-!
Gaps as they are written: nothing, one space, or a line end and the indentation of the next line.

What `next` makes of a line end depends on the indentation behind it and on the blocks that are
open; a gap within a line is passed wherever it stands.
-/

namespace ImportAtlas.Source

open Text Reader

/-- The character begins a lexeme: it is no blank and begins no comment or continuation. -/
def isSolid (c : Char) : Bool := !isSpace c && c ≠ '#' && c ≠ '\\'

def Solid (s : List Char) : Prop := ∃ c ∈ s.head?, isSolid c = true

variable {c : Char} {s w : List Char} {r : Run} {e : Expect} {bs : List ℕ} {n : ℕ} {m : Mark}
variable {α : Type} {P : α → Prop} {b : Place}

lemma solid_cons (h : isSolid c = true) : Solid (c :: s) := ⟨c, rfl, h⟩

lemma isSolid_of_isNameStart (hascii : c.toNat < 128) (h : isNameStart c = true) :
    isSolid c = true := by
  by_contra hsolid
  simp only [isSolid, isSpace, Bool.and_eq_true, Bool.not_eq_true', Bool.or_eq_false_iff,
    decide_eq_false_iff_not, not_and_or, not_not, ne_eq, decide_not] at hsolid
  rcases hsolid with (((((((((rfl | rfl) | rfl) | rfl) | rfl) | rfl) | rfl) | rfl) | rfl) | rfl)
  all_goals first | exact absurd hascii (by decide) | exact absurd h (by decide)

lemma solid_word (h : isWord w = true) : Solid (w ++ s) := by
  cases w with
  | nil => cases h
  | cons c w =>
    simp only [isWord, Bool.and_eq_true, decide_eq_true_eq] at h
    exact solid_cons (isSolid_of_isNameStart h.1.1 h.1.2)

/-! ### The indentation of a gap -/

lemma measure_solid {comments : Bool} (h : Solid s) :
    Run.measure comments false r s = some { r with rest := s } := by
  obtain ⟨c, hc, hsolid⟩ := h
  obtain ⟨s, rfl⟩ : ∃ t, s = c :: t := by
    cases s with
    | nil => cases hc
    | cons d t => exact ⟨t, by rw [Option.mem_some.mp hc]⟩
  simp only [isSolid, isSpace, Bool.and_eq_true, Bool.not_eq_true', Bool.or_eq_false_iff,
    decide_eq_false_iff_not, decide_eq_true_eq] at hsolid
  have hblank : r.blank c = none := by simp_all [Run.blank]
  unfold Run.measure
  split <;> simp_all

lemma measure_blank {comments : Bool} {r' : Run} (hc : c ≠ '\\') (h : r.blank c = some r') :
    Run.measure comments false r (c :: s) = Run.measure comments false r' s := by
  rw [Run.measure.eq_def]
  split <;> simp_all

lemma measure_spaces {comments : Bool} :
    Run.measure comments false r (List.replicate n ' ' ++ s) =
      Run.measure comments false { r with width := r.width + n } s := by
  induction n generalizing r with
  | zero => rfl
  | succ n ih =>
    rw [List.replicate_succ, List.cons_append]
    rw [measure_blank (by decide) rfl, ih]
    simp only [Nat.add_assoc, Nat.add_comm 1 n]

/-- A line end, the indentation of the next line and the text of that line. -/
def lineText (n : ℕ) (s : List Char) : List Char := '\n' :: (List.replicate n ' ' ++ s)

/-- A lexeme begins the line, or the text ends with the line end. -/
def Begins (n : ℕ) (s : List Char) : Prop := Solid s ∨ (s = [] ∧ n = 0)

lemma measure_lineText {comments : Bool} (h : Begins n s) :
    Run.measure comments false {} (lineText n s) = some ⟨true, n, none, s⟩ := by
  rw [lineText, measure_blank (by decide) rfl, measure_spaces]
  rcases h with h | ⟨rfl, rfl⟩
  · rw [measure_solid h, Nat.zero_add]
  · rfl

/-! ### Gaps without a mark -/

def Blank (w : List Char) : Prop := ∀ c ∈ w, c = ' ' ∨ c = '\n'

lemma blank_nil : Blank [] := nofun

lemma blank_space : Blank [' '] := by simp [Blank]

lemma blank_lineText : Blank (lineText n []) := by
  intro c hc
  simp only [lineText, List.append_nil, List.mem_cons, List.mem_replicate] at hc
  rcases hc with rfl | ⟨-, rfl⟩
  · exact .inr rfl
  · exact .inl rfl

lemma takeWhile_isSpace (hw : Blank w) (hs : Solid s ∨ s = []) :
    (w ++ s).takeWhile isSpace = w := by
  have hwspace : ∀ c ∈ w, isSpace c = true := by
    intro c hc
    rcases hw c hc with rfl | rfl <;> decide
  rw [List.takeWhile_append_of_pos hwspace]
  rcases hs with ⟨c, hc, hsolid⟩ | rfl
  · cases s with
    | nil => cases hc
    | cons d s =>
      obtain rfl := Option.some.inj hc
      have hspace : isSpace d = false := by simp_all [isSolid]
      rw [List.takeWhile_cons_of_neg (by simp [hspace]), List.append_nil]
  · exact List.append_nil w

lemma dropWhile_isSpace (hw : Blank w) (hs : Solid s ∨ s = []) :
    (w ++ s).dropWhile isSpace = s := by
  have h := List.takeWhile_append_dropWhile (p := isSpace) (l := w ++ s)
  rw [takeWhile_isSpace hw hs] at h
  exact List.append_cancel_left h

lemma passLength_eq_zero (hs : Solid s ∨ s = []) : passLength s = 0 := by
  rcases hs with ⟨c, hc, hsolid⟩ | rfl
  · cases s with
    | nil => rfl
    | cons d s =>
      obtain rfl := Option.some.inj hc
      unfold passLength
      split <;> simp_all [isSolid]
  · rfl

/-- A gap that ends no line, opens no block and closes none is passed. -/
lemma yields_next_lexeme (hw : Blank w) (hs : Solid s ∨ s = [])
    (hmark : (Run.measure e.measuresComments false {} (w ++ s)).bind (·.mark? e bs false) = none) :
    (next e).Yields ⟨w ++ s, bs⟩ (· = .lexeme) ⟨s, bs⟩ := by
  rintro ⟨c, blocks, inFormat⟩ ⟨hrest, hblocks, hformat⟩
  dsimp only at hrest hblocks hformat
  have hdrop : (c.dropWhile isSpace).rest = s := by
    rw [Cursor.rest_dropWhile, hrest, dropWhile_isSpace hw hs]
  have hvisible : (c.rest.takeWhile isSpace).any isInvisible = false := by
    rw [hrest, takeWhile_isSpace hw hs, List.any_eq_false]
    intro d hd
    rcases hw d hd with rfl | rfl <;> decide
  have hgap : gap e blocks inFormat c = .lexeme (c.dropWhile isSpace) := by
    rw [gap, hrest, hblocks, hformat, hmark]
    simp only [hdrop, passLength_eq_zero hs, if_true, afterSpace, hvisible, Bool.false_and,
      Bool.false_eq_true, if_false]
  refine ⟨.lexeme, ⟨c.dropWhile isSpace, blocks, inFormat⟩, ?_, rfl, ⟨hdrop, hblocks, hformat⟩⟩
  rw [next, hgap]

/-- A lexeme at the cursor has no gap in front of it. -/
lemma yields_next_solid (hs : Solid s) : (next e).Yields ⟨s, bs⟩ (· = .lexeme) ⟨s, bs⟩ :=
  yields_next_lexeme blank_nil (.inl hs) (by rw [List.nil_append, measure_solid hs]; rfl)

lemma yields_next_space (hs : Solid s) : (next e).Yields ⟨' ' :: s, bs⟩ (· = .lexeme) ⟨s, bs⟩ :=
  yields_next_lexeme blank_space (.inl hs) (by
    rw [List.singleton_append, measure_blank (by decide) rfl, measure_solid hs]
    rfl)

lemma yields_keyword_space {text : String} (h : isWord text.toList = true) :
    (keyword text).Yields ⟨text.toList ++ ' ' :: s, bs⟩
      (fun x => ∃ p, x = .token ⟨.keyword, p, text⟩) ⟨' ' :: s, bs⟩ :=
  yields_keyword (wordAt_text h (stops_cons (by decide)))

/-! ### Line ends -/

lemma gap_of_mark {f : Bool} {c : Cursor}
    (h : (Run.measure e.measuresComments false {} c.rest).bind (·.mark? e bs f) = some m) :
    gap e bs f c = .mark m c := by
  rw [gap, h]

variable (hs : Begins n s)

include hs

lemma mark_lineText (hmark : (⟨true, n, none, s⟩ : Run).mark? e bs false = some m) {st : State}
    (hst : st.IsAt ⟨lineText n s, bs⟩) :
    gap e st.blocks st.inFormat st.cursor = .mark m st.cursor := by
  refine gap_of_mark ?_
  rw [hst.rest, hst.blocks, hst.inFormat, measure_lineText hs]
  exact hmark

/-- Where a statement may end, a line end ends it. -/
lemma yields_next_newline (hnewline : e.newline = true) (hindent : e.indent = false)
    (hdedent : e.dedent = false) :
    (next e).Yields ⟨lineText n s, bs⟩ (· = .mark .newline) ⟨lineText n s, bs⟩ := by
  intro st hst
  have hmark : (⟨true, n, none, s⟩ : Run).mark? e bs false = some .newline := by
    simp [Run.mark?, hnewline, hindent, hdedent]
  refine ⟨_, st, ?_, rfl, hst⟩
  rw [next, mark_lineText hs hmark hst]

/-- Where a block may begin, a deeper line begins it. -/
lemma yields_next_indent (hindent : e.indent = true) (h : bs.headD 0 < n) :
    (next e).Yields ⟨lineText n s, bs⟩ (· = .mark (.indent n)) ⟨lineText n s, n :: bs⟩ := by
  intro st hst
  have hmark : (⟨true, n, none, s⟩ : Run).mark? e bs false = some (.indent n) := by
    rw [List.headD_eq_head?_getD] at h
    simp [Run.mark?, hindent, h]
  refine ⟨_, { st with blocks := n :: st.blocks }, ?_, rfl, ⟨hst.rest, ?_, hst.inFormat⟩⟩
  · rw [next, mark_lineText hs hmark hst]
  · rw [hst.blocks]

/-- Where a block may end, a line that is less deep ends it. -/
lemma yields_next_dedent (hindent : e.indent = false) (hdedent : e.dedent = true)
    (h : n < bs.headD 0) :
    (next e).Yields ⟨lineText n s, bs⟩ (· = .mark .dedent) ⟨lineText n s, bs.drop 1⟩ := by
  intro st hst
  have hmark : (⟨true, n, none, s⟩ : Run).mark? e bs false = some .dedent := by
    rw [List.headD_eq_head?_getD] at h
    simp [Run.mark?, hindent, hdedent, h]
  refine ⟨_, { st with blocks := st.blocks.drop 1 }, ?_, rfl, ⟨hst.rest, ?_, hst.inFormat⟩⟩
  · rw [next, mark_lineText hs hmark hst]
    simp [hdedent]
  · rw [hst.blocks]

/-- A line of the same depth goes on with the block. -/
lemma yields_next_line (hnewline : e.newline = false) (hindent : e.indent = false)
    (h : bs.headD 0 ≤ n) :
    (next e).Yields ⟨lineText n s, bs⟩ (· = .lexeme) ⟨s, bs⟩ := by
  have htext : lineText n s = lineText n [] ++ s := by simp [lineText]
  rw [htext]
  refine yields_next_lexeme blank_lineText (hs.imp_right And.left) ?_
  rw [← htext, measure_lineText hs]
  rw [List.headD_eq_head?_getD] at h
  simp [Run.mark?, hnewline, hindent, h]

end ImportAtlas.Source
