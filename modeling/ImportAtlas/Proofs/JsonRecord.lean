import ImportAtlas.Json.Record
import ImportAtlas.Proofs.JsonText

/-!
Reading what is written: lists and records.

A list is read item by item, each from the text that was written for it, and a record field by
field. No line feed is written, neither between the lexemes nor in a string.
-/

namespace ImportAtlas

namespace Json

namespace Reader

variable {α : Type} {s : List Char} {c : Char}

/-! ### Lists -/

/-- The text may stand in a list: it begins neither with a space nor with the end of the list. -/
def IsItem (w : List Char) : Prop := ∃ c w', w = c :: w' ∧ isSpace c = false ∧ c ≠ ']'

lemma yields_hasItem_end {isFirst : Bool} : (hasItem isFirst).Yields (']' :: s) false (']' :: s) :=
  (yields_next_cons rfl).bind yields_pure

lemma yields_hasItem_first {w : List Char} (h : IsItem w) :
    (hasItem true).Yields (w ++ s) true (w ++ s) := by
  obtain ⟨c, w, rfl, hspace, hend⟩ := h
  refine (yields_next_cons hspace).bind ?_
  simp only [if_true]
  exact yields_pure

lemma yields_hasItem_comma {w : List Char} (h : IsItem w) :
    (hasItem false).Yields (',' :: w ++ s) true (w ++ s) := by
  obtain ⟨c, w, rfl, hspace, hend⟩ := h
  refine (yields_next_cons rfl).bind (yields_skip.bind ((yields_next_cons hspace).bind ?_))
  simp only
  exact yields_pure

lemma commaSeparated_cons (t : List Char) (ts : List (List Char)) :
    commaSeparated (t :: ts) = t ++ ts.flatMap (',' :: ·) := by
  induction ts generalizing t with
  | nil => simp [commaSeparated, ModulePath.join]
  | cons u us ih =>
    show t ++ ',' :: commaSeparated (u :: us) = _
    rw [ih, List.flatMap_cons, List.cons_append]

section

variable {item : Reader α} {w : α → List Char} {xs : List α} {n : ℕ}

/-- The items behind the first one. -/
lemma yields_items_false (hitem : ∀ x ∈ xs, item.Reads (w x) x ∧ IsItem (w x))
    (hn : xs.length < n) :
    (items item n false).Yields (xs.flatMap (fun x => ',' :: w x) ++ ']' :: s) xs s := by
  induction xs generalizing n with
  | nil =>
    obtain ⟨n, rfl⟩ := Nat.exists_eq_add_one_of_ne_zero (Nat.ne_zero_of_lt hn)
    exact yields_hasItem_end.bind (yields_skip.bind yields_pure)
  | cons x xs ih =>
    obtain ⟨n, rfl⟩ := Nat.exists_eq_add_one_of_ne_zero (Nat.ne_zero_of_lt hn)
    obtain ⟨⟨hread, hbegin⟩, hrest⟩ := List.forall_mem_cons.mp hitem
    have hxs := ih hrest (n := n) (by simpa using hn)
    rw [List.flatMap_cons, List.append_assoc]
    exact (yields_hasItem_comma hbegin).bind ((hread _).bind (hxs.bind yields_pure))

lemma reads_list (hitem : ∀ x ∈ xs, item.Reads (w x) x ∧ IsItem (w x)) :
    (list item).Reads ('[' :: commaSeparated (xs.map w) ++ [']']) xs := by
  intro s
  rw [List.append_assoc, List.cons_append]
  refine (yields_next_cons rfl).bind (yields_skip.bind (yields_rounds.bind ?_))
  cases xs with
  | nil => exact yields_hasItem_end.bind (yields_skip.bind yields_pure)
  | cons x xs =>
    obtain ⟨⟨hread, hbegin⟩, hrest⟩ := List.forall_mem_cons.mp hitem
    rw [List.map_cons, commaSeparated_cons, List.flatMap_map, List.append_assoc]
    refine (yields_hasItem_first hbegin).bind ((hread _).bind ?_)
    refine (yields_items_false hrest ?_).bind yields_pure
    have hlen := length_le_flatMap xs (f := fun y => ',' :: w y) fun y => by simp
    simp only [List.length_append]
    omega

end

/-! ### Records -/

lemma isItem_quoted (x : String) : IsItem (quoted x) := ⟨'"', _, rfl, rfl, by decide⟩

lemma reads_string (x : String) : string.Reads (quoted x) x := by
  intro s
  show string.Yields ('"' :: (x.toList.flatMap escaped ++ ['"']) ++ s) x s
  rw [List.cons_append, List.append_assoc]
  exact (yields_next_cons rfl).bind (yields_skip.bind (yields_text x))

lemma yields_hasField_first : (hasField true).Yields ('"' :: s) true s := by
  refine (yields_next_cons rfl).bind ?_
  exact yields_skip.bind yields_pure

lemma yields_hasField_comma : (hasField false).Yields (',' :: '"' :: s) true s := by
  refine (yields_next_cons rfl).bind ?_
  exact yields_skip.bind ((yields_next_cons rfl).bind (yields_skip.bind yields_pure))

lemma yields_hasField_end {isFirst : Bool} :
    (hasField isFirst).Yields ('\x7d' :: s) false ('\x7d' :: s) :=
  (yields_next_cons rfl).bind yields_pure

lemma yields_colon : colon.Yields (':' :: s) () s := (yields_next_cons rfl).bind yields_skip

def fieldText (name : String) (value rest : List Char) : List Char :=
  '"' :: (name.toList.flatMap escaped ++ '"' :: ':' :: (value ++ rest))

def listText (xs : List String) : List Char := '[' :: commaSeparated (xs.map quoted) ++ [']']

lemma reads_strings (xs : List String) : (list string).Reads (listText xs) xs :=
  reads_list fun x _ => ⟨reads_string x, isItem_quoted x⟩

lemma written_append (r : ImportRecord) (s : List Char) :
    r.written ++ s = '\x7b' :: fieldText "name" (quoted r.name)
      (',' :: fieldText "imports" (listText r.imports) ('\x7d' :: s)) := by
  have hname : "\x7b\"name\":".toList =
      '\x7b' :: '"' :: ("name".toList.flatMap escaped ++ ['"', ':']) := by
    rw [String.toList_ofList, String.toList_ofList]
    rfl
  have himports : ",\"imports\":[".toList =
      ',' :: '"' :: ("imports".toList.flatMap escaped ++ ['"', ':', '[']) := by
    rw [String.toList_ofList, String.toList_ofList]
    rfl
  have hend : "]\x7d".toList = [']', '\x7d'] := String.toList_ofList
  unfold ImportRecord.written fieldText listText
  simp only [hname, himports, hend]
  -- what the fields are called plays no part here
  generalize "name".toList.flatMap escaped = name
  generalize "imports".toList.flatMap escaped = imports
  simp only [List.append_assoc, List.cons_append, List.nil_append]

/-- A record takes three rounds: one for each field and one for the end. -/
lemma yields_recordFields (n : ℕ) (r : ImportRecord) :
    (recordFields (n + 3) true none none).Yields
      (fieldText "name" (quoted r.name)
        (',' :: fieldText "imports" (listText r.imports) ('\x7d' :: s))) r s := by
  refine yields_hasField_first.bind ((yields_text "name").bind ?_)
  refine yields_colon.bind ((reads_string r.name _).bind ?_)
  refine yields_hasField_comma.bind ((yields_text "imports").bind ?_)
  refine yields_colon.bind ((reads_strings r.imports _).bind ?_)
  refine yields_hasField_end.bind ?_
  exact yields_skip.bind yields_pure

lemma reads_record (r : ImportRecord) : record.Reads r.written r := by
  intro s
  rw [written_append]
  have hrounds : ∀ t, rounds.Yields ('"' :: t) (2 * t.length + 1 + 3) ('"' :: t) :=
    fun _ => yields_rounds
  refine (yields_next_cons rfl).bind (yields_skip.bind ((hrounds _).bind ?_))
  exact yields_recordFields _ r

lemma isItem_written (r : ImportRecord) : IsItem r.written := by
  have h := written_append r []
  rw [List.append_nil] at h
  exact ⟨'\x7b', _, h, rfl, by decide⟩

lemma yields_document (records : List ImportRecord) {space : List Char}
    (hspace : space.dropWhile isSpace = []) :
    document.Yields ('[' :: commaSeparated (records.map ImportRecord.written) ++ [']'] ++ space)
      records [] := by
  have hlist : (list record).Reads _ records :=
    reads_list fun r _ => ⟨reads_record r, isItem_written r⟩
  refine (hlist space).bind ((yields_next hspace).bind ?_)
  exact yields_pure

end Reader

namespace ImportRecord

lemma readAll_writeAll (records : List ImportRecord) (space : List Char)
    (hspace : space.dropWhile isSpace = []) :
    readAll (writeAll records ++ String.ofList space) = .ok records := by
  obtain ⟨q, hq⟩ := Reader.yields_document records hspace .start
  unfold readAll writeAll Source.Cursor.ofString
  rw [String.toList_append, String.toList_ofList, String.toList_ofList]
  show Except.map (·.1) (Reader.document _) = _
  rw [hq]
  rfl

/-! ### Characters that are not written -/

lemma line_feed_not_mem_escaped (c : Char) : '\n' ∉ escaped c := by
  have hdigits : ∀ n < 0x20, '\n' ≠ (n / 16).digitChar ∧ '\n' ≠ (n % 16).digitChar := by decide
  have hc := Reader.written_escaped c
  generalize escaped c = w at hc ⊢
  cases hc with
  | plain hquote hbackslash h =>
    rw [List.mem_singleton]
    rintro rfl
    exact h (by decide)
  | short d hd h =>
    simp only [List.mem_cons, List.not_mem_nil, or_false]
    rintro (hd | rfl)
    · exact absurd hd (by decide)
    · simp [unescape?] at h
  | numbered h =>
    obtain ⟨h1, h2⟩ := hdigits _ h
    simp [Reader.codeDigits, h1, h2]

lemma slash_not_mem_escaped {c : Char} (hc : c ≠ '/') : '/' ∉ escaped c := by
  have hdigits : ∀ n < 0x20, '/' ≠ (n / 16).digitChar ∧ '/' ≠ (n % 16).digitChar := by decide
  have hwritten := Reader.written_escaped c
  generalize escaped c = w at hwritten ⊢
  cases hwritten with
  | plain hquote hbackslash h => simpa using hc.symm
  | short d hd h =>
    simp only [List.mem_cons, List.not_mem_nil, or_false]
    rintro (hd | rfl)
    · exact absurd hd (by decide)
    · exact hc (by simpa [unescape?] using h.symm)
  | numbered h =>
    obtain ⟨h1, h2⟩ := hdigits _ h
    simp [Reader.codeDigits, h1, h2]

def marks : List Char := "[\x7b\"name\":,\"imports\":]\x7d".toList

lemma marks_eq : marks = ['[', '\x7b', '"', 'n', 'a', 'm', 'e', '"', ':', ',', '"', 'i', 'm', 'p',
    'o', 'r', 't', 's', '"', ':', ']', '\x7d'] :=
  String.toList_ofList

section

variable {d : Char}

/-- The character is not written for any in the text. -/
def Unwritten (d : Char) (x : String) : Prop := ∀ c ∈ x.toList, d ∉ escaped c

lemma not_mem_quoted {x : String} (hd : d ∉ marks) (h : Unwritten d x) : d ∉ quoted x := by
  have hquote : d ≠ '"' := by
    rintro rfl
    exact hd (by rw [marks_eq]; decide)
  simpa [quoted, hquote, Unwritten] using h

lemma not_mem_commaSeparated {ts : List (List Char)} (hd : d ∉ marks) (h : ∀ t ∈ ts, d ∉ t) :
    d ∉ commaSeparated ts := by
  have hcomma : d ≠ ',' := by
    rintro rfl
    exact hd (by rw [marks_eq]; decide)
  cases ts with
  | nil => simp [commaSeparated, ModulePath.join]
  | cons t ts =>
    rw [List.forall_mem_cons] at h
    rw [Reader.commaSeparated_cons]
    simpa [hcomma] using h

lemma not_mem_written {r : ImportRecord} (hd : d ∉ marks) (hname : Unwritten d r.name)
    (himports : ∀ x ∈ r.imports, Unwritten d x) : d ∉ r.written := by
  have hmarks : ("\x7b\"name\":".toList ++ ",\"imports\":[".toList ++ "]\x7d".toList).all
      (decide <| · ∈ marks) := by
    rw [String.toList_ofList, String.toList_ofList, String.toList_ofList, marks_eq]
    decide
  simp only [List.all_append, Bool.and_eq_true, List.all_eq_true, decide_eq_true_eq] at hmarks
  obtain ⟨⟨h1, h2⟩, h3⟩ := hmarks
  have hlist : ∀ t ∈ r.imports.map quoted, d ∉ t := by
    intro t ht
    obtain ⟨x, hx, rfl⟩ := List.mem_map.mp ht
    exact not_mem_quoted hd (himports x hx)
  unfold written
  simp only [List.mem_append, not_or]
  exact ⟨⟨⟨⟨mt (h1 d) hd, not_mem_quoted hd hname⟩, mt (h2 d) hd⟩,
    not_mem_commaSeparated hd hlist⟩, mt (h3 d) hd⟩

/-- A character that is neither a mark nor written in a name is not in the text. -/
lemma not_mem_writeAll {records : List ImportRecord} (hd : d ∉ marks)
    (h : ∀ r ∈ records, Unwritten d r.name ∧ ∀ x ∈ r.imports, Unwritten d x) :
    d ∉ (writeAll records).toList := by
  have hends : '[' ∈ marks ∧ ']' ∈ marks := by
    rw [marks_eq]
    decide
  have hlist : ∀ t ∈ records.map written, d ∉ t := by
    intro t ht
    obtain ⟨r, hr, rfl⟩ := List.mem_map.mp ht
    exact not_mem_written hd (h r hr).1 (h r hr).2
  rw [writeAll, String.toList_ofList, List.mem_append, List.mem_cons, List.mem_singleton, not_or,
    not_or]
  refine ⟨⟨?_, not_mem_commaSeparated hd hlist⟩, ?_⟩
  · rintro rfl
    exact hd hends.1
  · rintro rfl
    exact hd hends.2

end

lemma line_feed_not_mem_writeAll (records : List ImportRecord) :
    '\n' ∉ (writeAll records).toList :=
  not_mem_writeAll (by rw [marks_eq]; decide) fun _ _ =>
    ⟨fun c _ => line_feed_not_mem_escaped c, fun _ _ c _ => line_feed_not_mem_escaped c⟩

end ImportRecord

end Json

end ImportAtlas
