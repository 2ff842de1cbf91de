import ImportAtlas.Proofs.Assembly
import ImportAtlas.Proofs.JsonRecord
import ImportAtlas.Proofs.ReplacedText
import ImportAtlas.Proofs.SplitText

/-!
Texts in the JSON of a graph.

A text that is written in JSON as it is, has none of the marks in it and does not begin like what
stands behind a backslash, is in the JSON of a graph exactly if it is in one of the names. Escapes
neither make a place where it is found nor take one away, and no such place reaches across a mark.
-/

namespace ImportAtlas

namespace Json

open Export

def separators : List Char := ['"', '[', ']', '\x7b', '\x7d', ':', ',']

/-- A text that JSON keeps apart from all that it adds to names. -/
structure IsPlain (old : List Char) : Prop where
  ne_nil : old ≠ []
  unescaped : ∀ c ∈ old, escaped c = [c]
  begins : ∀ c, ∀ d ∈ (escaped c).tail, old.head? ≠ some d
  unmarked : ∀ c ∈ separators, c ∉ old
  noKey : ∀ key ∈ ["name", "imports"], ¬old <:+: key.toList

variable {c : Char} {old s : List Char} {x : String} {ts : List (List Char)}

lemma escaped_cases (c : Char) : escaped c = [c] ∨ ∃ w, escaped c = '\\' :: w ∧ w ≠ [] := by
  have hc := Reader.written_escaped c
  generalize escaped c = w at hc ⊢
  cases hc with
  | plain => exact .inl rfl
  | short d => exact .inr ⟨[d], rfl, List.cons_ne_nil _ _⟩
  | numbered => exact .inr ⟨_, rfl, List.cons_ne_nil _ _⟩

/-- Behind a backslash stands a short escape or the number of a control character. -/
lemma mem_tail_escaped {d : Char} (h : d ∈ (escaped c).tail) :
    unescape? d = some c ∨ d = 'u' ∨ ∃ n < 16, d = n.digitChar := by
  have hc := Reader.written_escaped c
  generalize escaped c = w at hc h
  cases hc with
  | plain => cases h
  | short e _ he =>
    obtain rfl := List.mem_singleton.mp h
    exact .inl he
  | numbered hcontrol =>
    simp only [List.tail_cons, Reader.codeDigits, List.mem_cons, List.not_mem_nil, or_false] at h
    rcases h with rfl | rfl | rfl | rfl | rfl
    · exact .inr (.inl rfl)
    · exact .inr (.inr ⟨0, by decide, rfl⟩)
    · exact .inr (.inr ⟨0, by decide, rfl⟩)
    · exact .inr (.inr ⟨_, by omega, rfl⟩)
    · exact .inr (.inr ⟨_, by omega, rfl⟩)

/-! ### Names -/

/-- A character that is written as it is stands for itself only. -/
lemma isPrefixOf_escaped (hold : ∀ c ∈ old, escaped c = [c]) :
    old.isPrefixOf (s.flatMap escaped) = old.isPrefixOf s := by
  induction old generalizing s with
  | nil => rfl
  | cons d ds ih =>
    obtain ⟨hd, hds⟩ := List.forall_mem_cons.mp hold
    cases s with
    | nil => rfl
    | cons c cs =>
      rw [List.flatMap_cons]
      rcases escaped_cases c with hc | ⟨w, hc, hw⟩
      · rw [hc, List.singleton_append, List.isPrefixOf, List.isPrefixOf, ih hds]
      · -- an escape begins with a backslash, which the text does not have
        have hslash : d ≠ '\\' := by
          rintro rfl
          cases hd
        have hne : d ≠ c := by
          rintro rfl
          rw [hd] at hc
          exact hw (List.cons.inj hc).2.symm
        rw [hc, List.cons_append, List.isPrefixOf, List.isPrefixOf, beq_false_of_ne hslash,
          beq_false_of_ne hne, Bool.false_and, Bool.false_and]

namespace IsPlain

variable (h : IsPlain old)

include h

lemma occurrences_append {w : List Char} (hw : ∀ d ∈ w, old.head? ≠ some d) :
    occurrences old (w ++ s) = occurrences old s := by
  induction w with
  | nil => rfl
  | cons d w ih =>
    obtain ⟨hd, hw⟩ := List.forall_mem_cons.mp hw
    rw [List.cons_append, occurrences_skip h.ne_nil hd, ih hw]

/-- Escapes neither make a place nor take one away. -/
lemma occurrences_escaped : occurrences old (s.flatMap escaped) = occurrences old s := by
  induction s with
  | nil => rfl
  | cons c s ih =>
    rcases escaped_cases c with hc | ⟨w, hc, hw⟩
    · have hbegin := isPrefixOf_escaped (s := c :: s) h.unescaped
      rw [List.flatMap_cons, hc, List.singleton_append] at hbegin ⊢
      rw [occurrences_cons, occurrences_cons, ih, hbegin]
    · have hslash : '\\' ∉ old := fun hmem => by cases h.unescaped _ hmem
      have hnot : c ∉ old := by
        intro hmem
        rw [h.unescaped c hmem] at hc
        exact hw (List.cons.inj hc).2.symm
      have hbegins := h.begins c
      rw [hc, List.tail_cons] at hbegins
      rw [List.flatMap_cons, hc, List.cons_append, occurrences_skip h.ne_nil (head?_ne hslash),
        h.occurrences_append hbegins, ih, occurrences_skip h.ne_nil (head?_ne hnot)]

lemma infix_escaped_iff : old <:+: s.flatMap escaped ↔ old <:+: s := by
  rw [← not_iff_not, ← occurrences_eq_zero_iff, h.occurrences_escaped, occurrences_eq_zero_iff]

/-! ### Marks -/

/-- No place reaches across a mark. -/
lemma infix_mark_iff {a b : List Char} (hc : c ∈ separators) :
    old <:+: a ++ c :: b ↔ old <:+: a ∨ old <:+: b :=
  infix_append_cons_iff h.ne_nil (h.unmarked c hc)

lemma infix_cons_mark_iff {b : List Char} (hc : c ∈ separators) :
    old <:+: c :: b ↔ old <:+: b := by
  have hcut := h.infix_mark_iff (a := []) (b := b) hc
  rwa [List.nil_append, List.infix_nil, or_iff_right h.ne_nil] at hcut

lemma infix_concat_mark_iff {a : List Char} (hc : c ∈ separators) :
    old <:+: a ++ [c] ↔ old <:+: a := by
  rw [h.infix_mark_iff hc, List.infix_nil, or_iff_left h.ne_nil]

lemma infix_quoted_iff : old <:+: quoted x ↔ old <:+: x.toList := by
  rw [quoted, h.infix_concat_mark_iff (by decide), h.infix_cons_mark_iff (by decide),
    h.infix_escaped_iff]

lemma infix_commaSeparated_iff : old <:+: commaSeparated ts ↔ ∃ t ∈ ts, old <:+: t := by
  induction ts with
  | nil => simp [commaSeparated, ModulePath.join, h.ne_nil]
  | cons t ts ih =>
    by_cases hts : ts = []
    · simp [hts, commaSeparated, ModulePath.join]
    · rw [commaSeparated, ModulePath.join_cons hts, h.infix_mark_iff (by decide),
        List.exists_mem_cons_iff]
      exact or_congr_right ih

lemma infix_listText_iff {xs : List String} :
    old <:+: Reader.listText xs ↔ ∃ x ∈ xs, old <:+: x.toList := by
  rw [Reader.listText, h.infix_concat_mark_iff (by decide), h.infix_cons_mark_iff (by decide),
    h.infix_commaSeparated_iff]
  simp only [List.mem_map, exists_exists_and_eq_and, h.infix_quoted_iff]

lemma infix_fieldText_iff {key : String} {value rest : List Char}
    (hkey : key ∈ ["name", "imports"]) (hc : c ∈ separators) :
    old <:+: Reader.fieldText key value (c :: rest) ↔ old <:+: value ∨ old <:+: rest := by
  rw [Reader.fieldText, h.infix_cons_mark_iff (by decide), h.infix_mark_iff (by decide),
    h.infix_escaped_iff, or_iff_right (h.noKey key hkey), h.infix_cons_mark_iff (by decide),
    h.infix_mark_iff hc]

lemma infix_written_iff {r : ImportRecord} :
    old <:+: r.written ↔ old <:+: r.name.toList ∨ ∃ x ∈ r.imports, old <:+: x.toList := by
  have hwritten := Reader.written_append r []
  rw [List.append_nil] at hwritten
  rw [hwritten, h.infix_cons_mark_iff (by decide), h.infix_fieldText_iff (by simp) (by decide),
    h.infix_fieldText_iff (by simp) (by decide), h.infix_quoted_iff, h.infix_listText_iff,
    List.infix_nil, or_iff_left h.ne_nil]

lemma infix_writeAll_iff {records : List ImportRecord} :
    old <:+: (ImportRecord.writeAll records).toList ↔
      ∃ r ∈ records, old <:+: r.name.toList ∨ ∃ x ∈ r.imports, old <:+: x.toList := by
  rw [ImportRecord.writeAll, String.toList_ofList, h.infix_concat_mark_iff (by decide),
    h.infix_cons_mark_iff (by decide), h.infix_commaSeparated_iff]
  simp only [List.mem_map, exists_exists_and_eq_and, h.infix_written_iff]

end IsPlain

end Json

namespace ImportGraph

lemma infix_json_iff {g : ImportGraph} {old : List Char} (h : Json.IsPlain old) :
    old <:+: g.json.toList ↔ ∃ x ∈ g.nodes, old <:+: x.toList := by
  rw [json, h.infix_writeAll_iff]
  constructor
  · rintro ⟨r, hr, hfound⟩
    obtain ⟨⟨k, names⟩, hentry, rfl⟩ := List.mem_map.mp hr
    have hfind := OrderedMap.find?_eq_some_iff.mpr hentry
    rcases hfound with hk | ⟨v, hv, hfound⟩
    · exact ⟨k, mem_nodes_iff.mpr (.inl (OrderedMap.mem_keys_iff.mpr ⟨names, hfind⟩)), hk⟩
    · exact ⟨v, mem_nodes_iff.mpr (.inr ⟨k, names, hfind, hv⟩), hfound⟩
  · rintro ⟨x, hx, hfound⟩
    rcases mem_nodes_iff.mp hx with himporter | ⟨k, names, hfind, hv⟩
    · obtain ⟨names, hfind⟩ := OrderedMap.mem_keys_iff.mp himporter
      have hentry := OrderedMap.find?_eq_some_iff.mp hfind
      exact ⟨_, List.mem_map.mpr ⟨_, hentry, rfl⟩, .inl hfound⟩
    · have hentry := OrderedMap.find?_eq_some_iff.mp hfind
      exact ⟨_, List.mem_map.mpr ⟨_, hentry, rfl⟩, .inr ⟨x, hv, hfound⟩⟩

end ImportGraph

end ImportAtlas
