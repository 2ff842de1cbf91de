import ImportAtlas.Json.Text
import Mathlib.Data.List.TakeWhile

/-!
Reading what is written: strings.

A reader reads a piece of text as a value if it takes exactly that piece, wherever the text stands
and whatever follows. Quoting a text and reading it gives the text back.
-/

namespace ImportAtlas.Json

open Source

namespace Reader

variable {α β : Type}

/-- With `s` left to read, the reader succeeds with `a` and leaves `t`. -/
def Yields (r : Reader α) (s : List Char) (a : α) (t : List Char) : Prop :=
  ∀ p, ∃ q, r ⟨s, p⟩ = .ok (a, ⟨t, q⟩)

/-- The reader takes the text `w` as the value `a`, whatever follows. -/
def Reads (r : Reader α) (w : List Char) (a : α) : Prop := ∀ rest, r.Yields (w ++ rest) a rest

variable {s t u w : List Char} {a : α} {b : β} {c : Char}

lemma yields_pure : (pure a : Reader α).Yields s a s := fun p => ⟨p, rfl⟩

lemma Yields.bind {r : Reader α} {f : α → Reader β} (hr : r.Yields s a t)
    (hf : (f a).Yields t b u) : (r >>= f).Yields s b u := by
  intro p
  obtain ⟨q, hq⟩ := hr p
  obtain ⟨q', hq'⟩ := hf q
  refine ⟨q', ?_⟩
  show (r ⟨s, p⟩ >>= fun x => f x.1 x.2) = _
  rw [hq]
  exact hq'

lemma yields_get {f : Cursor → Reader α} (hf : ∀ p, (f ⟨s, p⟩).Yields s a t) :
    (get >>= f).Yields s a t := fun p => hf p p

lemma yields_peek : peek?.Yields s s.head? s := fun p => ⟨p, rfl⟩

lemma yields_rounds : rounds.Yields s (2 * s.length + 2) s := fun p => ⟨p, rfl⟩

lemma yields_skip : skip.Yields (c :: s) () s := fun p => ⟨p.next c, rfl⟩

lemma yields_next (h : s.dropWhile isSpace = t) : next?.Yields s t.head? t := by
  intro p
  have hrest := Cursor.rest_dropWhile isSpace ⟨s, p⟩
  refine ⟨(Cursor.dropWhile isSpace ⟨s, p⟩).position, ?_⟩
  show Except.ok ((Cursor.dropWhile isSpace ⟨s, p⟩).rest.head?, Cursor.dropWhile isSpace ⟨s, p⟩) = _
  rw [← h, ← hrest]

lemma yields_next_cons (h : isSpace c = false) : next?.Yields (c :: s) (some c) (c :: s) :=
  yields_next (List.dropWhile_cons_of_neg (by simp [h]))

/-! ### Escapes -/

def codeDigits (c : Char) : List Char :=
  ['0', '0', (c.toNat / 16).digitChar, (c.toNat % 16).digitChar]

lemma hexNumber?_codeDigits (h : c.toNat < 0x20) : hexNumber? (codeDigits c) = some c.toNat := by
  have hall : ∀ n < 0x20,
      hexNumber? ['0', '0', (n / 16).digitChar, (n % 16).digitChar] = some n := by decide
  exact hall _ h

lemma reads_escapeUnit (h : c.toNat < 0x20) : escapeUnit.Reads (codeDigits c) c.toNat := by
  intro s
  refine yields_get fun p => ?_
  have htake : (codeDigits c ++ s).take 4 = codeDigits c := rfl
  simp only [htake, hexNumber?_codeDigits h]
  exact fun p => ⟨_, rfl⟩

lemma reads_numberedEscape (h : c.toNat < 0x20) : numberedEscape.Reads (codeDigits c) c := by
  intro s
  refine (reads_escapeUnit h s).bind ?_
  have h1 : ¬(0xdc00 ≤ c.toNat ∧ c.toNat ≤ 0xdfff) := by omega
  have h2 : c.toNat < 0xd800 := by omega
  simp only [Bool.and_eq_true, decide_eq_true_eq, h1, if_false, h2, decide_true, Bool.true_or,
    if_true, Char.ofNat_toNat]
  exact yields_pure

/-- A character is written as itself, as a short escape or by its number. -/
inductive Written (c : Char) : List Char → Prop where
  | plain (hquote : c ≠ '"') (hbackslash : c ≠ '\\') (h : ¬c.toNat < 0x20) : Written c [c]
  | short (d : Char) (hd : d ≠ 'u') (h : unescape? d = some c) : Written c ['\\', d]
  | numbered (h : c.toNat < 0x20) : Written c ('\\' :: 'u' :: codeDigits c)

lemma written_escaped (c : Char) : Written c (escaped c) := by
  unfold escaped
  split_ifs with hquote hbackslash h1 h2 h3 h4 h5 hcontrol
  · exact .short _ (by decide) (by rw [hquote]; rfl)
  · exact .short _ (by decide) (by rw [hbackslash]; rfl)
  · exact .short _ (by decide) (by rw [h1]; rfl)
  · exact .short _ (by decide) (by rw [h2]; rfl)
  · exact .short _ (by decide) (by rw [h3]; rfl)
  · exact .short _ (by decide) (by rw [h4]; rfl)
  · exact .short _ (by decide) (by rw [h5]; rfl)
  · exact .numbered hcontrol
  · exact .plain hquote hbackslash hcontrol

lemma reads_escape_short {d : Char} (hd : d ≠ 'u') (h : unescape? d = some c) :
    escape.Reads [d] c := by
  intro s
  refine yields_peek.bind ?_
  simp only [List.cons_append, List.nil_append, List.head?_cons, h]
  exact yields_skip.bind yields_pure

lemma reads_escape_numbered (h : c.toNat < 0x20) : escape.Reads ('u' :: codeDigits c) c :=
  fun s => yields_peek.bind (yields_skip.bind (reads_numberedEscape h s))

/-! ### Strings -/

lemma yields_characters {n : ℕ} (text : List Char) (hn : text.length < n) :
    (characters n).Yields (text.flatMap escaped ++ '"' :: s) text s := by
  induction text generalizing n with
  | nil =>
    obtain ⟨n, rfl⟩ := Nat.exists_eq_add_one_of_ne_zero (Nat.ne_of_gt hn)
    exact yields_peek.bind (yields_skip.bind yields_pure)
  | cons c cs ih =>
    obtain ⟨n, rfl⟩ := Nat.exists_eq_add_one_of_ne_zero (Nat.ne_zero_of_lt hn)
    have hrest := (ih (n := n) (by simpa using hn)).bind (f := fun cs => pure (c :: cs)) yields_pure
    rw [List.flatMap_cons, List.append_assoc]
    refine yields_peek.bind ?_
    -- how the character is written tells which branch of the reader takes it
    have hc := written_escaped c
    generalize escaped c = w at hc ⊢
    cases hc with
    | plain hquote hbackslash h =>
      simp only [List.cons_append, List.nil_append, List.head?_cons, h]
      exact yields_skip.bind hrest
    | short d hd h =>
      exact yields_skip.bind ((reads_escape_short hd h _).bind hrest)
    | numbered h =>
      exact yields_skip.bind ((reads_escape_numbered h _).bind hrest)

/-- No piece is empty, so there are at least as many characters as pieces. -/
lemma length_le_flatMap (xs : List β) {f : β → List Char} (hf : ∀ x, f x ≠ []) :
    xs.length ≤ (xs.flatMap f).length := by
  induction xs with
  | nil => simp
  | cons x xs ih =>
    have hx := List.length_pos_iff.mpr (hf x)
    simp only [List.length_cons, List.flatMap_cons, List.length_append]
    omega

lemma escaped_ne_nil (c : Char) : escaped c ≠ [] := by
  have h := written_escaped c
  rintro hnil
  rw [hnil] at h
  cases h

lemma yields_text (x : String) : text.Yields (x.toList.flatMap escaped ++ '"' :: s) x s := by
  refine yields_rounds.bind ?_
  have hlen := length_le_flatMap x.toList escaped_ne_nil
  refine (yields_characters x.toList ?_).bind ?_
  · simp only [List.length_append, List.length_cons]
    omega
  · rw [String.ofList_toList]
    exact yields_pure

end Reader

end ImportAtlas.Json
