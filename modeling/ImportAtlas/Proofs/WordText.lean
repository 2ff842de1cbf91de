import Mathlib.Data.List.TakeWhile
import ImportAtlas.Source.Lexeme

/-!
Words at the front of a text: how far they reach, and what they cannot be taken for.
-/

namespace ImportAtlas.Source

open Text

def isWord : List Char → Bool
  | [] => false
  | c :: cs => (decide (c.toNat < 128) && isNameStart c) && cs.all isNameContinue

/-- No word goes on into the text. -/
def Stops (s : List Char) : Prop := ∀ c ∈ s.head?, isNameContinue c = false

variable {c : Char} {w s : List Char}

lemma stops_cons (h : isNameContinue c = false) : Stops (c :: s) := by
  rintro _ ⟨⟩
  exact h

lemma takeWhile_eq_nil_of_stops (h : Stops s) : s.takeWhile isNameContinue = [] := by
  cases s with
  | nil => rfl
  | cons c s => exact List.takeWhile_cons_of_neg (by simp [h c rfl])

lemma of_mem_word (h : c ∈ s.take (wordLength s)) :
    isNameStart c = true ∨ isNameContinue c = true := by
  cases s with
  | nil => cases h
  | cons d s =>
    rw [wordLength] at h
    split_ifs at h with hstart
    · have htake : s.take (s.takeWhile isNameContinue).length = s.takeWhile isNameContinue :=
        (List.prefix_iff_eq_take.mp (List.takeWhile_prefix _)).symm
      rw [Nat.add_comm, List.take_succ_cons, htake, List.mem_cons] at h
      rcases h with rfl | h
      · exact .inl hstart
      · exact .inr (List.mem_takeWhile_imp h)
    · cases h

lemma isNameStart_of_isWord (h : isWord (c :: w) = true) : isNameStart c = true := by
  simp only [isWord, Bool.and_eq_true] at h
  exact h.1.2

lemma isWord_ne_nil (h : isWord w = true) : w ≠ [] := by
  rintro rfl
  cases h

lemma wordLength_word (hw : isWord w = true) (hs : Stops s) : wordLength (w ++ s) = w.length := by
  cases w with
  | nil => cases hw
  | cons c cs =>
    have hc := isNameStart_of_isWord hw
    rw [isWord, Bool.and_eq_true, List.all_eq_true] at hw
    rw [List.cons_append, wordLength, if_pos hc, List.takeWhile_append_of_pos hw.2,
      takeWhile_eq_nil_of_stops hs, List.append_nil, List.length_cons, Nat.add_comm]

lemma wordAt_word (hw : isWord w = true) (hs : Stops s) :
    wordAt (w ++ s) = some (String.ofList w) := by
  rw [wordAt, wordLength_word hw hs]
  cases w with
  | nil => cases hw
  | cons c cs =>
    have htake : ((c :: cs) ++ s).take (c :: cs).length = c :: cs := List.take_left
    exact congrArg (some ∘ String.ofList) htake

lemma wordAt_text {text : String} (hw : isWord text.toList = true) (hs : Stops s) :
    wordAt (text.toList ++ s) = some text := by
  rw [wordAt_word hw hs, String.ofList_toList]

lemma isSome_wordAt (hw : isWord w = true) : (wordAt (w ++ s)).isSome = true := by
  cases w with
  | nil => cases hw
  | cons c cs =>
    have hlength : wordLength ((c :: cs) ++ s) ≠ 0 := by
      rw [List.cons_append, wordLength, if_pos (isNameStart_of_isWord hw)]
      exact Nat.ne_of_gt (by omega)
    unfold wordAt
    split
    · exact absurd ‹_› hlength
    · rfl

lemma wordAt_cons (h : isNameStart c = false) : wordAt (c :: s) = none := by
  simp [wordAt, wordLength, h]

/-- No operator begins like a word. -/
lemma symbolAt_cons (h : isNameStart c = true) : symbolAt (c :: s) = none := by
  unfold symbolAt
  split <;> first | rfl | (rename_i heq; injection heq with heq _; subst heq; cases h)

lemma symbolAt_word (hw : isWord w = true) : symbolAt (w ++ s) = none := by
  cases w with
  | nil => cases hw
  | cons c cs => exact symbolAt_cons (isNameStart_of_isWord hw)

lemma symbolAt_dot (hw : isWord w = true) : symbolAt ('.' :: (w ++ s)) = some "." := by
  cases w with
  | nil => cases hw
  | cons c cs =>
    have hdot : c ≠ '.' := by
      rintro rfl
      cases isNameStart_of_isWord hw
    -- a word begins with no dot, so there is no `...`
    have htwo : ∀ t, '.' :: ((c :: cs) ++ s) ≠ '.' :: '.' :: t := by
      intro t heq
      injection heq with _ heq
      injection heq with heq _
      exact hdot heq
    unfold symbolAt
    split <;> first
      | rfl
      | (rename_i heq; injection heq with heq _; exact absurd heq (by decide))
      | (rename_i heq; exact absurd heq (htwo _))
      | (rename_i hne _ _ _ _ _ _ _ _ _; exact absurd rfl (hne _))

/-- The letters of a word begin no string if none begins behind them. -/
lemma quoteFrom_word {n : ℕ} {format raw bytes : Bool} (hw : w.all isNameContinue = true)
    (hs : ∀ n format raw bytes, quoteFrom n format raw bytes s = none) :
    quoteFrom n format raw bytes (w ++ s) = none := by
  induction w generalizing n format raw bytes with
  | nil => exact hs ..
  | cons c cs ih =>
    rw [List.all_cons, Bool.and_eq_true] at hw
    have hdouble : ¬(c = '"' ∨ c = '\'') := by
      rintro (rfl | rfl) <;> exact absurd hw.1 (by decide)
    have hback : ¬c = '\x60' := by
      rintro rfl
      exact absurd hw.1 (by decide)
    rw [List.cons_append]
    unfold quoteFrom
    simp only [Bool.or_eq_true, decide_eq_true_eq, hdouble, hback, if_false, ih hw.2, ite_self]

lemma isDigit_eq_false (h : isNameStart c = true) : c.isDigit = false := by
  rw [Bool.eq_false_iff]
  intro hdigit
  simp only [Char.isDigit, Bool.and_eq_true, decide_eq_true_eq, ge_iff_le,
    UInt32.le_iff_toNat_le] at hdigit
  have h0 : '0'.val.toNat = 48 := rfl
  have h9 : '9'.val.toNat = 57 := rfl
  have hall : ∀ n < 58, 48 ≤ n → isNameStart (Char.ofNat n) = false := by decide
  have hc := hall c.toNat (by simp only [Char.toNat]; omega) (by simp only [Char.toNat]; omega)
  rw [Char.ofNat_toNat, h] at hc
  cases hc

lemma numberAt_cons (h : isNameStart c = true) : numberAt (c :: s) = none := by
  have hdigits : Number.digits (c :: s) = 0 := by simp [Number.digits, isDigit_eq_false h]
  have hzero : c ≠ '0' := by
    rintro rfl
    cases h
  have hdot : c ≠ '.' := by
    rintro rfl
    cases h
  have hdecimal : numberAt (c :: s) = Number.decimal (c :: s) := by
    unfold numberAt
    split
    · rename_i heq
      injection heq with heq _
      exact absurd heq hzero
    · rfl
  rw [hdecimal, Number.decimal, hdigits]
  split <;> simp_all

end ImportAtlas.Source
