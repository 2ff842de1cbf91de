import Mathlib.Data.List.Basic
import Mathlib.Data.List.Lex
import Mathlib.Tactic.SplitIfs

/-!
The order of texts and the order of their bytes.

UTF-8 keeps the order: of two characters the smaller one has the smaller bytes, and none has the
bytes of another one at its beginning. So texts are in the order of their code points exactly if
they are in the order of their bytes.
-/

namespace ImportAtlas

def utf8Bytes (s : String) : List UInt8 := s.toUTF8.data.toList

lemma utf8Bytes_ofList (l : List Char) :
    utf8Bytes (String.ofList l) = l.flatMap String.utf8EncodeChar :=
  List.toList_data_toByteArray

lemma byte_cons_lt_iff {m n : ℕ} (hm : m < 256) (hn : n < 256) {s t : List UInt8} :
    UInt8.ofNat m :: s < UInt8.ofNat n :: t ↔ m < n ∨ m = n ∧ s < t := by
  rw [List.cons_lt_cons_iff, UInt8.lt_iff_toNat_lt, ← UInt8.toNat_inj,
    UInt8.toNat_ofNat_of_lt' hm, UInt8.toNat_ofNat_of_lt' hn]

/-- Whatever follows, the bytes of a smaller character come before those of a larger one. -/
lemma utf8EncodeChar_append_lt {c d : Char} (h : c < d) (s t : List UInt8) :
    String.utf8EncodeChar c ++ s < String.utf8EncodeChar d ++ t := by
  have hlt : c.val.toNat < d.val.toNat := h
  have hd : d.val.toNat < 0x110000 := by
    have := d.valid
    simp only [UInt32.isValidChar, Nat.isValidChar] at this
    omega
  unfold String.utf8EncodeChar
  dsimp only
  generalize c.val.toNat = v at *
  generalize d.val.toNat = w at *
  -- what is left of a number without its last parts, in order like the numbers themselves
  have hparts (n : ℕ) : n / 4096 = n / 64 / 64 ∧ n / 262144 = n / 4096 / 64 := by
    simp only [Nat.div_div_eq_div_mul, and_self]
  have hv := hparts v
  have hw := hparts w
  have h1 : v / 64 ≤ w / 64 := Nat.div_le_div_right hlt.le
  have h2 : v / 4096 ≤ w / 4096 := Nat.div_le_div_right hlt.le
  have h3 : v / 262144 ≤ w / 262144 := Nat.div_le_div_right hlt.le
  have hv8 : v / 262144 % 8 = v / 262144 := Nat.mod_eq_of_lt (by omega)
  have hw8 : w / 262144 % 8 = w / 262144 := Nat.mod_eq_of_lt (by omega)
  -- one case for each pair of lengths
  split_ifs <;>
    simp (disch := omega) only [List.cons_append, List.nil_append, byte_cons_lt_iff] <;> omega

lemma flatMap_utf8EncodeChar_lt {l m : List Char} (h : l < m) :
    l.flatMap String.utf8EncodeChar < m.flatMap String.utf8EncodeChar := by
  induction l generalizing m with
  | nil =>
    cases m with
    | nil => exact absurd h (List.lt_irrefl [])
    | cons d m =>
      obtain ⟨b, bs, hb⟩ := List.exists_cons_of_ne_nil (String.utf8EncodeChar_ne_nil (c := d))
      rw [List.flatMap_nil, List.flatMap_cons, hb]
      exact List.nil_lt_cons ..
  | cons c l ih =>
    cases m with
    | nil => exact absurd h (List.not_lt_nil _)
    | cons d m =>
      rw [List.flatMap_cons, List.flatMap_cons]
      -- the first character that differs decides, and its bytes do
      rcases List.cons_lt_cons_iff.mp h with hcd | ⟨rfl, hlm⟩
      · exact utf8EncodeChar_append_lt hcd _ _
      · exact List.append_left_lt (ih hlm)

/-- Texts are in the order of their bytes. -/
lemma utf8Bytes_lt_iff {a b : String} : utf8Bytes a < utf8Bytes b ↔ a < b := by
  have hmono : ∀ {a b : String}, a < b → utf8Bytes a < utf8Bytes b := by
    intro a b h
    have hbytes := flatMap_utf8EncodeChar_lt (String.lt_iff.mp h)
    rwa [← utf8Bytes_ofList, ← utf8Bytes_ofList, String.ofList_toList, String.ofList_toList]
      at hbytes
  refine ⟨fun h => ?_, hmono⟩
  by_contra hab
  by_cases hba : b < a
  · exact List.lt_irrefl _ (List.lt_trans h (hmono hba))
  · have heq : a = b := String.le_antisymm (String.not_lt.mp hba) (String.not_lt.mp hab)
    subst heq
    exact List.lt_irrefl _ h

end ImportAtlas
