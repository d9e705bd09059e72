import Mathlib
import InlineExpect.Text.Utf8

/-!
# The order of texts is the order of their bytes

Texts are ordered by their characters.  UTF-8 keeps the order of characters
(`Text.utf8EncodeChar_append_lt`): a character with fewer bytes has the smaller first byte, and the
bytes of characters with as many bytes are their digits behind the same marks.  The order of the
bytes of two texts is therefore the order of the texts (`Text.utf8_lt_iff`).
-/

namespace InlineExpect.Text

/-- Bytes that are given by numbers are compared as these numbers. -/
lemma ofNat_cons_lt_ofNat_cons {a b : Nat} {xs ys : List UInt8} (ha : a < 256) (hb : b < 256) :
    UInt8.ofNat a :: xs < UInt8.ofNat b :: ys ↔ a < b ∨ a = b ∧ xs < ys := by
  rw [List.cons_lt_cons_iff, UInt8.lt_iff_toNat_lt, ← UInt8.toNat_inj, UInt8.toNat_ofNat',
    UInt8.toNat_ofNat', Nat.mod_eq_of_lt ha, Nat.mod_eq_of_lt hb]

/-- Numbers are in the order of their digits to the base 64. -/
lemma digits_lt {v w : Nat} (h : v < w) :
    v / 262144 < w / 262144 ∨ v / 262144 = w / 262144 ∧
      (v / 4096 % 64 < w / 4096 % 64 ∨ v / 4096 % 64 = w / 4096 % 64 ∧
        (v / 64 % 64 < w / 64 % 64 ∨ v / 64 % 64 = w / 64 % 64 ∧ v % 64 < w % 64)) := by
  have hlast : v / 64 < w / 64 ∨ v / 64 = w / 64 ∧ v % 64 < w % 64 := by omega
  rcases hlast with hlt | ⟨heq, hlt⟩
  · have hthird : v / 4096 < w / 4096 ∨ v / 4096 = w / 4096 ∧ v / 64 % 64 < w / 64 % 64 := by omega
    omega
  · have hthird : v / 4096 = w / 4096 := by omega
    omega

/-- The bytes of a character come before those of a greater one, whatever follows them. -/
lemma utf8EncodeChar_append_lt {c d : Char} (h : c < d) (xs ys : List UInt8) :
    String.utf8EncodeChar c ++ xs < String.utf8EncodeChar d ++ ys := by
  have hlt : c.val.toNat < d.val.toNat := h
  have hd : d.val.toNat < 0x110000 := by
    rcases d.valid with hvalid | ⟨-, hvalid⟩ <;> omega
  unfold String.utf8EncodeChar
  have hdigits := digits_lt hlt
  generalize c.val.toNat = v at hlt hdigits ⊢
  generalize d.val.toNat = w at hlt hd hdigits ⊢
  have hv : v / 262144 % 8 = v / 262144 := by omega
  have hw : w / 262144 % 8 = w / 262144 := by omega
  dsimp only
  -- One case for each two numbers of bytes.  The numbers of bytes in the wrong order are excluded.
  split_ifs <;>
    simp (disch := omega) only [List.cons_append, List.nil_append, ofNat_cons_lt_ofNat_cons] <;>
    omega

/-- Smaller texts have smaller bytes. -/
lemma utf8_lt_utf8 {cs ds : List Char} (h : cs < ds) : utf8 cs < utf8 ds := by
  induction ds generalizing cs with
  | nil => exact absurd h (List.not_lt_nil cs)
  | cons d ds ih =>
    cases cs with
    | nil =>
      obtain ⟨b, more, hb⟩ := List.exists_cons_of_ne_nil (String.utf8EncodeChar_ne_nil (c := d))
      rw [utf8, utf8, hb]
      exact List.nil_lt_cons b _
    | cons c cs =>
      rcases List.cons_lt_cons_iff.mp h with hlt | ⟨rfl, hlt⟩
      · exact utf8EncodeChar_append_lt hlt _ _
      · exact List.append_left_lt (ih hlt)

/-- The bytes of two texts are in the same order as the texts. -/
theorem utf8_lt_iff {cs ds : List Char} : utf8 cs < utf8 ds ↔ cs < ds := by
  refine ⟨fun h => ?_, utf8_lt_utf8⟩
  rcases lt_trichotomy cs ds with hlt | rfl | hgt
  · exact hlt
  · exact absurd h (List.lt_irrefl _)
  · exact absurd h (List.lt_asymm (utf8_lt_utf8 hgt))

end InlineExpect.Text
