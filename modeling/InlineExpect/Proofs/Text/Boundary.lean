import Mathlib
import InlineExpect.Text.Utf8

/-!
# Boundaries between characters

An offset into the bytes of a text is a boundary if it is the number of bytes of some first
characters of the text.  A text `SplitsAt` such an offset into what stands before it and a rest, and
the bytes from the offset on are those of the rest (`Text.SplitsAt.drop_utf8`).  At any other offset
a byte stands that begins no character, so that a boundary is known by its byte
(`Text.isBoundary_iff`).

Bytes are decoded again one character after the other (`Text.decode?_utf8`), so that different texts
have different bytes, and a character of one byte stands where its byte does
(`Text.head?_utf8_eq_some_iff`).
-/

namespace InlineExpect.Text

/-! ### Decoding -/

/-- The first character of some bytes, if they begin with the UTF-8 form of one. -/
def decode? (bytes : List UInt8) : Option Char := bytes.toByteArray.utf8DecodeChar? 0

/-- The form of a character is decoded to the character, whatever follows. -/
lemma decode?_append (c : Char) (bytes : List UInt8) :
    decode? (String.utf8EncodeChar c ++ bytes) = some c := by
  rw [decode?, List.toByteArray_append]
  exact ByteArray.utf8DecodeChar?_utf8EncodeChar_append

/-- The first character of a text is that of its bytes. -/
theorem decode?_utf8 (cs : List Char) : decode? (utf8 cs) = cs.head? := by
  cases cs with
  | nil => rfl
  | cons c cs => exact decode?_append c (utf8 cs)

/-- A text begins as another one does if and only if its bytes do. -/
theorem utf8_prefix_utf8_iff {cs ds : List Char} : utf8 ds <+: utf8 cs ↔ ds <+: cs := by
  constructor
  · induction ds generalizing cs with
    | nil => exact fun _ => List.nil_prefix
    | cons d ds ih =>
      rintro ⟨bytes, hbytes⟩
      have hhead : cs.head? = some d := by
        rw [← decode?_utf8, ← hbytes, utf8, List.append_assoc]
        exact decode?_append d _
      obtain ⟨cs, rfl⟩ := List.head?_eq_some_iff.mp hhead
      rw [utf8, utf8, List.append_assoc] at hbytes
      rw [List.prefix_cons_inj]
      exact ih ⟨bytes, List.append_cancel_left hbytes⟩
  · rintro ⟨rest, rfl⟩
    rw [utf8_append]
    exact List.prefix_append _ _

/-- Different texts have different bytes. -/
theorem utf8_injective : Function.Injective utf8 := by
  intro cs ds h
  have hcs : cs <+: ds := utf8_prefix_utf8_iff.mp (by rw [h])
  have hds : ds <+: cs := utf8_prefix_utf8_iff.mp (by rw [h])
  exact hcs.eq_of_length_le hds.length_le

/-- A text begins with a character of one byte if and only if its bytes begin with that byte. -/
lemma head?_utf8_eq_some_iff {b : UInt8} {d : Char} (hd : String.utf8EncodeChar d = [b])
    (cs : List Char) : (utf8 cs).head? = some b ↔ cs.head? = some d := by
  constructor
  · intro h
    obtain ⟨bytes, hbytes⟩ := List.head?_eq_some_iff.mp h
    rw [← decode?_utf8, hbytes]
    have hdecode := decode?_append d bytes
    rwa [hd] at hdecode
  · intro h
    obtain ⟨ds, rfl⟩ := List.head?_eq_some_iff.mp h
    rw [utf8, hd]
    rfl

/-! ### Splitting a text at an offset -/

/-- The rest of a text behind the characters that take so many bytes. -/
def SplitsAt (text : List Char) (pos : Nat) (rest : List Char) : Prop :=
  ∃ before, text = before ++ rest ∧ byteLength before = pos

/-- An offset between two characters of a text, or at one of its ends. -/
def IsBoundary (text : List Char) (pos : Nat) : Prop := ∃ rest, SplitsAt text pos rest

namespace SplitsAt

variable {text rest : List Char} {pos : Nat} {c : Char}

/-- A text begins at offset zero. -/
lemma zero (text : List Char) : SplitsAt text 0 text := ⟨[], rfl, rfl⟩

lemma isBoundary (h : SplitsAt text pos rest) : IsBoundary text pos := ⟨rest, h⟩

/-- Behind some characters of the rest the text has their number of bytes less to come. -/
lemma append {front : List Char} (h : SplitsAt text pos (front ++ rest)) :
    SplitsAt text (pos + byteLength front) rest := by
  obtain ⟨before, rfl, rfl⟩ := h
  exact ⟨before ++ front, (List.append_assoc _ _ _).symm, byteLength_append _ _⟩

/-- The boundary behind a character. -/
lemma tail (h : SplitsAt text pos (c :: rest)) : SplitsAt text (pos + c.utf8Size) rest := by
  have hfront : SplitsAt text pos ([c] ++ rest) := h
  exact hfront.append

/-- The boundary behind so many characters. -/
lemma drop (h : SplitsAt text pos rest) (n : Nat) :
    SplitsAt text (pos + byteLength (rest.take n)) (rest.drop n) := by
  apply append
  rwa [List.take_append_drop]

/-- The bytes before an offset and those of the rest are all bytes of the text. -/
lemma pos_add_byteLength (h : SplitsAt text pos rest) :
    pos + byteLength rest = byteLength text := by
  obtain ⟨before, rfl, rfl⟩ := h
  exact (byteLength_append _ _).symm

lemma pos_le (h : SplitsAt text pos rest) : pos ≤ byteLength text := by
  rw [← h.pos_add_byteLength]
  exact Nat.le_add_right _ _

/-- Where there is a rest, the text does not end. -/
lemma pos_lt (h : SplitsAt text pos (c :: rest)) : pos < byteLength text := by
  have hpos := c.utf8Size_pos
  rw [← h.pos_add_byteLength, byteLength_cons]
  omega

/-- The bytes from an offset on are those of the rest. -/
lemma drop_utf8 (h : SplitsAt text pos rest) : (utf8 text).drop pos = utf8 rest := by
  obtain ⟨before, rfl, rfl⟩ := h
  rw [utf8_append, ← length_utf8, List.drop_left]

/-- The byte at an offset is the first one of the rest. -/
lemma getElem?_utf8 (h : SplitsAt text pos rest) : (utf8 text)[pos]? = (utf8 rest).head? := by
  rw [← h.drop_utf8, List.head?_drop]

end SplitsAt

/-- A boundary is known by its byte, which begins a character unless the text ends there. -/
theorem isBoundary_iff {text : List Char} {pos : Nat} :
    IsBoundary text pos ↔
      pos = byteLength text ∨ ∃ b, (utf8 text)[pos]? = some b ∧ b.IsUTF8FirstByte := by
  constructor
  · rintro ⟨rest, hrest⟩
    cases rest with
    | nil => exact .inl hrest.pos_add_byteLength
    | cons c cs =>
      have hne : String.utf8EncodeChar c ≠ [] := String.utf8EncodeChar_ne_nil
      have hbyte := hrest.getElem?_utf8
      rw [utf8, List.head?_append_of_ne_nil _ hne, List.head?_eq_some_head hne,
        List.head_eq_getElem] at hbyte
      exact .inr ⟨_, hbyte, UInt8.isUTF8FirstByte_getElem_utf8EncodeChar.mpr rfl⟩
  · induction text generalizing pos with
    | nil =>
      rintro (rfl | ⟨b, hb, -⟩)
      · exact ⟨[], .zero []⟩
      · cases hb
    | cons c cs ih =>
      intro h
      by_cases hle : c.utf8Size ≤ pos
      · -- Behind the first character the offset is one of the remaining text.
        obtain ⟨rest, before, rfl, hbefore⟩ : IsBoundary cs (pos - c.utf8Size) := by
          apply ih
          rcases h with rfl | ⟨b, hb, hfirst⟩
          · exact .inl (Nat.add_sub_cancel_left _ _)
          · rw [utf8, List.getElem?_append_right (by rwa [String.length_utf8EncodeChar]),
              String.length_utf8EncodeChar] at hb
            exact .inr ⟨b, hb, hfirst⟩
        refine ⟨rest, c :: before, rfl, ?_⟩
        rw [byteLength_cons, hbefore]
        omega
      · -- Of the bytes of the first character only the first one begins it.
        rcases h with rfl | ⟨b, hb, hfirst⟩
        · rw [byteLength_cons] at hle
          omega
        · rw [utf8, List.getElem?_append_left (by rw [String.length_utf8EncodeChar]; omega)] at hb
          obtain ⟨hlt, rfl⟩ := List.getElem?_eq_some_iff.mp hb
          rw [UInt8.isUTF8FirstByte_getElem_utf8EncodeChar.mp hfirst]
          exact ⟨c :: cs, .zero _⟩

/-- Where the bytes of some characters stand among those of a text, the text goes on with these
characters. -/
lemma splitsAt_of_utf8_eq {c : Char} {cs text : List Char} {front back : List UInt8}
    (h : utf8 text = front ++ (utf8 (c :: cs) ++ back)) :
    ∃ rest, SplitsAt text front.length rest ∧ utf8 rest = utf8 (c :: cs) ++ back := by
  have hne : String.utf8EncodeChar c ≠ [] := String.utf8EncodeChar_ne_nil
  have hbyte : (utf8 text)[front.length]? = some ((String.utf8EncodeChar c).head hne) := by
    rw [h, List.getElem?_append_right (Nat.le_refl _), Nat.sub_self, ← List.head?_eq_getElem?,
      utf8, List.append_assoc, List.head?_append_of_ne_nil _ hne, List.head?_eq_some_head hne]
  have hboundary : IsBoundary text front.length := by
    rw [isBoundary_iff]
    refine .inr ⟨_, hbyte, ?_⟩
    rw [List.head_eq_getElem]
    exact UInt8.isUTF8FirstByte_getElem_utf8EncodeChar.mpr rfl
  obtain ⟨rest, hrest⟩ := hboundary
  refine ⟨rest, hrest, ?_⟩
  rw [← hrest.drop_utf8, h, List.drop_left]

/-- The rest of a text is known by its bytes, if it has any. -/
lemma suffix_of_utf8_suffix {c : Char} {cs text : List Char} (h : utf8 (c :: cs) <:+ utf8 text) :
    c :: cs <:+ text := by
  obtain ⟨front, hfront⟩ := h
  have hback : utf8 text = front ++ (utf8 (c :: cs) ++ []) := by rw [List.append_nil, hfront]
  obtain ⟨rest, ⟨before, rfl, -⟩, hbytes⟩ := splitsAt_of_utf8_eq hback
  rw [List.append_nil] at hbytes
  rw [utf8_injective hbytes]
  exact List.suffix_append _ _

/-- Characters occur in a text if and only if their bytes occur among those of the text. -/
theorem utf8_infix_utf8_iff {c : Char} {cs text : List Char} :
    utf8 (c :: cs) <:+: utf8 text ↔ c :: cs <:+: text := by
  constructor
  · rintro ⟨front, back, hfront⟩
    rw [List.append_assoc] at hfront
    obtain ⟨rest, ⟨before, rfl, -⟩, hbytes⟩ := splitsAt_of_utf8_eq hfront.symm
    have hstart : c :: cs <+: rest := utf8_prefix_utf8_iff.mp ⟨back, hbytes.symm⟩
    exact hstart.isInfix.trans (List.suffix_append before rest).isInfix
  · rintro ⟨before, after, rfl⟩
    exact ⟨utf8 before, utf8 after, by rw [utf8_append, utf8_append]⟩

end InlineExpect.Text
