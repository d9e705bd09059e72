import Mathlib
import InlineExpect.Text.LineBreak
import InlineExpect.Proofs.Text.LineOf

/-!
# Where lines start

A line index finds the lines of a text by looking at its bytes.  `Text.lineStartsFrom` finds them by
looking at its characters, and both find the same lines (`Text.startsAfter_utf8`), since the bytes
of a character that is no line break neither are nor begin the bytes of one.  So a line starts at an
offset other than zero exactly if the text before the offset ends a line, where CR and LF together
are one line break (`Text.mem_lineStartsFrom_iff`).
-/

namespace InlineExpect

namespace Text

/-! ### Bytes of characters that are no line breaks -/

/-- A byte that neither ends a line nor is the first one of a line separator. -/
def IsPlainByte (b : UInt8) : Prop := b ≠ 0x0A ∧ b ≠ 0x0D ∧ b ≠ 0xE2

/-- Bytes with different numbers are different. -/
lemma ofNat_ne_ofNat {m n : Nat} (hm : m < 256) (hn : n < 256) (hne : m ≠ n) :
    UInt8.ofNat m ≠ UInt8.ofNat n := by
  intro h
  have hval := congrArg UInt8.toNat h
  rw [UInt8.toNat_ofNat_of_lt' hm, UInt8.toNat_ofNat_of_lt' hn] at hval
  exact hne hval

/-- The number of a byte tells whether it is plain. -/
lemma isPlainByte_ofNat {n : Nat} (hn : n < 256) (hlf : n ≠ 0x0A) (hcr : n ≠ 0x0D)
    (hlead : n ≠ 0xE2) : IsPlainByte (UInt8.ofNat n) :=
  ⟨ofNat_ne_ofNat hn (by decide) hlf, ofNat_ne_ofNat hn (by decide) hcr,
    ofNat_ne_ofNat hn (by decide) hlead⟩

/-- The bytes of a character after its first one are plain. -/
lemma isPlainByte_continuation (n : Nat) : IsPlainByte (UInt8.ofNat (n % 64 + 128)) := by
  have hlt : n % 64 < 64 := Nat.mod_lt n (by decide)
  exact isPlainByte_ofNat (by omega) (by omega) (by omega) (by omega)

/-- The line breaks by their numbers. -/
lemma isLineBreak_iff {c : Char} : isLineBreak c = true ↔
    c.val.toNat = 0x0A ∨ c.val.toNat = 0x0D ∨ c.val.toNat = 0x2028 ∨ c.val.toNat = 0x2029 := by
  have key : ∀ d : Char, c = d ↔ c.val.toNat = d.val.toNat := by
    intro d
    rw [Char.ext_iff, UInt32.toNat_inj]
  simp only [isLineBreak, Bool.or_eq_true, beq_iff_eq, key, or_assoc]
  rfl

/-- The bytes of a character that is no line break are plain, or begin as those of the line
separators do and go on in another way. -/
lemma utf8EncodeChar_of_not_lineBreak {c : Char} (hc : isLineBreak c = false) :
    (∀ b ∈ String.utf8EncodeChar c, IsPlainByte b) ∨
      ∃ b₁ b₂, String.utf8EncodeChar c = [0xE2, b₁, b₂] ∧ (∀ b ∈ [b₁, b₂], IsPlainByte b) ∧
        ¬ (b₁ = 0x80 ∧ (b₂ = 0xA8 ∨ b₂ = 0xA9)) := by
  rw [Bool.eq_false_iff, Ne, isLineBreak_iff] at hc
  unfold String.utf8EncodeChar
  set v := c.val.toNat
  dsimp only
  split_ifs with hone htwo hthree
  · left
    intro b hb
    rw [List.mem_singleton.mp hb]
    exact isPlainByte_ofNat (by omega) (by omega) (by omega) (by omega)
  · left
    refine List.forall_mem_cons.mpr ⟨?_, List.forall_mem_singleton.mpr (isPlainByte_continuation v)⟩
    exact isPlainByte_ofNat (by omega) (by omega) (by omega) (by omega)
  · have hrest : ∀ b ∈ [UInt8.ofNat (v / 64 % 64 + 128), UInt8.ofNat (v % 64 + 128)],
        IsPlainByte b := by
      intro b hb
      rcases List.mem_pair.mp hb with rfl | rfl
      · exact isPlainByte_continuation _
      · exact isPlainByte_continuation _
    by_cases hlead : v / 4096 % 16 + 224 = 0xE2
    · right
      refine ⟨_, _, by rw [hlead]; rfl, hrest, ?_⟩
      rintro ⟨h₁, h₂⟩
      have hv₁ : v / 64 % 64 + 128 = 0x80 := by
        by_contra hne
        exact ofNat_ne_ofNat (by omega) (by decide) hne h₁
      have hv₂ : v % 64 + 128 = 0xA8 ∨ v % 64 + 128 = 0xA9 := by
        by_contra hne
        rw [not_or] at hne
        rcases h₂ with h₂ | h₂
        · exact ofNat_ne_ofNat (by omega) (by decide) hne.1 h₂
        · exact ofNat_ne_ofNat (by omega) (by decide) hne.2 h₂
      omega
    · left
      refine List.forall_mem_cons.mpr ⟨?_, hrest⟩
      exact isPlainByte_ofNat (by omega) (by omega) (by omega) hlead
  · left
    have hlead : IsPlainByte (UInt8.ofNat (v / 262144 % 8 + 240)) :=
      isPlainByte_ofNat (by omega) (by omega) (by omega) (by omega)
    simp only [List.forall_mem_cons, List.not_mem_nil, false_imp_iff, implies_true, and_true]
    exact ⟨hlead, isPlainByte_continuation _, isPlainByte_continuation _,
      isPlainByte_continuation _⟩

/-! ### Lines by bytes -/

/-- No line starts behind plain bytes. -/
lemma startsAfter_append_of_plain {bytes : List UInt8} (h : ∀ b ∈ bytes, IsPlainByte b) (pos : Nat)
    (tail : List UInt8) :
    startsAfter pos (bytes ++ tail) = startsAfter (pos + bytes.length) tail := by
  induction bytes generalizing pos with
  | nil => rfl
  | cons b bytes ih =>
    obtain ⟨hlf, hcr, hlead⟩ := h b List.mem_cons_self
    have hrest : ∀ b' ∈ bytes, IsPlainByte b' := fun b' hb' => h b' (List.mem_cons_of_mem b hb')
    rw [List.cons_append, startsAfter.eq_def]
    dsimp only
    rw [if_neg hlf, if_neg hcr, if_neg hlead, ih hrest, List.length_cons, Nat.add_assoc,
      Nat.add_comm 1]

/-- No line starts behind a first byte of a line separator that goes on in another way. -/
lemma startsAfter_cons_lead {b₁ b₂ : UInt8} (h : ¬ (b₁ = 0x80 ∧ (b₂ = 0xA8 ∨ b₂ = 0xA9)))
    (pos : Nat) (tail : List UInt8) :
    startsAfter pos (0xE2 :: b₁ :: b₂ :: tail) = startsAfter (pos + 1) (b₁ :: b₂ :: tail) := by
  rw [startsAfter.eq_def]
  dsimp only
  rw [if_neg (by decide), if_neg (by decide), if_pos rfl, if_neg h]

/-- No line starts behind a character that is no line break. -/
lemma startsAfter_utf8EncodeChar {c : Char} (hc : isLineBreak c = false) (pos : Nat)
    (tail : List UInt8) : startsAfter pos (String.utf8EncodeChar c ++ tail) =
      startsAfter (pos + c.utf8Size) tail := by
  rw [← String.length_utf8EncodeChar c]
  rcases utf8EncodeChar_of_not_lineBreak hc with hplain | ⟨b₁, b₂, hbytes, hrest, hother⟩
  · exact startsAfter_append_of_plain hplain pos tail
  · have hskip := startsAfter_append_of_plain hrest (pos + 1) tail
    rw [hbytes]
    exact (startsAfter_cons_lead hother pos tail).trans hskip

/-! ### Lines by characters -/

/-- The offsets at which lines start behind the line breaks of a text that begins at an offset.  CR
and LF together are one line break. -/
def lineStartsFrom (pos : Nat) : List Char → List Nat
  | [] => []
  | '\r' :: '\n' :: cs => (pos + 2) :: lineStartsFrom (pos + 2) cs
  | c :: cs =>
    if isLineBreak c then (pos + c.utf8Size) :: lineStartsFrom (pos + c.utf8Size) cs
    else lineStartsFrom (pos + c.utf8Size) cs

/-- A line starts behind a character that is a line break, unless LF follows CR. -/
lemma startsAfter_utf8EncodeChar_of_lineBreak {c : Char} (hc : isLineBreak c = true) (pos : Nat)
    {tail : List UInt8} (hcrlf : c = '\r' → tail.head? ≠ some 0x0A) :
    startsAfter pos (String.utf8EncodeChar c ++ tail) =
      (pos + c.utf8Size) :: startsAfter (pos + c.utf8Size) tail := by
  simp only [isLineBreak, Bool.or_eq_true, beq_iff_eq] at hc
  rcases hc with ((rfl | rfl) | rfl) | rfl
  · exact startsAfter.eq_def pos (0x0A :: tail)
  · change startsAfter pos (0x0D :: tail) = _
    rw [startsAfter.eq_def]
    cases tail with
    | nil => rfl
    | cons b tail =>
      have hb : b ≠ 0x0A := fun h => hcrlf rfl (by rw [h]; rfl)
      dsimp only
      rw [if_neg (by decide), if_pos rfl, if_neg hb]
      rfl
  · exact startsAfter.eq_def pos (0xE2 :: 0x80 :: 0xA8 :: tail)
  · exact startsAfter.eq_def pos (0xE2 :: 0x80 :: 0xA9 :: tail)

/-- The bytes of a text begin with LF only if the text does. -/
lemma exists_cons_of_head?_utf8 {cs : List Char} (h : (utf8 cs).head? = some 0x0A) :
    ∃ rest, cs = '\n' :: rest := by
  cases cs with
  | nil => simp [utf8] at h
  | cons c cs =>
    suffices hc : c = '\n' from ⟨cs, by rw [hc]⟩
    have hhead : (String.utf8EncodeChar c).head? = some 0x0A := by
      have hne : String.utf8EncodeChar c ≠ [] := by
        have hpos := c.utf8Size_pos
        rw [← String.length_utf8EncodeChar] at hpos
        exact List.length_pos_iff.mp hpos
      rwa [utf8, List.head?_append_of_ne_nil _ hne] at h
    have hmem : (0x0A : UInt8) ∈ String.utf8EncodeChar c := List.mem_of_head? hhead
    by_cases hbreak : isLineBreak c = true
    · simp only [isLineBreak, Bool.or_eq_true, beq_iff_eq] at hbreak
      rcases hbreak with ((rfl | rfl) | rfl) | rfl
      · rfl
      · exact absurd hmem (by decide)
      · exact absurd hmem (by decide)
      · exact absurd hmem (by decide)
    · rcases utf8EncodeChar_of_not_lineBreak (Bool.eq_false_iff.mpr hbreak) with hplain | hother
      · exact absurd rfl (hplain _ hmem).1
      · obtain ⟨b₁, b₂, hbytes, -, -⟩ := hother
        rw [hbytes] at hhead
        exact absurd (Option.some.inj hhead) (by decide)

/-- The lines of a text by bytes are its lines by characters. -/
theorem startsAfter_utf8 (pos : Nat) (text : List Char) :
    startsAfter pos (utf8 text) = lineStartsFrom pos text := by
  fun_induction lineStartsFrom pos text with
  | case1 pos => exact startsAfter.eq_def pos []
  | case2 pos cs ih =>
    rw [← ih]
    exact startsAfter.eq_def pos (0x0D :: 0x0A :: utf8 cs)
  | case3 pos c cs hcrlf hbreak ih =>
    rw [utf8, startsAfter_utf8EncodeChar_of_lineBreak hbreak, ih]
    intro hcr hlf
    obtain ⟨rest, hrest⟩ := exists_cons_of_head?_utf8 hlf
    exact hcrlf rest hcr hrest
  | case4 pos c cs hcrlf hbreak ih =>
    rw [utf8, startsAfter_utf8EncodeChar (by simpa using hbreak), ih]

/-- A piece of a text ends a line if its last character is a line break and the text goes on with
anything but the LF of a CR LF. -/
def EndsLine (piece rest : List Char) : Prop :=
  ∃ c, piece.getLast? = some c ∧ isLineBreak c = true ∧ ¬ (c = '\r' ∧ rest.head? = some '\n')

/-- A line starts at an offset of a text that begins at the offset `pos` if the text before the
offset ends a line. -/
def LineStartsAt (pos : Nat) (text : List Char) (p : Nat) : Prop :=
  ∃ piece rest, text = piece ++ rest ∧ EndsLine piece rest ∧ p = pos + byteLength piece

/-- Only the end of a piece of a text matters for whether it ends a line. -/
lemma endsLine_append (before : List Char) {piece rest : List Char} (hne : piece ≠ []) :
    EndsLine (before ++ piece) rest ↔ EndsLine piece rest := by
  unfold EndsLine
  rw [List.getLast?_append_of_ne_nil _ hne]

/-- A piece that ends a line has a last character. -/
lemma EndsLine.ne_nil {piece rest : List Char} (h : EndsLine piece rest) : piece ≠ [] := by
  rintro rfl
  obtain ⟨c, hc, -⟩ := h
  simp at hc

/-- A single character ends a line if it is a line break, unless it is CR and LF follows. -/
lemma endsLine_singleton_iff {c : Char} {rest : List Char} : EndsLine [c] rest ↔
    isLineBreak c = true ∧ ¬ (c = '\r' ∧ rest.head? = some '\n') := by
  constructor
  · rintro ⟨d, hd, hbreak⟩
    obtain rfl : c = d := by simpa using hd
    exact hbreak
  · intro h
    exact ⟨c, rfl, h⟩

/-- Nothing starts in a text without characters. -/
lemma not_lineStartsAt_nil (pos p : Nat) : ¬ LineStartsAt pos [] p := by
  rintro ⟨piece, rest, htext, hends, -⟩
  exact hends.ne_nil (List.append_eq_nil_iff.mp htext.symm).1

/-- A line starts behind the first character of a text or in what follows. -/
lemma lineStartsAt_cons_iff {pos p : Nat} {c : Char} {cs : List Char} :
    LineStartsAt pos (c :: cs) p ↔
      (EndsLine [c] cs ∧ p = pos + c.utf8Size) ∨ LineStartsAt (pos + c.utf8Size) cs p := by
  constructor
  · rintro ⟨piece, rest, htext, hends, hp⟩
    obtain ⟨d, piece, rfl⟩ := List.exists_cons_of_ne_nil hends.ne_nil
    obtain ⟨rfl, rfl⟩ := List.cons.inj htext
    rw [byteLength_cons] at hp
    by_cases hpiece : piece = []
    · subst hpiece
      exact .inl ⟨hends, hp⟩
    · right
      refine ⟨piece, rest, rfl, (endsLine_append [c] hpiece).mp hends, ?_⟩
      rw [hp, Nat.add_assoc]
  · rintro (⟨hends, hp⟩ | ⟨piece, rest, rfl, hends, hp⟩)
    · exact ⟨[c], cs, rfl, hends, hp⟩
    · refine ⟨c :: piece, rest, rfl, (endsLine_append [c] hends.ne_nil).mpr hends, ?_⟩
      rw [hp, byteLength_cons, Nat.add_assoc]

/-- A line that starts in the rest of a text starts in the text. -/
lemma LineStartsAt.append_left {pos p : Nat} {before text : List Char}
    (h : LineStartsAt (pos + byteLength before) text p) : LineStartsAt pos (before ++ text) p := by
  obtain ⟨piece, rest, rfl, hends, hp⟩ := h
  refine ⟨before ++ piece, rest, (List.append_assoc _ _ _).symm, ?_, ?_⟩
  · exact (endsLine_append before hends.ne_nil).mpr hends
  · rw [hp, byteLength_append, Nat.add_assoc]

/-- The lines that start in a text are those that its characters start. -/
theorem mem_lineStartsFrom_iff {pos p : Nat} {text : List Char} :
    p ∈ lineStartsFrom pos text ↔ LineStartsAt pos text p := by
  fun_induction lineStartsFrom pos text with
  | case1 pos =>
    simp [not_lineStartsAt_nil]
  | case2 pos cs ih =>
    have hcr : ¬ EndsLine ['\r'] ('\n' :: cs) := by
      rw [endsLine_singleton_iff]
      exact fun h => h.2 ⟨rfl, rfl⟩
    have hlf : EndsLine ['\n'] cs := by
      rw [endsLine_singleton_iff]
      exact ⟨rfl, fun h => absurd h.1 (by decide)⟩
    have hsize : pos + Char.utf8Size '\r' + Char.utf8Size '\n' = pos + 2 := rfl
    rw [lineStartsAt_cons_iff, lineStartsAt_cons_iff, hsize, ← ih, List.mem_cons]
    simp only [hcr, hlf, false_and, true_and, false_or]
  | case3 pos c cs hcrlf hbreak ih =>
    have hends : EndsLine [c] cs := by
      rw [endsLine_singleton_iff]
      refine ⟨hbreak, ?_⟩
      rintro ⟨hcr, hlf⟩
      obtain ⟨rest, hrest⟩ := List.head?_eq_some_iff.mp hlf
      exact hcrlf rest hcr hrest
    rw [lineStartsAt_cons_iff, ← ih, List.mem_cons]
    simp only [hends, true_and]
  | case4 pos c cs hcrlf hbreak ih =>
    have hends : ¬ EndsLine [c] cs := by
      rw [endsLine_singleton_iff]
      exact fun h => hbreak h.1
    rw [lineStartsAt_cons_iff, ← ih]
    simp only [hends, false_and, false_or]

end Text

namespace LineIndex

open Text

variable {text : List Char} {l m p q s : Nat}

/-- The lines of a text start at its beginning and behind its line breaks. -/
theorem mem_starts_iff : s ∈ (ofText text).starts ↔ s = 0 ∨ LineStartsAt 0 text s := by
  have hstarts : (ofText text).starts = (0 :: lineStartsFrom 0 text).toArray := by
    rw [← startsAfter_utf8]
    rfl
  rw [hstarts, List.mem_toArray, List.mem_cons, mem_lineStartsFrom_iff]

/-- An offset lies in a line before that of another one if a line starts between them. -/
lemma Contains.lt_of_lineStartsAt (hl : (ofText text).Contains l p)
    (hm : (ofText text).Contains m q) (hs : LineStartsAt 0 text s) (hps : p < s) (hsq : s ≤ q) :
    l < m := by
  obtain ⟨i, hi⟩ := Array.mem_iff_getElem?.mp (mem_starts_iff.mpr (.inr hs))
  obtain ⟨⟨a, ha, hap⟩, -⟩ := hl
  obtain ⟨-, hnext⟩ := hm
  have hli : l < i := by
    by_contra hle
    rcases (not_lt.mp hle).eq_or_lt with rfl | hlt
    · have hsame : s = a := Option.some.inj (hi.symm.trans ha)
      omega
    · have hsa := starts_lt_starts text hlt hi ha
      omega
  have him : i ≤ m := by
    by_contra hlt
    have hsize : i < (ofText text).starts.size := (Array.getElem?_eq_some_iff.mp hi).1
    have hget : (ofText text).starts[m + 1]? = some _ :=
      Array.getElem?_eq_getElem (show m + 1 < (ofText text).starts.size by omega)
    have hq := hnext _ hget
    rcases (show m + 1 ≤ i by omega).eq_or_lt with rfl | hmi
    · have hsame := Option.some.inj (hget.symm.trans hi)
      omega
    · have hlt' := starts_lt_starts text hmi hget hi
      omega
  exact hli.trans_le him

/-- The line of an offset is one of the lines. -/
lemma Contains.lt_lineCount {index : LineIndex} (h : index.Contains l p) : l < index.lineCount := by
  obtain ⟨⟨start, hstart, -⟩, -⟩ := h
  exact (Array.getElem?_eq_some_iff.mp hstart).1

end LineIndex

end InlineExpect
