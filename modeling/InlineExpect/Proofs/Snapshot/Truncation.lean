import Mathlib
import InlineExpect.Proofs.Comment.Bytewise.Loops
import InlineExpect.Proofs.Text.LastLine
import InlineExpect.Snapshot.Recording

/-!
# Types that are cut

The text of a type that is too long is cut to the characters that fit, and three points are put
behind them.  What is kept is the longest beginning of the text with so many bytes at most
(`takeBytes_isLongest`): the next character does not fit, and no character has more than four bytes,
so that at most three bytes are given away.

The place of the cut can as well be looked for among the bytes, back from the greatest number of
them, until it is no longer inside of a character (`boundaryRound`).  The search comes to an end
within four rounds, since a place behind it would be a boundary that fits (`loop_boundaryRound`),
and what stands before it are the characters that fit (`truncateBytes_utf8`).
-/

namespace InlineExpect

open Text Comment.Bytewise

/-! ### The longest beginning that fits -/

/-- The number of bytes of a text is that of its characters. -/
lemma utf8ByteSize_eq_byteLength (text : String) :
    text.utf8ByteSize = byteLength text.toList := by
  have hlen : ∀ cs : List Char, String.utf8Len cs = byteLength cs := by
    intro cs
    induction cs with
    | nil => rfl
    | cons c cs ih => rw [String.utf8Len_cons, ih, byteLength_cons, Nat.add_comm]
  rw [← hlen, ← String.utf8ByteSize_ofList, String.ofList_toList]

/-- A beginning of a text that ends at the last boundary among its first bytes. -/
structure IsLongestFront (n : Nat) (text front : List Char) : Prop where
  startsText : front <+: text
  utf8_eq : utf8 front = (utf8 text).take (byteLength front)
  isGreatest : IsGreatest {pos | IsBoundary text pos ∧ pos ≤ n} (byteLength front)

/-- What is taken fits. -/
lemma byteLength_takeBytes_le (n : Nat) (cs : List Char) : byteLength (takeBytes n cs) ≤ n := by
  induction cs generalizing n with
  | nil => exact Nat.zero_le n
  | cons c cs ih =>
    rw [takeBytes]
    split
    · rename_i hle
      have htail := ih (n - c.utf8Size)
      rw [byteLength_cons]
      omega
    · exact Nat.zero_le n

/-- What is taken is a beginning of the text, and the character behind it does not fit. -/
lemma exists_eq_takeBytes_append (n : Nat) (cs : List Char) :
    ∃ rest, cs = takeBytes n cs ++ rest ∧
      ∀ c ∈ rest.head?, n < byteLength (takeBytes n cs) + c.utf8Size := by
  induction cs generalizing n with
  | nil => exact ⟨[], rfl, nofun⟩
  | cons c cs ih =>
    rw [takeBytes]
    split
    · rename_i hle
      obtain ⟨rest, hrest, hnext⟩ := ih (n - c.utf8Size)
      refine ⟨rest, congrArg (c :: ·) hrest, fun d hd => ?_⟩
      have hlt := hnext d hd
      rw [byteLength_cons]
      omega
    · rename_i hlt
      refine ⟨c :: cs, rfl, fun d hd => ?_⟩
      obtain rfl : c = d := Option.some.inj hd
      rw [byteLength_nil]
      omega

/-- The bytes of a beginning of a text are the first bytes of the text. -/
lemma utf8_eq_take {front text : List Char} (h : front <+: text) :
    utf8 front = (utf8 text).take (byteLength front) := by
  obtain ⟨rest, rfl⟩ := h
  rw [utf8_append, ← length_utf8, List.take_left]

/-- The characters that fit are the longest beginning of a text with so many bytes. -/
lemma takeBytes_isLongest (n : Nat) (text : List Char) :
    IsLongestFront n text (takeBytes n text) := by
  obtain ⟨rest, hrest, hnext⟩ := exists_eq_takeBytes_append n text
  have hstarts : takeBytes n text <+: text := ⟨rest, hrest.symm⟩
  have hboundary : IsBoundary text (byteLength (takeBytes n text)) := ⟨rest, _, hrest, rfl⟩
  refine ⟨hstarts, utf8_eq_take hstarts, ⟨hboundary, byteLength_takeBytes_le n text⟩, ?_⟩
  · rintro _ ⟨⟨rest', before, htext, rfl⟩, hle⟩
    by_contra hlt
    rw [not_le] at hlt
    -- A longer beginning would have the next character.
    obtain ⟨more, hmore⟩ := prefix_of_byteLength_le (hrest.symm.trans htext) hlt.le
    rw [← hmore, byteLength_append] at hlt hle
    cases more with
    | nil => exact absurd hlt (lt_irrefl _)
    | cons c more =>
      have hhead : c ∈ rest.head? := by
        rw [hrest, ← hmore, List.append_assoc] at htext
        rw [List.append_cancel_left htext]
        rfl
      have hbytes := hnext c hhead
      rw [byteLength_cons] at hle
      omega

/-- A text that does not fit is cut at most three bytes before the greatest number of them. -/
lemma le_byteLength_takeBytes {n : Nat} {text : List Char} (h : n < byteLength text) :
    n ≤ byteLength (takeBytes n text) + 3 := by
  obtain ⟨rest, hrest, hnext⟩ := exists_eq_takeBytes_append n text
  cases rest with
  | nil =>
    rw [List.append_nil] at hrest
    rw [← hrest]
    omega
  | cons c rest =>
    have hlt := hnext c rfl
    have hsize := c.utf8Size_le_four
    omega

/-! ### The search for the cut -/

/-- Whether an offset is a boundary, from the byte that stands there. -/
def isBoundaryAt (bytes : List UInt8) (pos : Nat) : Bool :=
  pos == 0 || pos == bytes.length || (bytes[pos]?).any fun b => decide b.IsUTF8FirstByte

/-- Goes back a byte, unless the offset is a boundary. -/
def boundaryRound (bytes : List UInt8) (pos : Nat) : Except Fault (Round Nat Nat) := do
  if isBoundaryAt bytes pos then return .done pos
  else return .next (← decrement pos)

/-- Cuts the bytes of a text that is too long, with so many rounds to look for the place. -/
def truncateBytes (rounds : Nat) (bytes : List UInt8) : Except Fault (List UInt8) := do
  if bytes.length ≤ maxTypeLength then return bytes
  else
    let cut ← loop (boundaryRound bytes) rounds (maxTypeLength - 3)
    return (← slice bytes 0 cut) ++ utf8 ['.', '.', '.']

/-- Boundaries are known by the byte that stands there. -/
lemma isBoundaryAt_utf8_iff {text : List Char} {pos : Nat} :
    isBoundaryAt (utf8 text) pos = true ↔ IsBoundary text pos := by
  rw [isBoundaryAt, Bool.or_eq_true, Bool.or_eq_true, beq_iff_eq, beq_iff_eq, length_utf8,
    Option.any_eq_true, isBoundary_iff]
  simp only [decide_eq_true_iff]
  constructor
  · rintro ((rfl | hend) | hfirst)
    · exact isBoundary_iff.mp (SplitsAt.zero text).isBoundary
    · exact .inl hend
    · exact .inr hfirst
  · rintro (hend | hfirst)
    · exact .inl (.inr hend)
    · exact .inr hfirst

/-- The search ends at the last boundary before the place where it begins, if it has a round for
each byte that it goes back, and one more. -/
lemma loop_boundaryRound {text : List Char} {b pos rounds : Nat}
    (h : IsGreatest {i | IsBoundary text i ∧ i ≤ pos} b) (hrounds : pos < b + rounds) :
    loop (boundaryRound (utf8 text)) rounds pos = .ok b := by
  obtain ⟨⟨hb, hle⟩, hupper⟩ := h
  induction pos generalizing rounds with
  | zero =>
    obtain rfl : b = 0 := Nat.le_zero.mp hle
    apply loop_of_done _ (by omega)
    rw [boundaryRound, if_pos (isBoundaryAt_utf8_iff.mpr hb)]
    rfl
  | succ pos ih =>
    by_cases hpos : IsBoundary text (pos + 1)
    · obtain rfl : pos + 1 = b := le_antisymm (hupper ⟨hpos, le_rfl⟩) hle
      apply loop_of_done _ (by omega)
      rw [boundaryRound, if_pos (isBoundaryAt_utf8_iff.mpr hpos)]
      rfl
    · have hne : b ≠ pos + 1 := by
        rintro rfl
        exact hpos hb
      have hround : boundaryRound (utf8 text) (pos + 1) = .ok (.next pos) := by
        rw [boundaryRound, if_neg (mt isBoundaryAt_utf8_iff.mp hpos)]
        rfl
      rw [loop_of_next hround (by omega)]
      refine ih (by omega) (fun i hi => hupper ?_) (by omega)
      exact ⟨hi.1, hi.2.trans (Nat.le_succ pos)⟩

/-- Cutting the bytes of a text gives the bytes of the text that is cut. -/
lemma truncateBytes_utf8 (text : String) {rounds : Nat} (h : 4 ≤ rounds) :
    truncateBytes rounds (utf8 text.toList) = .ok (utf8 (truncateType text).toList) := by
  rw [truncateBytes, truncateType, length_utf8, utf8ByteSize_eq_byteLength]
  split
  · rfl
  · rename_i hlt
    have hfront := takeBytes_isLongest (maxTypeLength - 3) text.toList
    have hle := le_byteLength_takeBytes (show maxTypeLength - 3 < byteLength text.toList by
      rw [maxTypeLength] at hlt ⊢
      omega)
    obtain ⟨rest, hrest⟩ := hfront.startsText
    have hslice := slice_utf8 (SplitsAt.zero (takeBytes (maxTypeLength - 3) text.toList ++ rest))
    rw [Nat.zero_add, hrest] at hslice
    rw [loop_boundaryRound hfront.isGreatest (by omega), ok_bind, hslice, ok_bind,
      String.toList_ofList, utf8_append]
    rfl

/-! ### The texts of types -/

/-- How the text of a type is shown in a format. -/
structure TypeFormat.Shows (format : TypeFormat) (text shown : String) : Prop where
  /-- In full length, if that is asked for. -/
  whole : format.noTruncation = true → shown = text
  /-- As it is, if it is not too long. -/
  short : format.noTruncation = false → byteLength text.toList ≤ 160 → shown = text
  /-- Otherwise as the longest beginning that leaves room for three points, and the points. -/
  long : format.noTruncation = false → 160 < byteLength text.toList →
    ∃ front, shown.toList = front ++ ['.', '.', '.'] ∧ IsLongestFront 157 text.toList front ∧
      154 ≤ byteLength front ∧ byteLength shown.toList ≤ 160
  /-- The bytes of what is shown are those that the search for the place of the cut leads to. -/
  bytes : format.noTruncation = false → ∀ rounds, 4 ≤ rounds →
    truncateBytes rounds (utf8 text.toList) = .ok (utf8 shown.toList)

/-- A text that is not too long is not cut. -/
lemma truncateType_of_le {text : String} (h : byteLength text.toList ≤ 160) :
    truncateType text = text := by
  rw [truncateType, utf8ByteSize_eq_byteLength, maxTypeLength, if_pos h]

/-- A text that is too long is cut. -/
lemma truncateType_of_lt {text : String} (h : 160 < byteLength text.toList) :
    (truncateType text).toList = takeBytes 157 text.toList ++ ['.', '.', '.'] := by
  rw [truncateType, utf8ByteSize_eq_byteLength, maxTypeLength, if_neg (not_le.mpr h),
    String.toList_ofList]

namespace TypeFormat

variable {format : TypeFormat}

/-- A text is shown in full length. -/
lemma shows_whole (h : format.noTruncation = true) (text : String) : format.Shows text text := by
  have hne : format.noTruncation ≠ false := by
    rw [h]
    exact Bool.noConfusion
  exact ⟨fun _ => rfl, fun h' => absurd h' hne, fun h' => absurd h' hne, fun h' => absurd h' hne⟩

/-- A text is shown cut, if it is too long. -/
lemma shows_truncateType (h : format.noTruncation = false) (text : String) :
    format.Shows text (truncateType text) := by
  have hne : format.noTruncation ≠ true := by
    rw [h]
    exact Bool.noConfusion
  refine ⟨fun h' => absurd h' hne, fun _ => truncateType_of_le, fun _ hlt => ?_,
    fun _ rounds => truncateBytes_utf8 text⟩
  have hfront := takeBytes_isLongest 157 text.toList
  have hfits : byteLength (takeBytes 157 text.toList) ≤ 157 := hfront.isGreatest.1.2
  have hlong := le_byteLength_takeBytes (show 157 < byteLength text.toList by omega)
  refine ⟨_, truncateType_of_lt hlt, hfront, by omega, ?_⟩
  have hpoints : byteLength ['.', '.', '.'] = 3 := rfl
  rw [truncateType_of_lt hlt, byteLength_append, hpoints]
  omega

end TypeFormat

namespace Recording

/-- The text of the type of a node was recorded. -/
def RecordsType (r : Recording) (file : String) (node : NodeId) (text : String) : Prop :=
  ∃ f, r.file file = .ok f ∧ node < f.tree.size ∧ f.types.lookup node = some text

/-- The text of a type that was recorded is shown as the format says: in full length, or cut to the
longest beginning of whole characters that fits. -/
theorem typeText_shows {r : Recording} {file : String} {node : NodeId} {text : String}
    (h : r.RecordsType file node text) (format : TypeFormat) :
    ∃ shown, r.typeText file node format = .ok shown ∧ format.Shows text shown := by
  obtain ⟨f, hf, hnode, htype⟩ := h
  have hanswer : r.typeText file node format =
      .ok (if format.noTruncation then text else truncateType text) := by
    rw [typeText, hf]
    change (if node < f.tree.size then _ else _) = _
    rw [if_pos hnode, htype]
    rfl
  cases hformat : format.noTruncation with
  | true =>
    rw [hformat] at hanswer
    exact ⟨text, hanswer, TypeFormat.shows_whole hformat text⟩
  | false =>
    rw [hformat] at hanswer
    exact ⟨truncateType text, hanswer, TypeFormat.shows_truncateType hformat text⟩

/-- A text of 161 bytes, with a character of two bytes at the 157th. -/
def longType : String := String.ofList (List.replicate 156 'x' ++ 'é' :: List.replicate 3 'y')

/-- A recording of a file whose root has the long text for its type. -/
def longRecording : Recording :=
  ⟨none, [("a.ts", ⟨(TreeBuilder.start "a.ts" ⟨0, 0⟩).finish, [(0, longType)], []⟩)]⟩

/-- The long text is shown cut. -/
theorem typeText_longRecording : longRecording.RecordsType "a.ts" 0 longType ∧
    ∃ shown, longRecording.typeText "a.ts" 0 {} = .ok shown ∧
      TypeFormat.Shows {} longType shown := by
  have h : longRecording.RecordsType "a.ts" 0 longType := ⟨_, rfl, Nat.zero_lt_one, rfl⟩
  exact ⟨h, typeText_shows h {}⟩

-- The character of two bytes is left out as a whole.
example : (truncateType longType).toList = List.replicate 156 'x' ++ ['.', '.', '.'] := by
  have hlong : longType.toList = List.replicate 156 'x' ++ 'é' :: List.replicate 3 'y' :=
    String.toList_ofList
  rw [truncateType_of_lt (by rw [hlong]; decide +kernel), hlong]
  decide +kernel

end Recording

end InlineExpect
