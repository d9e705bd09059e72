import Mathlib
import InlineExpect.Snapshot.Directory
import InlineExpect.Version.Basic
import InlineExpect.Proofs.Text.Trim

/-!
# Reading and writing versions

A version is written as `next`, or as two numbers with a point between them.  What is read back is a
little more: the numbers may have leading zeros, white space may stand around the whole text, and
everything else is refused, numbers of more than 32 bits included (`Version.Reads`).  Since digits
are no point, the first point of such a text is the only one, and splitting there finds the two
numbers (`Version.ofTrimmed?_eq_some_release_iff`).

A version that is written is read back (`Version.ofText_text`).  So the names of versions differ,
and with them the paths of their snapshots.
-/

namespace InlineExpect

namespace Text

/-! ### Decimal numbers -/

/-- One or more ASCII digits denote a number, leading zeros allowed. -/
structure Denotes (cs : List Char) (n : Nat) : Prop where
  ne_nil : cs ≠ []
  isDigit : ∀ c ∈ cs, c.isDigit = true
  value : Nat.ofDigitChars 10 cs 0 = n

/-- The value of digits is their decimal value. -/
lemma digitsValue_eq (cs : List Char) : digitsValue cs = Nat.ofDigitChars 10 cs 0 :=
  Nat.ofDigitChars_eq_foldl.symm

/-- A number is read from the digits that denote it. -/
lemma natOfDigits?_eq_some_iff_denotes {cs : List Char} {n : Nat} :
    natOfDigits? cs = some n ↔ Denotes cs n := by
  rw [natOfDigits?_eq_some_iff, digitsValue_eq]
  exact ⟨fun ⟨hne, hdigit, hvalue⟩ => ⟨hne, hdigit, hvalue⟩,
    fun h => ⟨h.ne_nil, h.isDigit, h.value⟩⟩

/-- The decimal digits of a number denote it. -/
lemma denotes_toDigits (n : Nat) : Denotes (Nat.toDigits 10 n) n where
  ne_nil := Nat.toDigits_ne_nil
  isDigit _ hc := Nat.isDigit_of_mem_toDigits (by decide) (by decide) hc
  value := Nat.ofDigitChars_ten_toDigits

variable {cs : List Char} {n : Nat}

/-- A digit is neither white space nor a point. -/
lemma of_isDigit {c : Char} (h : c.isDigit = true) : isBlank c = false ∧ c ≠ '.' := by
  obtain ⟨hge, hle⟩ := Char.isDigit_iff_toNat.mp h
  constructor
  · rw [← Bool.not_eq_true]
    intro hblank
    simp only [isBlank, Bool.or_eq_true, Bool.and_eq_true, beq_iff_eq, decide_eq_true_eq] at hblank
    rcases hblank with (((((((((⟨-, hle'⟩ | rfl) | rfl) | rfl) | rfl) | ⟨hge', -⟩) | rfl) | rfl) |
      rfl) | rfl) | rfl
    · have hlow : c.toNat ≤ '\r'.toNat := hle'
      exact absurd (hge.trans hlow) (by decide)
    · exact absurd h (by decide)
    · exact absurd h (by decide)
    · exact absurd h (by decide)
    · exact absurd h (by decide)
    · have hhigh : '\u2000'.toNat ≤ c.toNat := hge'
      exact absurd (hhigh.trans hle) (by decide)
    all_goals exact absurd h (by decide)
  · rintro rfl
    exact absurd h (by decide)

/-- Digits have no point among them. -/
lemma Denotes.ne_point (h : Denotes cs n) : ∀ c ∈ cs, (c != '.') = true := fun c hc =>
  bne_iff_ne.mpr (of_isDigit (h.isDigit c hc)).2

end Text

namespace Version

open Text

variable {cs : List Char} {v : Version}

/-- A text that consists of two numbers with a point between them. -/
def IsRelease (cs : List Char) (major minor : Nat) : Prop :=
  ∃ front back, cs = front ++ '.' :: back ∧ Denotes front major ∧ Denotes back minor

/-- What reading a trimmed text comes to: `next`, a release whose numbers have 32 bits, or a refusal
of everything else. -/
inductive Reads (cs : List Char) : Except VersionError Version → Prop
  | next (h : cs = ['n', 'e', 'x', 't']) : Reads cs (.ok .next)
  | release {major minor : UInt32} (h : IsRelease cs major.toNat minor.toNat) :
      Reads cs (.ok (.release major minor))
  | invalid (hnext : cs ≠ ['n', 'e', 'x', 't'])
      (h : ∀ major minor, IsRelease cs major minor → 2 ^ 32 ≤ major ∨ 2 ^ 32 ≤ minor) :
      Reads cs (.error (.invalid (String.ofList cs)))

/-- A text with a point is not `next`. -/
lemma IsRelease.ne_next {major minor : Nat} (h : IsRelease cs major minor) :
    cs ≠ ['n', 'e', 'x', 't'] := by
  obtain ⟨front, back, rfl, -, -⟩ := h
  intro hnext
  have hpoint : '.' ∈ ['n', 'e', 'x', 't'] := hnext ▸ List.mem_append_cons_self
  exact absurd hpoint (by decide)

/-- A part of a release is read from the digits that denote it. -/
lemma part?_eq_some_iff {n : UInt32} : part? cs = some n ↔ Denotes cs n.toNat := by
  rw [← natOfDigits?_eq_some_iff_denotes, part?]
  constructor
  · intro h
    split at h
    · rename_i m hm
      split at h
      · rename_i hlt
        obtain rfl := Option.some.inj h
        rw [hm, UInt32.toNat_ofNat_of_lt' hlt]
      · cases h
    · cases h
  · intro h
    rw [h]
    dsimp only
    rw [if_pos n.toNat_lt_size]
    exact congrArg some UInt32.ofNat_toNat

/-- The unreleased version is read from its name only. -/
lemma ofTrimmed?_eq_some_next_iff : ofTrimmed? cs = some .next ↔ cs = ['n', 'e', 'x', 't'] := by
  unfold ofTrimmed?
  constructor
  · intro h
    split at h
    · assumption
    · split at h
      · obtain ⟨major, -, h⟩ := Option.bind_eq_some_iff.mp h
        obtain ⟨minor, -, h⟩ := Option.bind_eq_some_iff.mp h
        cases h
      · cases h
  · exact fun h => if_pos h

/-- A release is read from two numbers with a point between them.  As digits are no point, the text
is split where the numbers meet. -/
lemma ofTrimmed?_eq_some_release_iff {major minor : UInt32} :
    ofTrimmed? cs = some (.release major minor) ↔ IsRelease cs major.toNat minor.toNat := by
  constructor
  · intro h
    unfold ofTrimmed? at h
    split at h
    · cases h
    · split at h
      · rename_i back hback
        obtain ⟨a, ha, h⟩ := Option.bind_eq_some_iff.mp h
        obtain ⟨b, hb, h⟩ := Option.bind_eq_some_iff.mp h
        obtain ⟨rfl, rfl⟩ := Version.release.inj (Option.some.inj h)
        refine ⟨_, back, ?_, part?_eq_some_iff.mp ha, part?_eq_some_iff.mp hb⟩
        rw [← hback, List.takeWhile_append_dropWhile]
      · cases h
  · intro h
    have hnext := h.ne_next
    obtain ⟨front, back, rfl, hfront, hback⟩ := h
    have htake : (front ++ '.' :: back).takeWhile (· != '.') = front := by
      rw [List.takeWhile_append_of_pos hfront.ne_point]
      exact List.append_nil front
    have hdrop : (front ++ '.' :: back).dropWhile (· != '.') = '.' :: back := by
      rw [List.dropWhile_append_of_pos hfront.ne_point]
      rfl
    rw [ofTrimmed?, if_neg hnext, htake, hdrop]
    refine Option.bind_eq_some_iff.mpr ⟨major, part?_eq_some_iff.mpr hfront, ?_⟩
    exact Option.bind_eq_some_iff.mpr ⟨minor, part?_eq_some_iff.mpr hback, rfl⟩

/-- Numbers of 32 bits make a release. -/
lemma IsRelease.exists_ofTrimmed? {major minor : Nat} (h : IsRelease cs major minor)
    (hmajor : major < 2 ^ 32) (hminor : minor < 2 ^ 32) : ∃ v, ofTrimmed? cs = some v := by
  rw [← UInt32.toNat_ofNat_of_lt' hmajor, ← UInt32.toNat_ofNat_of_lt' hminor] at h
  exact ⟨_, ofTrimmed?_eq_some_release_iff.mpr h⟩

/-- What reading a text comes to is told by the text without the white space around it. -/
lemma ofText_eq_iff {s : String} {r : Except VersionError Version} :
    ofText s = r ↔ Reads (trim s.toList) r := by
  unfold ofText
  dsimp only
  generalize trim s.toList = cs
  constructor
  · rintro rfl
    cases h : ofTrimmed? cs with
    | none =>
      refine .invalid (fun hnext => ?_) fun major minor hrelease => ?_
      · rw [ofTrimmed?_eq_some_next_iff.mpr hnext] at h
        cases h
      · by_contra hlt
        rw [not_or, not_le, not_le] at hlt
        obtain ⟨v, hv⟩ := hrelease.exists_ofTrimmed? hlt.1 hlt.2
        rw [hv] at h
        cases h
    | some v =>
      cases v with
      | next => exact .next (ofTrimmed?_eq_some_next_iff.mp h)
      | release major minor => exact .release (ofTrimmed?_eq_some_release_iff.mp h)
  · intro h
    cases h with
    | next h => rw [ofTrimmed?_eq_some_next_iff.mpr h]
    | release h => rw [ofTrimmed?_eq_some_release_iff.mpr h]
    | invalid hnext h =>
      have hnone : ofTrimmed? cs = none := by
        rw [Option.eq_none_iff_forall_ne_some]
        intro v hv
        cases v with
        | next => exact hnext (ofTrimmed?_eq_some_next_iff.mp hv)
        | release major minor =>
          have hlarge := h _ _ (ofTrimmed?_eq_some_release_iff.mp hv)
          have hmajor := major.toNat_lt
          have hminor := minor.toNat_lt
          omega
      rw [hnone]

/-! ### Versions that are written -/

/-- A release is written as its numbers with a point between them. -/
lemma toList_text_release (major minor : UInt32) : (text (.release major minor)).toList =
    Nat.toDigits 10 major.toNat ++ '.' :: Nat.toDigits 10 minor.toNat := by
  simp only [text, String.toList_append, Nat.toString_eq_ofList_toDigits, String.toList_ofList]
  exact List.append_assoc _ ['.'] _

/-- A version that is written has no white space around it. -/
lemma trim_text (v : Version) : trim v.text.toList = v.text.toList := by
  cases v with
  | next => decide
  | release major minor =>
    have hmajor := denotes_toDigits major.toNat
    have hminor := denotes_toDigits minor.toNat
    rw [toList_text_release, trim_eq_iff]
    refine ⟨⟨[], [], by simp, by simp, (List.append_nil _).symm⟩, fun c hc => ?_, fun c hc => ?_⟩
    · rw [List.head?_append_of_ne_nil _ hmajor.ne_nil] at hc
      exact (of_isDigit (hmajor.isDigit c (List.mem_of_mem_head? hc))).1
    · rw [List.getLast?_append_of_ne_nil _ (List.cons_ne_nil _ _),
        List.getLast?_cons_of_ne_nil hminor.ne_nil] at hc
      exact (of_isDigit (hminor.isDigit c (List.mem_of_mem_getLast? hc))).1

/-- A version that is written is read back. -/
lemma ofText_text (v : Version) : ofText v.text = .ok v := by
  rw [ofText_eq_iff, trim_text]
  cases v with
  | next => exact .next rfl
  | release major minor =>
    exact .release ⟨_, _, toList_text_release major minor, denotes_toDigits _, denotes_toDigits _⟩

/-- Different versions have different names. -/
lemma text_injective : Function.Injective text := by
  intro v w h
  have hv := ofText_text v
  rw [h, ofText_text] at hv
  exact (Except.ok.inj hv).symm

end Version

/-! ### Paths of snapshots -/

/-- A path that does not begin with a slash goes on behind the directory. -/
lemma Path.exists_join_eq_append (directory : String) : ∃ front : String, ∀ path : String,
    path.startsWith "/" = false → Path.join directory path = front ++ path := by
  by_cases hempty : directory.isEmpty = true
  · refine ⟨"", fun path hpath => ?_⟩
    rw [join, hempty, Bool.true_or, if_pos rfl, String.empty_append]
  · have hrelative : ∀ path : String, path.startsWith "/" = false →
        ¬ (directory.isEmpty || path.startsWith "/") = true := by
      intro path hpath
      rwa [hpath, Bool.or_false]
    by_cases hslash : directory.endsWith "/" = true
    · refine ⟨directory, fun path hpath => ?_⟩
      rw [join, if_neg (hrelative path hpath), if_pos hslash]
    · refine ⟨directory ++ "/", fun path hpath => ?_⟩
      rw [join, if_neg (hrelative path hpath), if_neg hslash]

/-- The file name of a snapshot does not begin with a slash. -/
lemma Version.startsWith_text_append (v : Version) (ending : String) :
    (v.text ++ ending).startsWith "/" = false := by
  rw [String.startsWith_string_eq_false_iff, String.toList_append]
  intro hslash
  have hhead : (v.text.toList ++ ending.toList).head? = some '/' := by
    obtain ⟨rest, hrest⟩ := hslash
    rw [← hrest]
    rfl
  cases v with
  | next => cases hhead
  | release major minor =>
    have hmajor := Text.denotes_toDigits major.toNat
    rw [toList_text_release, List.append_assoc,
      List.head?_append_of_ne_nil _ hmajor.ne_nil] at hhead
    exact absurd (hmajor.isDigit '/' (List.mem_of_mem_head? hhead)) (by decide)

/-- Different versions have different snapshots. -/
lemma Recording.path_injective (directory : String) :
    Function.Injective (Recording.path directory) := by
  obtain ⟨front, hfront⟩ := Path.exists_join_eq_append directory
  intro v w h
  rw [path, path, hfront _ (v.startsWith_text_append _), hfront _ (w.startsWith_text_append _)] at h
  have hname : v.text ++ ".json" = w.text ++ ".json" := String.append_right_inj _ |>.mp h
  exact Version.text_injective (String.append_left_inj _ |>.mp hname)

/-- A version that is written is read back, so that the names of versions and the paths of their
snapshots differ.  A text is read by its grammar after trimming, and what has been read is written
and read again as the same version. -/
theorem Version.readsByGrammar_ofText :
    (∀ v : Version, ofText v.text = .ok v) ∧ Function.Injective text ∧
      (∀ directory, Function.Injective (Recording.path directory)) ∧
      ∀ s : String, Text.Trimmed s.toList (Text.trim s.toList) ∧
        (∀ r, ofText s = r ↔ Reads (Text.trim s.toList) r) ∧
        ∀ v, ofText s = .ok v → ofText v.text = .ok v :=
  ⟨ofText_text, text_injective, Recording.path_injective, fun s =>
    ⟨Text.trimmed_trim s.toList, fun _ => ofText_eq_iff, fun v _ => ofText_text v⟩⟩

example : Version.ofText " 04.010\t" = .ok (.release 4 10) := by decide

example : Version.ofText "4.4294967296" = .error (.invalid "4.4294967296") := by decide

end InlineExpect
