import InlineExpect.Text.Blank
import InlineExpect.Text.Digits

/-!
# Checker versions

A checker has numbered releases and one unreleased version, `next`, which is newer than all of them.
-/

namespace InlineExpect

/-- A version of the checker. -/
inductive Version where
  | release (major minor : UInt32)
  | next
deriving DecidableEq, Repr, Inhabited

/-- The reasons for which versions are refused. -/
inductive VersionError where
  /-- A text, trimmed, that names no version. -/
  | invalid (text : String)
  /-- No version at all. -/
  | empty
  /-- Two neighbours of which the first is not older than the second. -/
  | notAscending (older newer : Version)
deriving DecidableEq, Repr

namespace Version

/-- Whether a version is the unreleased one. -/
def isNext (v : Version) : Bool := v == .next

/-- The name of a version. -/
def text : Version → String
  | .release major minor => s!"{major.toNat}.{minor.toNat}"
  | .next => "next"

/-- A version with its parts spelled out. -/
def details : Version → String
  | .release major minor =>
    s!"Release \x7b major: {major.toNat}, minor: {minor.toNat} \x7d"
  | .next => "Next"

/-- Whether a version is older than another one. -/
def older : Version → Version → Bool
  | .release a b, .release c d => a < c || (a == c && b < d)
  | .release .., .next => true
  | .next, _ => false

instance : LT Version := ⟨fun v w => v.older w = true⟩

instance (v w : Version) : Decidable (v < w) := inferInstanceAs (Decidable (v.older w = true))

instance : LE Version := ⟨fun v w => w.older v = false⟩

instance (v w : Version) : Decidable (v ≤ w) := inferInstanceAs (Decidable (w.older v = false))

/-- How two versions compare by age. -/
def order (v w : Version) : Ordering := if v < w then .lt else if w < v then .gt else .eq

theorem lt_def (v w : Version) : v < w ↔ v.older w = true := Iff.rfl

theorem le_def (v w : Version) : v ≤ w ↔ ¬ w < v := by
  change w.older v = false ↔ ¬ w.older v = true
  simp

theorem lt_irrefl (v : Version) : ¬ v < v := by
  cases v <;> simp [lt_def, older]

theorem lt_trans {u v w : Version} (h₁ : u < v) (h₂ : v < w) : u < w := by
  rw [lt_def] at *
  match u, v, w with
  | .release a b, .release c d, .release e f =>
    simp only [older, Bool.or_eq_true, Bool.and_eq_true, decide_eq_true_eq, beq_iff_eq] at *
    rcases h₁ with h₁ | ⟨rfl, h₁⟩ <;> rcases h₂ with h₂ | ⟨rfl, h₂⟩
    · exact .inl (UInt32.lt_trans h₁ h₂)
    · exact .inl h₁
    · exact .inl h₂
    · exact .inr ⟨rfl, UInt32.lt_trans h₁ h₂⟩
  | .release .., .release .., .next => rfl
  | .release .., .next, w => simp [older] at h₂
  | .next, v, w => simp [older] at h₁

/-- Two versions are equal, or one of them is older. -/
theorem lt_trichotomy (v w : Version) : v < w ∨ v = w ∨ w < v := by
  simp only [lt_def]
  match v, w with
  | .release a b, .release c d =>
    simp only [older, Bool.or_eq_true, Bool.and_eq_true, decide_eq_true_eq, beq_iff_eq,
      Version.release.injEq, UInt32.lt_iff_toNat_lt, ← UInt32.toNat_inj]
    omega
  | .release .., .next => simp [older]
  | .next, .release .. => simp [older]
  | .next, .next => simp

/-! ### Reading versions -/

/-- Reads a part of a release number, which has 32 bits. -/
def part? (cs : List Char) : Option UInt32 :=
  match Text.natOfDigits? cs with
  | some n => if n < UInt32.size then some (UInt32.ofNat n) else none
  | none => none

/-- Reads a trimmed text: `next`, or two numbers with a point between them. -/
def ofTrimmed? (cs : List Char) : Option Version :=
  if cs = ['n', 'e', 'x', 't'] then some .next
  else
    match cs.dropWhile (· != '.') with
    | '.' :: minor => do
      return .release (← part? (cs.takeWhile (· != '.'))) (← part? minor)
    | _ => none

/-- Reads a version. -/
def ofText (text : String) : Except VersionError Version :=
  let cs := Text.trim text.toList
  match ofTrimmed? cs with
  | some v => .ok v
  | none => .error (.invalid (String.ofList cs))

end Version

/-- The wording of a refusal. -/
def VersionError.message : VersionError → String
  | .invalid text => s!"invalid version '{text}': expected 'major.minor' or 'next'"
  | .empty => "invalid version list: the list is empty"
  | .notAscending older newer =>
    s!"invalid version list: {older.text} is followed by {newer.text}, versions must ascend"

end InlineExpect
