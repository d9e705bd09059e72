import Mathlib
import InlineExpect.Proofs.Comment.Bytewise.Steps

/-!
# Progress of the bytewise scanner

The bytewise scanner stays at boundaries of the text, goes on with every iteration, and reports the
tokens of the comments that `scan` finds (`tokens_utf8`).

Two things have to be known of a state for an iteration not to fail: that it is at a boundary, and
that its count of open braces is neither larger than the number of bytes read nor zero where a
substitution is open (`SoundAt`).  Behind a lexeme at most one more brace is open
(`Lexeme.nesting_ofText`), and at least one more byte has been read.
-/

namespace InlineExpect.Comment

open Text

/-! ### Brackets behind a lexeme -/

namespace Lexeme

variable {σ : Type} {P : σ → Prop} {allowed : Bool} {nesting : σ} {c : Char} {cs : List Char}

/-- A choice between two lexemes leaves brackets open as one of them does. -/
lemma nesting_ite {p : Prop} [Decidable p] {x y : Lexeme σ} (hx : P x.nesting) (hy : P y.nesting) :
    P (if p then x else y).nesting := by
  by_cases hp : p
  · rwa [if_pos hp]
  · rwa [if_neg hp]

/-- What begins with a slash leaves the brackets as they are. -/
lemma nesting_slash : (slash allowed nesting cs).nesting = nesting := by
  unfold slash
  split
  · rfl
  · rfl
  · split <;> rfl

variable [Nesting σ]

/-- Template text leaves the brackets as they are, or opens a substitution. -/
lemma nesting_template (hself : P nesting) (hopen : P (Nesting.openSubstitution nesting)) :
    P (template allowed nesting cs).nesting := by
  unfold template
  rcases templateChunk cs with ⟨n, _ | _ | _⟩
  · exact hself
  · exact hopen
  · exact hself

/-- A lexeme leaves the brackets as they are, opens or closes one, or opens a substitution behind
the end of another one. -/
theorem nesting_ofText (hself : P nesting) (hgroup : P (Nesting.openGroup nesting))
    (hopen : P (Nesting.openSubstitution nesting)) (hclose : P (Nesting.close nesting).1)
    (hreopen : P (Nesting.openSubstitution (Nesting.close nesting).1)) :
    P (ofText allowed nesting c cs).nesting := by
  unfold ofText
  apply nesting_ite hself
  apply nesting_ite hself
  apply nesting_ite (nesting_slash.symm ▸ hself)
  apply nesting_ite hself
  apply nesting_ite (nesting_template hself hopen)
  apply nesting_ite hgroup
  apply nesting_ite
  · unfold closeBrace
    obtain ⟨outer, resumes, hnesting⟩ : ∃ outer resumes, Nesting.close nesting = (outer, resumes) :=
      ⟨_, _, rfl⟩
    rw [hnesting] at hclose hreopen ⊢
    cases resumes with
    | true => exact nesting_template hclose hreopen
    | false => exact hclose
  apply nesting_ite hself
  apply nesting_ite hself
  apply nesting_ite hself
  exact nesting_ite hself hself

end Lexeme

namespace Bytewise

variable {text rest cs : List Char} {c : Char} {s t : State} {n : DepthCounter} {pos : Nat}

/-- A closing brace is counted down, and opens no substitution. -/
lemma SoundAt.close (h : SoundAt pos n) : SoundAt pos (Nesting.close n).1 := by
  obtain ⟨depth, substitutions⟩ := n
  have hdepth : depth - 1 ≤ pos := (Nat.sub_le depth 1).trans h.depth_le
  cases substitutions with
  | nil => exact ⟨hdepth, h.pos_of_mem⟩
  | cons d ds =>
    by_cases hd : d = depth
    · have hclose : Nesting.close (⟨depth, d :: ds⟩ : DepthCounter) = (⟨depth - 1, ds⟩, true) :=
        if_pos hd
      rw [hclose]
      exact ⟨hdepth, fun e he => h.pos_of_mem e (List.mem_cons_of_mem d he)⟩
    · have hclose : Nesting.close (⟨depth, d :: ds⟩ : DepthCounter) =
          (⟨depth - 1, d :: ds⟩, false) := if_neg hd
      rw [hclose]
      exact ⟨hdepth, h.pos_of_mem⟩

/-- A substitution is counted up. -/
lemma SoundAt.openSubstitution (h : SoundAt pos n) :
    SoundAt (pos + 1) (Nesting.openSubstitution n) := by
  refine ⟨Nat.succ_le_succ h.depth_le, ?_⟩
  intro d hd
  rcases List.mem_cons.mp hd with rfl | hd
  · exact Nat.succ_pos _
  · exact h.pos_of_mem d hd

/-- More bytes are no harm. -/
lemma SoundAt.mono {pos' : Nat} (h : SoundAt pos n) (hle : pos ≤ pos') : SoundAt pos' n :=
  ⟨h.depth_le.trans hle, h.pos_of_mem⟩

/-- The count of braces is sound behind a lexeme. -/
lemma SoundAt.ofText {allowed : Bool} (h : SoundAt pos n) :
    SoundAt (pos + 1) (Lexeme.ofText allowed n c cs).nesting := by
  apply Lexeme.nesting_ofText
  · exact h.mono (Nat.le_succ pos)
  · exact ⟨Nat.succ_le_succ h.depth_le, h.pos_of_mem⟩
  · exact h.openSubstitution
  · exact h.close.mono (Nat.le_succ pos)
  · exact h.close.openSubstitution

/-! ### States -/

/-- The scanner is at a boundary with so much of the text left, and its count of braces is
sound. -/
structure StandsBefore (text : List Char) (s : State) (rest : List Char) : Prop where
  splitsAt : SplitsAt text s.pos rest
  soundAt : SoundAt s.pos s.nesting

/-- The bytes of a text begin with those of an interpreter line if the text does. -/
lemma isPrefixOf_shebang_iff (text : List Char) :
    List.isPrefixOf [0x23, 0x21] (utf8 text) = true ↔ ['#', '!'] <+: text := by
  have hiff : utf8 ['#', '!'] <+: utf8 text ↔ ['#', '!'] <+: text := utf8_prefix_utf8_iff
  rw [List.isPrefixOf_iff_prefix]
  exact hiff

/-- The scanner starts as it does on the text, behind an interpreter line. -/
lemma start_utf8 (text : List Char) :
    start (utf8 text) = .ok ⟨byteLength (text.take (shebangLength text)),
      decide (0 < shebangLength text), true, (Nesting.none : DepthCounter)⟩ := by
  rw [start]
  by_cases hshebang : ['#', '!'] <+: text
  · have hpos : decide (0 < shebangLength text) = true :=
      decide_eq_true ((shebangLength_pos_iff text).mpr hshebang)
    obtain ⟨line, rfl⟩ := hshebang
    have h₂ : SplitsAt (['#', '!'] ++ line) 2 line := ⟨['#', '!'], rfl, rfl⟩
    have hbytes : byteLength ((['#', '!'] ++ line).take (shebangLength (['#', '!'] ++ line))) =
        2 + byteLength (line.take (lineLength line)) := by
      change byteLength ((['#', '!'] ++ line).take (['#', '!'].length + lineLength line)) = _
      rw [List.take_length_add_append, byteLength_append]
      rfl
    rw [if_pos ((isPrefixOf_shebang_iff _).mpr (List.prefix_append _ _)), skipLine_utf8 h₂, ok_bind,
      hpos, hbytes]
    rfl
  · rw [if_neg (mt (isPrefixOf_shebang_iff text).mp hshebang), shebangLength_eq_zero hshebang]
    rfl

/-- The scanner starts at a boundary. -/
lemma standsBefore_start (text : List Char) :
    StandsBefore text ⟨byteLength (text.take (shebangLength text)),
      decide (0 < shebangLength text), true, (Nesting.none : DepthCounter)⟩
      (text.drop (shebangLength text)) :=
  ⟨⟨_, (List.take_append_drop _ _).symm, rfl⟩, ⟨Nat.zero_le _, nofun⟩⟩

/-- Behind a lexeme the scanner has come further. -/
lemma pos_lt_after (s : State) (x : Lexeme DepthCounter) (c : Char) (cs : List Char) :
    s.pos < (s.after x (c :: cs)).pos := by
  have hsize := c.utf8Size_pos
  dsimp only [ScanState.after]
  rw [byteLength_cons]
  omega

/-- The scanner is at a boundary again behind a lexeme. -/
lemma StandsBefore.after (h : StandsBefore text s (c :: cs)) :
    let x := Lexeme.ofText s.regexAllowed s.nesting c cs
    StandsBefore text (s.after x (c :: cs.take x.extra)) (cs.drop x.extra) := by
  intro x
  refine ⟨h.splitsAt.drop (x.extra + 1), ?_⟩
  exact h.soundAt.ofText.mono (pos_lt_after s x c _)

/-- Every state that is reached is at a boundary. -/
lemma Reached.standsBefore (hlength : byteLength text < 2 ^ 32) (h : Reached (utf8 text) s) :
    ∃ rest, StandsBefore text s rest := by
  induction h with
  | start hstart =>
    rw [start_utf8] at hstart
    obtain rfl := Except.ok.inj hstart
    exact ⟨_, standsBefore_start text⟩
  | step hs hstep ih =>
    obtain ⟨rest, hrest⟩ := ih
    cases rest with
    | nil =>
      rw [step_utf8_nil hrest.splitsAt] at hstep
      cases hstep
    | cons c cs =>
      rw [step_utf8 hrest.splitsAt hrest.soundAt hlength] at hstep
      have houtcome := Option.some.inj (Except.ok.inj hstep)
      have hstate := congrArg Prod.snd houtcome
      dsimp only [outcome] at hstate
      rw [← hstate]
      exact ⟨_, hrest.after⟩

/-- The tokens that are reported from a state on are those of the comments of what is left. -/
lemma tokensFrom_utf8 {fuel : Nat} {s : State} {rest : List Char} (h : StandsBefore text s rest)
    (hlength : byteLength text < 2 ^ 32) (hfuel : rest.length < fuel) :
    tokensFrom (utf8 text) fuel s = .ok ((scanFrom s rest).map Token.ofComment) := by
  obtain ⟨n, rfl⟩ := Nat.exists_eq_add_one.mpr (Nat.zero_lt_of_lt hfuel)
  rw [tokensFrom]
  match rest with
  | [] =>
    rw [step_utf8_nil h.splitsAt, scanFrom]
    rfl
  | c :: cs =>
    set x := Lexeme.ofText s.regexAllowed s.nesting c cs with hx
    have hrest : (cs.drop x.extra).length < n := by
      rw [List.length_cons] at hfuel
      rw [List.length_drop]
      omega
    have hafter := tokensFrom_utf8 h.after hlength hrest
    rw [step_utf8 h.splitsAt h.soundAt hlength, ok_bind, scanFrom_cons, ← hx, outcome]
    dsimp only
    rw [hafter, ok_bind, List.map_append]
    cases s.comment? x <;> rfl

/-- The tokens of a text are those of its comments. -/
theorem tokens_utf8 (hlength : byteLength text < 2 ^ 32) :
    tokens (utf8 text) = .ok ((scan text).map Token.ofComment) := by
  rw [tokens, start_utf8, ok_bind]
  apply tokensFrom_utf8 (standsBefore_start text) hlength
  exact length_lt_fuel (standsBefore_start text).splitsAt

end Bytewise

end InlineExpect.Comment
