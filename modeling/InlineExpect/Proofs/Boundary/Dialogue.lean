import Mathlib
import InlineExpect.Boundary.Search

/-!
# Searches as dialogues

A search does nothing to the world but ask for the checks of versions.  As a dialogue it is a tree:
it has come to a result, or it asks for a check and goes on with the answer.  A dialogue can be
conducted to its end with any checker (`Dialogue.conduct`), or be given one turn and left
(`Dialogue.turn`), so that several searches can take turns.

The dialogue of a search is the search itself, run with a checker that only asks.  Conducting it
with another checker is running the search with that checker, and it never asks for more checks than
there are versions (`Search.isDialogueOf_run`).
-/

namespace InlineExpect

/-- What the check of a package under one version comes to. -/
abbrev Verdict : Type := Except CheckError (List Failure)

/-- A search that has come to a result, or asks for a check and goes on with the answer. -/
inductive Dialogue (α : Type) where
  | result (a : α)
  | ask (v : Version) (next : Verdict → Dialogue α)

namespace Dialogue

variable {α β : Type}

/-- A dialogue that is gone on with once it has come to a result. -/
def bind (f : α → Dialogue β) : Dialogue α → Dialogue β
  | result a => f a
  | ask v next => ask v fun verdict => bind f (next verdict)

instance : Monad Dialogue where
  pure := result
  bind d f := d.bind f

/-- The result of a dialogue that has come to one. -/
def result? : Dialogue α → Option α
  | result a => some a
  | ask .. => none

/-- Asks for a check and does nothing else. -/
def check (v : Version) : Dialogue Verdict := ask v result

/-! ### Conducting a dialogue -/

/-- The result that a dialogue comes to with some verdicts. -/
def ending (verdicts : Version → Verdict) : Dialogue α → α
  | result a => a
  | ask v next => ending verdicts (next (verdicts v))

/-- A dialogue after one question, if it still has one. -/
def answered (verdicts : Version → Verdict) : Dialogue α → Dialogue α
  | result a => result a
  | ask v next => next (verdicts v)

/-- The end of a dialogue does not depend on how far it has come. -/
lemma ending_answered (verdicts : Version → Verdict) (d : Dialogue α) :
    (d.answered verdicts).ending verdicts = d.ending verdicts := by
  cases d with
  | result a => rfl
  | ask v next => rfl

/-- A result is what a dialogue comes to. -/
lemma ending_eq_of_result? {verdicts : Version → Verdict} {d : Dialogue α} {a : α}
    (h : d.result? = some a) : d.ending verdicts = a := by
  cases d with
  | result b => exact Option.some.inj h
  | ask v next => cases h

section Conduct

variable {m : Type → Type} [Monad m] (c : Version → m Verdict)

/-- Conducts a dialogue to its end. -/
def conduct : Dialogue α → m α
  | result a => pure a
  | ask v next => do conduct (next (← c v))

/-- Answers one question of a dialogue, if it still has one. -/
def turn : Dialogue α → m (Dialogue α)
  | result a => pure (result a)
  | ask v next => do return next (← c v)

variable [LawfulMonad m]

/-- The parts of a dialogue are conducted one after the other. -/
lemma conduct_bind (d : Dialogue α) (f : α → Dialogue β) :
    (d >>= f).conduct c = d.conduct c >>= fun a => (f a).conduct c := by
  induction d with
  | result a => exact (pure_bind a fun a => (f a).conduct c).symm
  | ask v next ih =>
    change (c v >>= fun verdict => (next verdict >>= f).conduct c) = _
    simp only [ih, conduct, bind_assoc]

/-- A question alone is answered by the checker. -/
lemma conduct_check (v : Version) : (check v).conduct c = c v := bind_pure (c v)

end Conduct

/-! ### The number of questions -/

/-- A dialogue has at most `n` questions, whatever the answers are. -/
inductive AsksAtMost : Nat → Dialogue α → Prop
  | result (n : Nat) (a : α) : AsksAtMost n (.result a)
  | ask {n : Nat} (v : Version) {next : Verdict → Dialogue α}
    (h : ∀ verdict, AsksAtMost n (next verdict)) : AsksAtMost (n + 1) (.ask v next)

namespace AsksAtMost

variable {d : Dialogue α} {n k : Nat}

/-- A bound on the questions may be raised. -/
lemma mono (h : d.AsksAtMost n) (hle : n ≤ k) : d.AsksAtMost k := by
  induction h generalizing k with
  | result n a => exact .result k a
  | @ask n v next h ih =>
    cases k with
    | zero => exact absurd hle (Nat.not_succ_le_zero n)
    | succ k => exact .ask v fun verdict => ih verdict (Nat.le_of_succ_le_succ hle)

/-- The questions of the parts of a dialogue add up. -/
lemma bind (h : d.AsksAtMost n) {f : α → Dialogue β} (hf : ∀ a, (f a).AsksAtMost k) :
    (d >>= f).AsksAtMost (n + k) := by
  induction h with
  | result n a => exact (hf a).mono (Nat.le_add_left k n)
  | @ask n v next h ih =>
    rw [Nat.add_right_comm]
    exact .ask v ih

/-- An answer leaves a question less. -/
lemma answered (h : d.AsksAtMost n) (verdicts : Version → Verdict) :
    (d.answered verdicts).AsksAtMost (n - 1) := by
  cases h with
  | result n a => exact .result _ a
  | ask v h => exact h (verdicts v)

/-- A dialogue without questions has come to its end. -/
lemma result?_eq (h : d.AsksAtMost 0) (verdicts : Version → Verdict) :
    d.result? = some (d.ending verdicts) := by
  cases h with
  | result n a => rfl

end AsksAtMost

end Dialogue

namespace Search

variable {α β : Type} {m : Type → Type} [Monad m] {c : Version → m Verdict} {n k : Nat}

/-- A part of a search is conducted as the same part with another checker runs, and asks for at most
`n` checks. -/
structure IsDialogueOf (c : Version → m Verdict) (n : Nat) (x : SearchM Dialogue α)
    (y : SearchM m α) : Prop where
  conduct_run : ∀ s, (x.run.run s).conduct c = y.run.run s
  asksAtMost : ∀ s, (x.run.run s).AsksAtMost n

/-- The state of a search is replaced without a check. -/
lemma run_modify [LawfulMonad m] (f : Search → Search) (s : Search) :
    (modify f : SearchM m PUnit).run.run s = pure (.ok (), f s) := by
  change (Except.ok <$> modify f : StateT Search m (Except CheckError PUnit)).run s = _
  rw [StateT.run_map, StateT.run_modify, map_pure]

/-- The state of a search is read without a check. -/
lemma run_get [LawfulMonad m] (s : Search) :
    (get : SearchM m Search).run.run s = pure (.ok s, s) := by
  change (Except.ok <$> get : StateT Search m (Except CheckError Search)).run s = _
  rw [StateT.run_map, StateT.run_get, map_pure]

/-- The state of a search is set without a check. -/
lemma run_set [LawfulMonad m] (s s' : Search) :
    (set s' : SearchM m PUnit).run.run s = pure (.ok (), s') := by
  change (Except.ok <$> set s' : StateT Search m (Except CheckError PUnit)).run s = _
  rw [StateT.run_map, StateT.run_set, map_pure]

namespace IsDialogueOf

/-- The bound on the questions may be raised. -/
lemma mono {x : SearchM Dialogue α} {y : SearchM m α} (h : IsDialogueOf c n x y) (hle : n ≤ k) :
    IsDialogueOf c k x y :=
  ⟨h.conduct_run, fun s => (h.asksAtMost s).mono hle⟩

/-- A part that asks nothing does the same with all checkers. -/
lemma of_pure {x : SearchM Dialogue α} {y : SearchM m α}
    (f : Search → Except CheckError α × Search) (hx : ∀ s, x.run.run s = .result (f s))
    (hy : ∀ s, y.run.run s = pure (f s)) : IsDialogueOf c 0 x y where
  conduct_run s := by rw [hx, hy, Dialogue.conduct]
  asksAtMost s := hx s ▸ .result 0 (f s)

variable [LawfulMonad m]

/-- The parts of a search follow each other. -/
lemma bind {x : SearchM Dialogue α} {y : SearchM m α} (h : IsDialogueOf c n x y)
    {f : α → SearchM Dialogue β} {g : α → SearchM m β} (hf : ∀ a, IsDialogueOf c k (f a) (g a)) :
    IsDialogueOf c (n + k) (x >>= f) (y >>= g) where
  conduct_run s := by
    rw [ExceptT.run_bind, ExceptT.run_bind, StateT.run_bind, StateT.run_bind,
      Dialogue.conduct_bind, h.conduct_run]
    congr 1
    funext ⟨r, s'⟩
    cases r with
    | error e => rfl
    | ok a => exact (hf a).conduct_run s'
  asksAtMost s := by
    rw [ExceptT.run_bind, StateT.run_bind]
    refine (h.asksAtMost s).bind fun ⟨r, s'⟩ => ?_
    cases r with
    | error e => exact .result k _
    | ok a => exact (hf a).asksAtMost s'

end IsDialogueOf

/-- A search breaks off without a question. -/
lemma isDialogueOf_throw (c : Version → m Verdict) (e : CheckError) :
    IsDialogueOf c 0 (throw e : SearchM Dialogue α) (throw e) :=
  .of_pure (fun s => (.error e, s)) (fun _ => rfl) fun _ => by simp

variable [LawfulMonad m]

/-- A check is one question. -/
lemma isDialogueOf_checkVersion (c : Version → m Verdict) (v : Version) :
    IsDialogueOf c 1 (checkVersion Dialogue.check v) (checkVersion c v) := by
  have hmodify : IsDialogueOf c 0 (modify fun s => { s with checked := s.checked ++ [v] })
      (modify fun s => { s with checked := s.checked ++ [v] }) :=
    .of_pure (fun s => (.ok (), { s with checked := s.checked ++ [v] })) (fun _ => rfl)
      (run_modify _)
  have hcheck : IsDialogueOf c 1 (ExceptT.mk (StateT.lift (Dialogue.check v)))
      (ExceptT.mk (StateT.lift (c v))) := by
    refine ⟨fun s => ?_, fun s => .ask v fun verdict => .result 0 (verdict, s)⟩
    change (Dialogue.check v >>= fun verdict => pure (verdict, s)).conduct c = _
    rw [Dialogue.conduct_bind, Dialogue.conduct_check]
    rfl
  exact hmodify.bind fun _ => hcheck

/-- Another state is entered without a question. -/
lemma isDialogueOf_enter (c : Version → m Verdict) (state : SearchState) :
    IsDialogueOf c 0 (enter state) (enter state) :=
  .of_pure (fun s => (.ok (), { s with state })) (fun _ => rfl) (run_modify _)

/-- A run ends without a question. -/
lemma isDialogueOf_finish (c : Version → m Verdict) (failures : List Failure)
    (lowestFailing highestPassing : Option Version) :
    IsDialogueOf c 0 (finish failures lowestFailing highestPassing)
      (finish failures lowestFailing highestPassing) :=
  .of_pure
    (fun s => (.ok ⟨failures, lowestFailing, highestPassing, s.checked⟩, ⟨.done, []⟩))
    (fun _ => rfl) fun s => by simp [finish, run_get, run_set, Except.map]

/-- A descent asks for the versions on its way. -/
lemma isDialogueOf_descend (c : Version → m Verdict) (lowest : Version)
    (lowestFailures : List Failure) (above : Version) (vs : List Version) :
    IsDialogueOf c vs.length (descend Dialogue.check lowest lowestFailures above vs)
      (descend c lowest lowestFailures above vs) := by
  induction vs generalizing above with
  | nil => exact isDialogueOf_finish c _ _ _
  | cons v vs ih =>
    rw [List.length_cons, Nat.add_comm]
    refine (isDialogueOf_checkVersion c v).bind fun failures => ?_
    split
    · exact ih v
    · exact (isDialogueOf_finish c _ _ _).mono (Nat.zero_le _)

section States

variable (c : Version → m Verdict) (package : String) (l : VersionList)

/-- A search that goes down asks for versions between the lowest and the highest one. -/
lemma isDialogueOf_resume_bisecting (lowestFailures : Option (List Failure)) :
    IsDialogueOf c (interior l).length
      (resume Dialogue.check package l .bisecting lowestFailures)
      (resume c package l .bisecting lowestFailures) := by
  rw [resume.eq_def Dialogue.check, resume.eq_def c, ← Nat.zero_add (interior l).length]
  refine (isDialogueOf_enter c .bisecting).bind fun _ => ?_
  cases lowestFailures with
  | none => exact (isDialogueOf_throw c _).mono (Nat.zero_le _)
  | some failures => exact isDialogueOf_descend c _ _ _ _

/-- From its second check on, a search asks for the lowest version and those on the way down. -/
lemma isDialogueOf_resume_checkLowest :
    IsDialogueOf c (1 + (interior l).length) (resume Dialogue.check package l .checkLowest none)
      (resume c package l .checkLowest none) := by
  rw [resume.eq_def Dialogue.check, resume.eq_def c, ← Nat.zero_add (1 + _)]
  refine (isDialogueOf_enter c .checkLowest).bind fun _ => ?_
  refine (isDialogueOf_checkVersion c _).bind fun failures => ?_
  split
  · exact (isDialogueOf_finish c _ _ _).mono (Nat.zero_le _)
  · exact isDialogueOf_resume_bisecting c package l _

/-- A search asks for at most as many checks as there are versions. -/
theorem isDialogueOf_run :
    IsDialogueOf c l.length (run Dialogue.check package l) (run c package l) := by
  have hinterior : (interior l).length = l.length - 1 - 1 := by
    simp [interior, VersionList.length]
  have hpos : 0 < l.length := l.length_pos
  have hset : IsDialogueOf c 0 (set ({} : Search)) (set ({} : Search)) :=
    .of_pure (fun _ => (.ok (), {})) (fun _ => rfl) fun s => run_set s {}
  have hrest : IsDialogueOf c (0 + (0 + (1 + (l.length - 1))))
      (run Dialogue.check package l) (run c package l) := by
    refine hset.bind fun _ => ?_
    rw [resume.eq_def Dialogue.check, resume.eq_def c]
    refine (isDialogueOf_enter c .checkHighest).bind fun _ => ?_
    refine (isDialogueOf_checkVersion c _).bind fun failures => ?_
    split
    · exact (isDialogueOf_finish c _ _ _).mono (Nat.zero_le _)
    · split
      · exact (isDialogueOf_finish c _ _ _).mono (Nat.zero_le _)
      · exact (isDialogueOf_resume_checkLowest c package l).mono (by omega)
  exact hrest.mono (by omega)

end States

end Search

end InlineExpect
