import Mathlib

/-!
# Lists of questions

A list of questions is asked one after the other, and the first that is refused ends the asking
(`mapM_eq_error_iff`).  Where all are answered, the answers are those to each of them
(`mapM_eq_ok_iff`).  Asked with a note of each question (`logging`), they are answered as without,
and the note ends with the question that is refused (`run_mapM_logging`).
-/

namespace InlineExpect

/-- A list of questions that are all answered is answered by as many answers. -/
lemma exists_mapM_eq_ok {α β ε : Type} {f : α → Except ε β} {xs : List α}
    (h : ∀ x ∈ xs, ∃ y, f x = .ok y) : ∃ ys, xs.mapM f = .ok ys ∧ ys.length = xs.length := by
  induction xs with
  | nil => exact ⟨[], rfl, rfl⟩
  | cons x xs ih =>
    obtain ⟨y, hy⟩ := h x List.mem_cons_self
    obtain ⟨ys, hys, hlen⟩ := ih fun x' hx' => h x' (List.mem_cons_of_mem x hx')
    refine ⟨y :: ys, ?_, by rw [List.length_cons, List.length_cons, hlen]⟩
    rw [List.mapM_cons, hy, hys]
    rfl

/-- Two questions are answered if both are, the second one with the first answer. -/
lemma bind_eq_ok_iff {α β ε : Type} {x : Except ε α} {g : α → Except ε β} {b : β} :
    (x >>= g) = .ok b ↔ ∃ a, x = .ok a ∧ g a = .ok b := by
  cases x with
  | error e => exact iff_of_false nofun nofun
  | ok a =>
    constructor
    · exact fun h => ⟨a, rfl, h⟩
    · rintro ⟨a', ha, h⟩
      rwa [← Except.ok.inj ha] at h

/-- The answers to a list of questions are those to each of them. -/
lemma mapM_eq_ok_iff {α β ε : Type} {f : α → Except ε β} {xs : List α} {ys : List β} :
    xs.mapM f = .ok ys ↔ xs.map f = ys.map Except.ok := by
  induction xs generalizing ys with
  | nil =>
    rw [List.mapM_nil, List.map_nil, List.nil_eq, List.map_eq_nil_iff]
    exact ⟨fun h => (Except.ok.inj h).symm, fun h => congrArg Except.ok h.symm⟩
  | cons x xs ih =>
    rw [List.mapM_cons, List.map_cons]
    constructor
    · intro h
      obtain ⟨y, hx, hrest⟩ := bind_eq_ok_iff.mp h
      obtain ⟨ys', hxs, hys⟩ := bind_eq_ok_iff.mp hrest
      rw [← Except.ok.inj hys, List.map_cons, hx, ih.mp hxs]
    · intro h
      obtain ⟨y, ys', rfl, hy, hys⟩ := List.map_eq_cons_iff.mp h.symm
      rw [← hy, ih.mpr hys.symm]
      rfl

/-- Each question of a list with answers is answered. -/
lemma exists_of_mapM_eq_ok {α β ε : Type} {f : α → Except ε β} {xs : List α} {ys : List β}
    (h : xs.mapM f = .ok ys) : ∀ x ∈ xs, ∃ y, f x = .ok y := by
  intro x hx
  have hmem := List.mem_map_of_mem (f := f) hx
  rw [mapM_eq_ok_iff.mp h] at hmem
  obtain ⟨y, -, hy⟩ := List.mem_map.mp hmem
  exact ⟨y, hy.symm⟩

/-- Refusals are compared alike whatever the answers would have been. -/
lemma error_eq_error_congr {α β ε : Type} {e e' : ε} :
    (.error e : Except ε α) = .error e' ↔ (.error e : Except ε β) = .error e' := by
  rw [Except.error.injEq, Except.error.injEq]

/-- What is done with an answer does not lead to a refusal. -/
lemma bind_pure_eq_error_iff {α β ε : Type} {x : Except ε α} {g : α → β} {e : ε} :
    (x >>= fun a => pure (g a)) = .error e ↔ x = .error e := by
  cases x with
  | error e' => exact error_eq_error_congr
  | ok a => exact iff_of_false nofun nofun

/-- A list of questions is refused exactly if one of them is refused behind questions that are all
answered, and the refusal is the same. -/
lemma mapM_eq_error_iff {α β ε : Type} {f : α → Except ε β} {xs : List α} {e : ε} :
    xs.mapM f = .error e ↔ ∃ before x after, xs = before ++ x :: after ∧
      (∀ y ∈ before, ∃ z, f y = .ok z) ∧ f x = .error e := by
  induction xs with
  | nil =>
    refine iff_of_false nofun ?_
    rintro ⟨before, x, after, hsplit, -⟩
    exact List.append_ne_nil_of_right_ne_nil before (List.cons_ne_nil x after) hsplit.symm
  | cons x xs ih =>
    rw [List.mapM_cons]
    cases hx : f x with
    | error e' =>
      constructor
      · intro h
        obtain rfl := Except.error.inj h
        exact ⟨[], x, xs, rfl, by simp, hx⟩
      · rintro ⟨before, y, after, hsplit, hbefore, hy⟩
        cases before with
        | nil =>
          obtain ⟨rfl, -⟩ := List.cons.inj hsplit
          exact congrArg Except.error (Except.error.inj (hx.symm.trans hy))
        | cons z before =>
          obtain ⟨rfl, -⟩ := List.cons.inj hsplit
          obtain ⟨b, hb⟩ := hbefore x List.mem_cons_self
          rw [hx] at hb
          cases hb
    | ok b =>
      have htail : (do return b :: (← xs.mapM f) : Except ε (List β)) = .error e ↔
          xs.mapM f = .error e := by
        cases xs.mapM f with
        | error e' => rfl
        | ok bs => exact iff_of_false nofun nofun
      refine Iff.trans htail (ih.trans ?_)
      constructor
      · rintro ⟨before, y, after, rfl, hbefore, hy⟩
        exact ⟨x :: before, y, after, rfl, List.forall_mem_cons.mpr ⟨⟨b, hx⟩, hbefore⟩, hy⟩
      · rintro ⟨before, y, after, hsplit, hbefore, hy⟩
        cases before with
        | nil =>
          obtain ⟨rfl, -⟩ := List.cons.inj hsplit
          rw [hx] at hy
          cases hy
        | cons z before =>
          obtain ⟨rfl, rfl⟩ := List.cons.inj hsplit
          exact ⟨before, y, after, rfl, (List.forall_mem_cons.mp hbefore).2, hy⟩

/-- A list of questions that has no answer has a question without one. -/
lemma exists_of_mapM_eq_error {α β ε : Type} {f : α → Except ε β} {xs : List α} {e : ε}
    (h : xs.mapM f = .error e) : ∃ x ∈ xs, f x = .error e := by
  obtain ⟨before, x, after, rfl, -, hx⟩ := mapM_eq_error_iff.mp h
  exact ⟨x, List.mem_append_cons_self, hx⟩

/-! ### Questions that are noted -/

section Logging

variable {α β ε : Type}

/-- Asks a question, and writes it down before. -/
def logging (f : α → Except ε β) (x : α) : ExceptT ε (StateM (List α)) β := do
  modify (· ++ [x])
  ExceptT.mk (pure (f x))

/-- The questions of a list up to the first that is refused. -/
def tried (f : α → Except ε β) : List α → List α
  | [] => []
  | x :: xs =>
    match f x with
    | .ok _ => x :: tried f xs
    | .error _ => [x]

variable {f : α → Except ε β} {e : ε}

/-- A list of questions is answered as it is without writing, and the questions up to the first that
is refused are written down. -/
lemma run_mapM_logging (f : α → Except ε β) (xs log : List α) :
    (xs.mapM (logging f)).run.run log = (xs.mapM f, log ++ tried f xs) := by
  induction xs generalizing log with
  | nil => rw [tried, List.append_nil]; rfl
  | cons x xs ih =>
    rw [List.mapM_cons, List.mapM_cons, tried, ExceptT.run_bind, StateT.run_bind]
    change StateT.run (ExceptT.bindCont _ (f x)) (log ++ [x]) = _
    cases f x with
    | error e => rfl
    | ok b =>
      change StateT.run (ExceptT.run (xs.mapM (logging f) >>= fun bs => pure (b :: bs)))
        (log ++ [x]) = _
      rw [ExceptT.run_bind, StateT.run_bind, ih, List.append_assoc]
      cases xs.mapM f with
      | error e => rfl
      | ok bs => rfl

/-- All questions are tried if all are answered. -/
lemma tried_eq_self {xs : List α} (h : ∀ x ∈ xs, ∃ y, f x = .ok y) : tried f xs = xs := by
  induction xs with
  | nil => rfl
  | cons x xs ih =>
    obtain ⟨⟨y, hy⟩, hxs⟩ := List.forall_mem_cons.mp h
    rw [tried, hy]
    exact congrArg (x :: ·) (ih hxs)

/-- What stands behind the first question that is refused is not tried. -/
lemma tried_append_cons {before after : List α} {x : α} (h : ∀ y ∈ before, ∃ z, f y = .ok z)
    (hx : f x = .error e) : tried f (before ++ x :: after) = before ++ [x] := by
  induction before with
  | nil => rw [List.nil_append, tried, hx]; rfl
  | cons y before ih =>
    obtain ⟨⟨z, hz⟩, hbefore⟩ := List.forall_mem_cons.mp h
    rw [List.cons_append, tried, hz]
    exact congrArg (y :: ·) (ih hbefore)

end Logging

end InlineExpect
