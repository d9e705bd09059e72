import Mathlib
import InlineExpect.Proofs.Boundary.Course
import InlineExpect.Proofs.Boundary.Indices

/-!
# Searches that are broken off

A search is broken off by the first check that comes to an error, in whatever state it is then, and
keeps the versions that it has checked.  The next run of the same search starts from the beginning
all the same.  Here a run is seen through its transcript, the checks that it makes together with
their verdicts, for checkers that answer as they like and may change with every answer
(`Search.transcribed`).

What a run comes to is read off its transcript (`Search.Accounts`), because a search goes along the
order of its checks (`Search.Proceeds`).  A transcript can also be read to another search
(`Search.scripted`), which comes to the same result: nothing but the answers matters.
-/

namespace InlineExpect

/-- The checks of a run with their verdicts, in order. -/
abbrev Transcript : Type := List (Version × Verdict)

variable {α σ : Type}

/-! ### Transcripts of dialogues -/

/-- A dialogue asks for the checks of a transcript, and with their verdicts comes to a result. -/
inductive Dialogue.Ends : Dialogue α → Transcript → α → Prop
  | result (a : α) : Ends (.result a) [] a
  | ask (v : Version) {next : Verdict → Dialogue α} {verdict : Verdict} {t : Transcript} {a : α}
    (h : Ends (next verdict) t a) : Ends (.ask v next) ((v, verdict) :: t) a

namespace Search

/-- A checker whose checks are written at the end of a transcript, with their verdicts. -/
def transcribed (c : Version → StateM σ Verdict) (v : Version) :
    StateT Transcript (StateM σ) Verdict := do
  let verdict ← StateT.lift (c v)
  modify fun t => t ++ [(v, verdict)]
  return verdict

/-- A checker that reads its verdicts from a script, whatever it is asked for.  Behind the end of
the script everything passes. -/
def scripted (_ : Version) : StateM (List Verdict) Verdict := do
  match ← get with
  | [] => return .ok []
  | verdict :: rest =>
    set rest
    return verdict

end Search

namespace Dialogue

/-- A dialogue that is conducted with a checker comes to its end, and the transcript shows how. -/
lemma exists_ends_conduct (c : Version → StateM σ Verdict) (d : Dialogue α) (t₀ : Transcript)
    (w : σ) : ∃ t a w', d.Ends t a ∧
      ((d.conduct (Search.transcribed c)).run t₀).run w = ((a, t₀ ++ t), w') ∧
      (d.conduct c).run w = (a, w') := by
  induction d generalizing t₀ w with
  | result a => exact ⟨[], a, w, .result a, by rw [List.append_nil]; rfl, rfl⟩
  | ask v next ih =>
    obtain ⟨verdict, w₁, hc⟩ : ∃ verdict w₁, (c v).run w = (verdict, w₁) := ⟨_, _, rfl⟩
    obtain ⟨t, a, w', hends, htranscribed, hrun⟩ := ih verdict (t₀ ++ [(v, verdict)]) w₁
    have hcheck : ((Search.transcribed c v).run t₀).run w =
        ((verdict, t₀ ++ [(v, verdict)]), w₁) := by
      change ((((c v).run w).1, t₀ ++ [(v, ((c v).run w).1)]), ((c v).run w).2) = _
      rw [hc]
    refine ⟨(v, verdict) :: t, a, w', .ask v hends, ?_, ?_⟩
    · rw [conduct, StateT.run_bind, StateT.run_bind, hcheck]
      rw [List.append_assoc] at htranscribed
      exact htranscribed
    · rw [conduct, StateT.run_bind, hc]
      exact hrun

/-- A dialogue to which the verdicts of a transcript are read comes to the end of the transcript. -/
lemma Ends.conduct_scripted {d : Dialogue α} {t : Transcript} {a : α} (h : d.Ends t a) :
    (d.conduct Search.scripted).run (t.map Prod.snd) = (a, []) := by
  induction h with
  | result a => rfl
  | ask v h ih => exact ih

end Dialogue

namespace Search

/-! ### What a transcript tells -/

/-- The transcript of a run tells its result.  Either no check comes to an error, and the outcome
lists the checks; or the last check does, and it is the first one. -/
inductive Accounts : Transcript → Except CheckError Outcome → Prop
  | finished {t : Transcript} {o : Outcome} (hok : ∀ x ∈ t, ∃ failures, x.2 = .ok failures)
    (hchecked : o.checked = t.map Prod.fst) : Accounts t (.ok o)
  | brokenOff {t : Transcript} (hok : ∀ x ∈ t, ∃ failures, x.2 = .ok failures) (v : Version)
    (e : CheckError) : Accounts (t ++ [(v, .error e)]) (.error e)

/-- A search that goes along some versions comes to the result that its transcript tells. -/
lemma Proceeds.accounts {checked ahead : List Version}
    {d : Dialogue (Except CheckError Outcome × Search)} (h : Proceeds checked ahead d)
    {past t : Transcript} {r : Except CheckError Outcome} {s : Search} (hends : d.Ends t (r, s))
    (hchecked : past.map Prod.fst = checked)
    (hpast : ∀ x ∈ past, ∃ failures, x.2 = .ok failures) :
    Accounts (past ++ t) r ∧ t.map Prod.fst <+: ahead := by
  induction h generalizing past t with
  | ended ahead s h =>
    cases hends
    rw [List.append_nil]
    exact ⟨.finished hpast (h.trans hchecked.symm), List.nil_prefix⟩
  | @next checked ahead v next aborted passed ih =>
    cases hends with
    | @ask _ _ verdict t _ hends =>
      cases verdict with
      | error e =>
        obtain ⟨s', hs', -⟩ := aborted e
        rw [hs'] at hends
        cases hends
        exact ⟨.brokenOff hpast v e, List.prefix_append [v] ahead⟩
      | ok failures =>
        have hpast' : ∀ x ∈ past ++ [(v, .ok failures)], ∃ failures, x.2 = .ok failures := by
          intro x hx
          rcases List.mem_append.mp hx with hx | hx
          · exact hpast x hx
          · rw [List.mem_singleton.mp hx]
            exact ⟨failures, rfl⟩
        have hchecked' : (past ++ [(v, Except.ok failures)]).map Prod.fst = checked ++ [v] := by
          rw [List.map_append, hchecked]
          rfl
        obtain ⟨haccounts, hprefix⟩ := ih failures hends hchecked' hpast'
        rw [List.append_assoc] at haccounts
        exact ⟨haccounts, (List.prefix_append_right_inj [v]).mpr hprefix⟩

/-- A run checks versions of its list, and is broken off by the first check that comes to an error
and by nothing else. -/
structure BreaksOffCleanly (l : VersionList) (t : Transcript) (r : Except CheckError Outcome) :
    Prop where
  error_iff : (∃ e, r = .error e) ↔ ∃ x ∈ t, ∃ e, x.2 = .error e
  /-- The error is that of the last check, and the checks before it have come to none. -/
  first_error : ∀ e, r = .error e →
    ∃ before v, t = before ++ [(v, .error e)] ∧ ∀ x ∈ before, ∃ failures, x.2 = .ok failures
  /-- The search itself never ends up in a state that it cannot get into. -/
  reachable : ∀ package detail, r = .error (.unreachable package detail) →
    ∃ v, (v, .error (.unreachable package detail)) ∈ t
  checked_eq : ∀ o, r = .ok o → o.checked = t.map Prod.fst
  mem_versions : ∀ x ∈ t, x.1 ∈ l.versions

/-- The versions in the order of the checks are those of the list. -/
lemma mem_versions_of_mem_route {l : VersionList} {v : Version} (h : v ∈ l.route) :
    v ∈ l.versions := by
  rw [VersionList.route] at h
  rcases List.mem_cons.mp h with rfl | h
  · exact List.getLast_mem l.ne_nil
  split at h
  · simp at h
  · rcases List.mem_cons.mp h with rfl | h
    · exact List.head_mem l.ne_nil
    · exact List.mem_of_mem_tail (List.mem_of_mem_dropLast (List.mem_reverse.mp h))

/-- A run whose transcript tells its result is broken off by nothing but a check. -/
lemma Accounts.breaksOffCleanly {l : VersionList} {t : Transcript} {r : Except CheckError Outcome}
    (h : Accounts t r) (hroute : t.map Prod.fst <+: l.route) : BreaksOffCleanly l t r := by
  have hmem : ∀ x ∈ t, x.1 ∈ l.versions := fun x hx =>
    mem_versions_of_mem_route (hroute.subset (List.mem_map_of_mem hx))
  cases h with
  | finished hok hchecked =>
    refine ⟨⟨?_, ?_⟩, ?_, ?_, fun o ho => ?_, hmem⟩
    · rintro ⟨e, he⟩
      cases he
    · rintro ⟨x, hx, e, he⟩
      obtain ⟨failures, hfailures⟩ := hok x hx
      rw [he] at hfailures
      cases hfailures
    · intro e he
      cases he
    · intro package detail he
      cases he
    · rw [← Except.ok.inj ho, hchecked]
  | @brokenOff t hok v e =>
    have hlast : (v, .error e) ∈ t ++ [(v, .error e)] :=
      List.mem_append_right t (List.mem_singleton_self _)
    refine ⟨⟨fun _ => ⟨_, hlast, e, rfl⟩, fun _ => ⟨e, rfl⟩⟩, ?_, ?_, ?_, hmem⟩
    · intro e' he'
      obtain rfl := Except.error.inj he'
      exact ⟨t, v, rfl, hok⟩
    · intro package detail he'
      obtain rfl := Except.error.inj he'
      exact ⟨v, hlast⟩
    · intro o ho
      cases ho

/-! ### Runs one after the other -/

/-- A run that a search is asked for: a package with its checker, and versions. -/
structure Request (σ : Type) where
  package : String
  check : Version → StateM σ Verdict
  versions : VersionList

/-- The result of a run, the search after it, and the state that its checker leaves. -/
def Request.serve (q : Request σ) (s : Search) (w : σ) : (Except CheckError Outcome × Search) × σ :=
  ((run q.check q.package q.versions).run.run s).run w

/-- The search and the state of the checkers that a history of runs leaves, which begins with a new
search. -/
def leftBy (history : List (Request σ)) (w : σ) : Search × σ :=
  history.foldl (fun x q => ((q.serve x.1 x.2).1.2, (q.serve x.1 x.2).2)) ({}, w)

/-- Nothing of what a search has kept is left when it is run again. -/
lemma run_eq_run_new {m : Type → Type} [Monad m] [LawfulMonad m]
    (c : Version → m Verdict) (package : String) (l : VersionList) (s : Search) :
    (run c package l).run.run s = (run c package l).run.run {} := by
  rw [run, ExceptT.run_bind, StateT.run_bind, StateT.run_bind, run_set s, run_set ({} : Search)]

/-- Whatever the answers of a checker are and whatever was left by earlier runs, broken off or not,
a run is broken off by the first check that comes to an error and by nothing else: it has the error
of this check and makes no further one.  It does what the run of a new search does, with the same
checker and with any that gives the same answers, and none of its lookups in the list of versions
falls outside. -/
theorem breaksOffCleanly_run (history : List (Request σ)) (q : Request σ) (w₀ : σ) :
    ∃ t r s' w', BreaksOffCleanly q.versions t r ∧
      q.serve (leftBy history w₀).1 (leftBy history w₀).2 = ((r, s'), w') ∧
      (((run (transcribed q.check) q.package q.versions).run.run (leftBy history w₀).1).run []).run
        (leftBy history w₀).2 = (((r, s'), t), w') ∧
      q.serve {} (leftBy history w₀).2 = ((r, s'), w') ∧
      ((run scripted q.package q.versions).run.run {}).run (t.map Prod.snd) = ((r, s'), []) ∧
      ((runByIndex q.check q.package q.versions).run.run (leftBy history w₀).1).run
        (leftBy history w₀).2 = ((r.mapError .check, s'), w') := by
  generalize leftBy history w₀ = left
  obtain ⟨s, w⟩ := left
  dsimp only
  obtain ⟨t, ⟨r, s'⟩, w', hends, htranscribed, hrun⟩ := Dialogue.exists_ends_conduct q.check
    ((run Dialogue.check q.package q.versions).run.run s) [] w
  obtain ⟨haccounts, hroute⟩ :=
    (proceeds_run q.package q.versions s).accounts hends List.map_nil (List.forall_mem_nil _)
  have hscripted := hends.conduct_scripted
  rw [(isDialogueOf_run _ q.package q.versions).conduct_run] at htranscribed hrun hscripted
  refine ⟨t, r, s', w', haccounts.breaksOffCleanly hroute, ?_, htranscribed, ?_, ?_, ?_⟩
  · rw [Request.serve, hrun]
  · rw [Request.serve, ← run_eq_run_new _ _ _ s, hrun]
  · rw [← run_eq_run_new _ _ _ s, hscripted]
  · rw [runByIndex_eq, run_indexed, StateT.run_map, hrun]
    rfl

end Search

end InlineExpect
