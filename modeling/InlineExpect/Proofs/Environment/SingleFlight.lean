import Mathlib
import InlineExpect.Proofs.Environment.Soundness

/-!
# Single flight

However requests of a shared cache take turns, and whatever the installer answers, at most one
environment of a version is made, and whoever asks for the version and has an environment has that
one.  A failure is seen by the request that has run into it alone: it leaves the slot empty, and the
next request that comes to the slot tries for itself.  All of this is read off the invariant of the
turns, which `SharedCache.singleFlight_run` gathers in one statement.
-/

namespace InlineExpect

/-- Whether an event is that an environment has been made for a version. -/
def FlightEvent.makes (asks : Nat → Version) (v : Version) : FlightEvent → Bool
  | .made k _ => asks k = v
  | _ => false

namespace SharedCache

variable {asks : Nat → Version} {s : SharedCache} {j k σ : Nat} {v : Version} {e : Environment}

/-- At most one environment of a version is made, all requests of the version that have one have
that one, and no request suffers from the failure of another one. -/
structure SingleFlight (asks : Nat → Version) (s : SharedCache) : Prop where
  /-- The making of an environment succeeds at most once for each version. -/
  made_le_one : ∀ v, s.log.countP (·.makes asks v) ≤ 1
  /-- A request that is answered with an environment has the one that was made for its version. -/
  agrees : ∀ k e, s.stages k = .returned (.ok e) →
    e.version = asks k ∧ ∃ j, asks j = asks k ∧ .made j e ∈ s.log
  /-- Once an environment is stored, the installer is not called for its version any more. -/
  quiet : ∀ before after j e, s.log = before ++ .stored j e :: after →
    ∀ k call, .called k call ∈ after → call.version ≠ asks j
  /-- A request that is answered has found an environment without a call of the installer, or has
  made a whole attempt, and its answer is what came of it. -/
  concludes : ∀ k result, s.stages k = .returned result →
    Concludes (asks k) k (s.eventsOf k) result
  /-- What has failed is the result of the request that has tried, and of no other one. -/
  failed_iff : ∀ k fault,
    .failed k fault ∈ s.log ↔ (s.stages k).result? = some (.error fault)
  /-- A request that has failed leaves its slot empty and free. -/
  leaves_empty : ∀ t σ fault, s.stages t.request = .leaving σ (.error fault) →
    s.table (asks t.request) = some σ ∧ (s.slots σ).environment = none ∧
      (s.turn asks t).slots σ = {} ∧
      (s.turn asks t).stages t.request = .returned (.error fault)
  /-- A request that waits for a slot, and finds it empty and free, makes an attempt of its own,
  whatever other requests do in the meantime. -/
  retries : ∀ (t t' : Turn) (between : List Turn) σ, t'.request = t.request →
    (∀ u ∈ between, u.request ≠ t.request) → s.stages t.request = .waiting σ → s.slots σ = {} →
    ∃ q next, EnvironmentCache.construction (asks t.request) = .ask q next ∧
      ((t :: between ++ [t']).foldl (turn asks) s).stages t.request = .asking σ q next
  /-- A request changes the slot of no other version. -/
  isolated : ∀ t v, v ≠ asks t.request → (s.turn asks t).slot? v = s.slot? v

namespace Sound

/-- The making of an environment succeeds at most once for each version. -/
lemma made_le_one (h : s.Sound asks) (v : Version) : s.log.countP (·.makes asks v) ≤ 1 := by
  have hmakes : ∀ x : FlightEvent, x.makes asks v = true → ∃ k e, x = .made k e ∧ asks k = v := by
    intro x hx
    cases x with
    | made k e => exact ⟨k, e, rfl, of_decide_eq_true hx⟩
    | _ => cases hx
  have hmem : ∀ x ∈ s.log.filter (·.makes asks v), ∃ k e, x = .made k e ∧ asks k = v :=
    fun x hx => hmakes x (List.mem_filter.mp hx).2
  have hordered := h.shaped.ordered.filter (·.makes asks v)
  rw [List.countP_eq_length_filter]
  rcases hlist : s.log.filter (·.makes asks v) with _ | ⟨x, _ | ⟨y, rest⟩⟩
  · rw [hlist]
    exact Nat.zero_le 1
  · rw [hlist]
    exact le_rfl
  · rw [hlist] at hmem hordered
    obtain ⟨j, e, rfl, hj⟩ := hmem x List.mem_cons_self
    obtain ⟨k, e', rfl, hk⟩ := hmem y (List.mem_cons_of_mem _ List.mem_cons_self)
    have hprecedes := (List.pairwise_cons.mp hordered).1 _ List.mem_cons_self
    obtain ⟨i, e'', hstored⟩ := hprecedes (hj.trans hk.symm)
    cases hstored

/-- What is kept for a version has been made for it. -/
lemma made_of_kept (h : s.Sound asks) (hv : s.environment? v = some e) :
    ∃ j, asks j = v ∧ .made j e ∈ s.log ∧ e.version = v := by
  cases hσ : s.table v with
  | none =>
    rw [environment?, slot?, hσ] at hv
    cases hv
  | some σ =>
    rw [environment?_eq hσ] at hv
    obtain ⟨j, hj, hstored⟩ := h.stored σ e hv
    have hjv := h.shaped.table_inj _ _ σ hj hσ
    have hrecords := (h.fits j).records
    rcases h.mem_log_cases hstored with ⟨call, hcall, -⟩ | ⟨τ, e', -, hmade⟩ | ⟨e', hresult, he'⟩ |
      ⟨fault, -, hfailed⟩
    · cases hcall
    · cases hmade
    · rcases hrecords.concludes hresult with hnil | ⟨calls, hcalls, hmade⟩
      · have hmem : .stored j e ∈ s.eventsOf j := mem_eventsOf.mpr ⟨hstored, rfl⟩
        rw [hnil] at hmem
        cases hmem
      · obtain rfl : e = e' := by simpa [FlightEvent.request] using he'
        have hmem : .made j e ∈ s.eventsOf j := by rw [hcalls]; simp
        exact ⟨j, hjv, (mem_eventsOf.mp hmem).1, hmade.1.trans hjv⟩
    · cases hfailed

/-- What has failed is the result of the request that has tried. -/
lemma failed_iff (h : s.Sound asks) (k : Nat) (fault : InstallFault) :
    .failed k fault ∈ s.log ↔ (s.stages k).result? = some (.error fault) := by
  constructor
  · intro hfailed
    rcases h.mem_log_cases hfailed with ⟨call, hcall, -⟩ | ⟨τ, e, -, hmade⟩ | ⟨e, -, he⟩ |
      ⟨fault', hresult, hfault⟩
    · cases hcall
    · cases hmade
    · simp at he
    · obtain rfl : fault = fault' := by simpa [FlightEvent.request] using hfault
      exact hresult
  · intro hresult
    obtain ⟨calls, hcalls, -⟩ := (h.fits k).records.concludes hresult
    have hmem : .failed k fault ∈ s.eventsOf k := by rw [hcalls]; simp
    exact (mem_eventsOf.mp hmem).1

/-- Once an environment is stored, the installer is not called for its version any more. -/
lemma quiet (h : s.Sound asks) {before after : List FlightEvent}
    (hlog : s.log = before ++ .stored j e :: after) {call : InstallerCall}
    (hcall : .called k call ∈ after) : call.version ≠ asks j := by
  intro hversion
  have hordered := h.shaped.ordered
  have hmem : .called k call ∈ s.log := by
    rw [hlog]
    exact List.mem_append_right _ (List.mem_cons_of_mem _ hcall)
  rw [hlog, List.pairwise_append, List.pairwise_cons] at hordered
  have hprecedes := hordered.2.1.1 _ hcall
  rcases h.mem_log_cases hmem with ⟨call', hcall', hown⟩ | ⟨τ, e', -, hmade⟩ | ⟨e', -, he'⟩ |
    ⟨fault, -, hfailed⟩
  · obtain rfl : call = call' := by simpa [FlightEvent.request] using hcall'
    exact hprecedes (hversion.symm.trans hown)
  · cases hmade
  · simp at he'
  · cases hfailed

/-- The slot of another version stays as it is. -/
lemma isolated (h : s.Sound asks) {t : Turn} (hv : v ≠ asks t.request) :
    (s.turn asks t).slot? v = s.slot? v := by
  rw [slot?, slot?, s.table_turn_of_ne v hv]
  cases hτ : s.table v with
  | none => rfl
  | some τ =>
    rcases h.slots_turn t τ with hslots | ⟨htable, -⟩
    · rw [Option.map_some, Option.map_some, hslots]
    · exact absurd (h.shaped.table_inj _ _ τ hτ htable) hv

/-- A request that has the lock of an empty slot keeps it while others have turns. -/
lemma looking_foldl (h : s.Sound asks) (hk : s.stages k = .looking σ)
    (hnone : (s.slots σ).environment = none) (turns : List Turn)
    (hturns : ∀ u ∈ turns, u.request ≠ k) :
    (turns.foldl (SharedCache.turn asks) s).stages k = .looking σ ∧
      ((turns.foldl (SharedCache.turn asks) s).slots σ).environment = none := by
  induction turns generalizing s with
  | nil => exact ⟨hk, hnone⟩
  | cons u turns ih =>
    have hu := hturns u List.mem_cons_self
    refine ih (h.turn u) ?_ ?_ fun u' hu' => hturns u' (List.mem_cons_of_mem u hu')
    · rw [s.stages_turn_of_ne k hu.symm, hk]
    · rcases h.slots_turn u σ with hslots | ⟨-, hothers⟩
      · rw [hslots, hnone]
      · exact absurd (by rw [hk]; rfl) (hothers k hu.symm)

/-- A request that finds its slot empty and free makes an attempt of its own. -/
lemma retries (h : s.Sound asks) {t t' : Turn} {between : List Turn} (ht : t'.request = t.request)
    (hbetween : ∀ u ∈ between, u.request ≠ t.request) (hk : s.stages t.request = .waiting σ)
    (hslot : s.slots σ = {}) :
    ∃ q next, EnvironmentCache.construction (asks t.request) = .ask q next ∧
      ((t :: between ++ [t']).foldl (SharedCache.turn asks) s).stages t.request =
        .asking σ q next := by
  have hlocked : s.turn asks t = _ := turn_waiting_free hk (by rw [hslot])
  have hlooking : (s.turn asks t).stages t.request = .looking σ := by
    rw [hlocked, stages_advance, Function.update_self]
  have hempty : ((s.turn asks t).slots σ).environment = none := by
    rw [hlocked, slots_advance, slots_setSlot, Function.update_self, hslot]
  obtain ⟨hstage, hnone⟩ := (h.turn t).looking_foldl hlooking hempty between hbetween
  refine ⟨_, _, EnvironmentCache.construction_eq _, ?_⟩
  rw [List.cons_append, List.foldl_cons, List.foldl_append, List.foldl_cons, List.foldl_nil]
  rw [← ht] at hstage ⊢
  rw [turn_looking_none hstage hnone, EnvironmentCache.construction_eq, SharedCache.proceed,
    stages_advance, Function.update_self]

/-- A request that has failed leaves its slot empty and free. -/
lemma leaves_empty (h : s.Sound asks) {t : Turn} {fault : InstallFault}
    (hk : s.stages t.request = .leaving σ (.error fault)) :
    s.table (asks t.request) = some σ ∧ (s.slots σ).environment = none ∧
      (s.turn asks t).slots σ = {} ∧
      (s.turn asks t).stages t.request = .returned (.error fault) := by
  have hfits := h.fits t.request
  have hsees := hfits.sees
  rw [hk] at hsees
  have hnone : (s.slots σ).environment = none := hsees
  refine ⟨hfits.table_eq σ (by rw [hk]; rfl), hnone, ?_, ?_⟩
  · rw [turn_leaving hk, slots_advance, slots_setSlot, Function.update_self]
    exact congrArg (Slot.mk none) hnone
  · rw [turn_leaving hk, stages_advance, Function.update_self]

end Sound

/-- However requests take turns on a cache, and whatever the installer answers, they are in single
flight. -/
theorem singleFlight_run (asks : Nat → Version) (turns : List Turn) :
    SingleFlight asks (run asks turns) := by
  have h : (run asks turns).Sound asks := (sound_start asks).foldl turns
  refine ⟨h.made_le_one, fun k e hk => ?_, fun _ _ _ _ hlog _ _ hcall => h.quiet hlog hcall,
    fun k result hk => ?_, h.failed_iff, fun _ _ _ hk => h.leaves_empty hk,
    fun _ _ _ _ ht hbetween hk hslot => h.retries ht hbetween hk hslot,
    fun _ _ hv => h.isolated hv⟩
  · obtain ⟨j, hj, hmade, hversion⟩ := h.made_of_kept (h.kept_of_result (by rw [hk]; rfl))
    exact ⟨hversion, j, hj, hmade⟩
  · exact (h.fits k).records.concludes (by rw [hk]; rfl)

end SharedCache

end InlineExpect
