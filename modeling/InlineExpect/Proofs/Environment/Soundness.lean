import Mathlib
import InlineExpect.Proofs.Environment.Interleaving

/-!
# What turns of requests keep

The invariant of requests that share a cache says for each of them how it fits the cache
(`SharedCache.Fits`): a lock is held by the request whose stage says so, a slot is the slot of the
version that is asked for, it is empty as long as an environment for it is made, and the events of
the request are those of an attempt that has come as far as its stage says.  A turn changes the
stage of one request and one slot at most, which is free or is the one whose lock the request has,
so that all other requests fit as before (`SharedCache.Sound.turn`).
-/

namespace InlineExpect

/-! ### What a request has done, and what it knows -/

/-- An environment of a version is what some calls of an installer have come to. -/
def Environment.MadeBy (v : Version) (calls : List InstallerCall) (e : Environment) : Prop :=
  e.version = v ∧ Attempt v calls (.ok (e.installedHere, e.factory))

/-- The events of a request that has come to a result: none if it has found an environment, those of
a whole attempt otherwise. -/
def Concludes (v : Version) (k : Nat) (events : List FlightEvent) :
    Except InstallFault Environment → Prop
  | .ok e => events = [] ∨
    ∃ calls, events = calls.map (.called k) ++ [.made k e, .stored k e] ∧ e.MadeBy v calls
  | .error fault =>
    ∃ calls, events = calls.map (.called k) ++ [.failed k fault] ∧ Attempt v calls (.error fault)

/-- An event of a request that has come to a result is a call, or belongs to the result. -/
lemma Concludes.mem_cases {v : Version} {k : Nat} {events : List FlightEvent}
    {result : Except InstallFault Environment} {x : FlightEvent} (h : Concludes v k events result)
    (hx : x ∈ events) :
    (∃ call, x = .called k call ∧ call.version = v) ∨
      (∃ e, result = .ok e ∧ (x = .made k e ∨ x = .stored k e)) ∨
      ∃ fault, result = .error fault ∧ x = .failed k fault := by
  cases result with
  | error fault =>
    obtain ⟨calls, rfl, hattempt⟩ := h
    rcases List.mem_append.mp hx with hx | hx
    · obtain ⟨call, hcall, rfl⟩ := List.mem_map.mp hx
      exact .inl ⟨call, rfl, hattempt.version_eq call hcall⟩
    · exact .inr (.inr ⟨fault, rfl, List.mem_singleton.mp hx⟩)
  | ok e =>
    rcases h with rfl | ⟨calls, rfl, hmade⟩
    · cases hx
    rcases List.mem_append.mp hx with hx | hx
    · obtain ⟨call, hcall, rfl⟩ := List.mem_map.mp hx
      exact .inl ⟨call, rfl, hmade.2.version_eq call hcall⟩
    · exact .inr (.inl ⟨e, rfl, by simpa using hx⟩)

namespace Stage

/-- The events of a request are those of an attempt that has come as far as the stage says. -/
def Records (v : Version) (k : Nat) (events : List FlightEvent) : Stage → Prop
  | arriving | waiting _ | looking _ => events = []
  | asking _ q next => ∃ calls, events = calls.map (.called k) ∧
    ∀ calls' made, (Consultation.ask q next).Ends calls' made → Attempt v (calls ++ calls') made
  | storing _ e => ∃ calls, events = calls.map (.called k) ++ [.made k e] ∧ e.MadeBy v calls
  | leaving _ result | returned result => Concludes v k events result

/-- What a request knows about its slot, and about the environment that is kept for its version. -/
def Sees (slots : Nat → Slot) (kept : Option Environment) : Stage → Prop
  | asking σ _ _ | storing σ _ | leaving σ (.error _) => (slots σ).environment = none
  | leaving σ (.ok e) => (slots σ).environment = some e
  | returned (.ok e) => kept = some e
  | arriving | waiting _ | looking _ | returned (.error _) => True

/-- The events of a request that has come to a result are those that lead to it. -/
lemma Records.concludes {v : Version} {k : Nat} {events : List FlightEvent} {stage : Stage}
    {result : Except InstallFault Environment} (h : stage.Records v k events)
    (hresult : stage.result? = some result) : Concludes v k events result := by
  cases stage with
  | leaving _ result' | returned result' =>
    obtain rfl : result' = result := Option.some.inj hresult
    exact h
  | _ => cases hresult

/-- An event of a request is a call, or belongs to the result that the stage has. -/
lemma Records.mem_cases {v : Version} {k : Nat} {events : List FlightEvent} {stage : Stage}
    {x : FlightEvent} (h : stage.Records v k events) (hx : x ∈ events) :
    (∃ call, x = .called k call ∧ call.version = v) ∨
      (∃ σ e, stage = .storing σ e ∧ x = .made k e) ∨
      (∃ e, stage.result? = some (.ok e) ∧ (x = .made k e ∨ x = .stored k e)) ∨
      ∃ fault, stage.result? = some (.error fault) ∧ x = .failed k fault := by
  cases stage with
  | arriving | waiting | looking =>
    obtain rfl : events = [] := h
    cases hx
  | asking σ q next =>
    obtain ⟨calls, rfl, hattempt⟩ := h
    obtain ⟨calls', made, hends⟩ := (Consultation.ask q next).exists_ends
    obtain ⟨call, hcall, rfl⟩ := List.mem_map.mp hx
    have hversion := (hattempt calls' made hends).version_eq call (List.mem_append_left _ hcall)
    exact .inl ⟨call, rfl, hversion⟩
  | storing σ e =>
    obtain ⟨calls, rfl, hmade⟩ := h
    rcases List.mem_append.mp hx with hx | hx
    · obtain ⟨call, hcall, rfl⟩ := List.mem_map.mp hx
      exact .inl ⟨call, rfl, hmade.2.version_eq call hcall⟩
    · exact .inr (.inl ⟨σ, e, rfl, List.mem_singleton.mp hx⟩)
  | leaving _ result | returned result =>
    rcases Concludes.mem_cases h hx with hcall | ⟨e, rfl, he⟩ | ⟨fault, rfl, hfault⟩
    · exact .inl hcall
    · exact .inr (.inr (.inl ⟨e, rfl, he⟩))
    · exact .inr (.inr (.inr ⟨fault, rfl, hfault⟩))

/-- A request knows the same when the environment in its slot stays as it is and what is kept is
kept. -/
lemma Sees.mono {stage : Stage} {slots slots' : Nat → Slot} {kept kept' : Option Environment}
    (h : stage.Sees slots kept)
    (hslots : ∀ σ, stage.held? = some σ → (slots' σ).environment = (slots σ).environment)
    (hkept : ∀ e, kept = some e → kept' = some e) : stage.Sees slots' kept' := by
  cases stage with
  | arriving => trivial
  | waiting σ => trivial
  | looking σ => trivial
  | asking σ q next => exact (hslots σ rfl).trans h
  | storing σ e => exact (hslots σ rfl).trans h
  | leaving σ result =>
    cases result with
    | error fault => exact (hslots σ rfl).trans h
    | ok e => exact (hslots σ rfl).trans h
  | returned result =>
    cases result with
    | error fault => trivial
    | ok e => exact hkept e h

end Stage

/-- An event may precede another one: once an environment of a version has been made it is stored,
and nothing else happens for the version, and once it has been stored nothing happens at all. -/
def FlightEvent.Precedes (asks : Nat → Version) (x y : FlightEvent) : Prop :=
  asks x.request = asks y.request →
    match x with
    | .made _ _ => ∃ k e, y = .stored k e
    | .stored _ _ => False
    | .called _ _ | .failed _ _ => True

namespace SharedCache

/-- A request fits a cache. -/
structure Fits (asks : Nat → Version) (s : SharedCache) (k : Nat) : Prop where
  holder_iff : ∀ σ, (s.slots σ).holder = some k ↔ (s.stages k).held? = some σ
  table_eq : ∀ σ, (s.stages k).slot? = some σ → s.table (asks k) = some σ
  sees : (s.stages k).Sees s.slots (s.environment? (asks k))
  records : (s.stages k).Records (asks k) k (s.eventsOf k)

/-- The slots of a cache belong to different versions, and the log is in order. -/
structure Shaped (asks : Nat → Version) (s : SharedCache) : Prop where
  table_inj : ∀ u v σ, s.table u = some σ → s.table v = some σ → u = v
  table_lt : ∀ v σ, s.table v = some σ → σ < s.slotCount
  fresh : ∀ σ, s.slotCount ≤ σ → s.slots σ = {}
  ordered : s.log.Pairwise (FlightEvent.Precedes asks)

/-- What every turn keeps. -/
structure Sound (asks : Nat → Version) (s : SharedCache) : Prop where
  fits : ∀ k, s.Fits asks k
  shaped : s.Shaped asks
  stored : ∀ σ e, (s.slots σ).environment = some e →
    ∃ k, s.table (asks k) = some σ ∧ .stored k e ∈ s.log

variable {asks : Nat → Version} {s : SharedCache} {j k σ τ : Nat} {v : Version} {e : Environment}
  {slot : Slot} {stage : Stage} {events : List FlightEvent}

/-- The environment of a version is the one in its slot. -/
lemma environment?_eq (h : s.table v = some σ) :
    s.environment? v = (s.slots σ).environment := by
  rw [environment?, slot?, h]
  rfl

/-- An event of a request has been done by it. -/
lemma mem_eventsOf {x : FlightEvent} : x ∈ s.eventsOf k ↔ x ∈ s.log ∧ x.request = k := by
  rw [eventsOf, List.mem_filter, decide_eq_true_eq]

/-- The events of a step are added to those of its request. -/
lemma eventsOf_advance_self (h : ∀ x ∈ events, x.request = k) :
    (s.advance k stage events).eventsOf k = s.eventsOf k ++ events := by
  rw [eventsOf, log_advance, List.filter_append]
  congr 1
  exact List.filter_eq_self.mpr fun x hx => decide_eq_true (h x hx)

/-- The events of a step are added to those of no other request. -/
lemma eventsOf_advance_of_ne (hjk : j ≠ k) (h : ∀ x ∈ events, x.request = k) :
    (s.advance k stage events).eventsOf j = s.eventsOf j := by
  have hnone : events.filter (fun x => x.request = j) = [] := by
    refine List.filter_eq_nil_iff.mpr fun x hx hj => hjk ?_
    rw [← of_decide_eq_true hj, h x hx]
  rw [eventsOf, log_advance, List.filter_append, hnone, List.append_nil, eventsOf]

/-! ### Requests that have no turn -/

/-- A request fits after a turn of another one that only changes a stage. -/
lemma Fits.advance (h : s.Fits asks j) (hjk : j ≠ k) (hevents : ∀ x ∈ events, x.request = k) :
    (s.advance k stage events).Fits asks j := by
  have hstage : (s.advance k stage events).stages j = s.stages j := by
    rw [stages_advance, Function.update_of_ne hjk]
  refine ⟨?_, ?_, ?_, ?_⟩
  · rw [hstage]
    exact h.holder_iff
  · rw [hstage]
    exact h.table_eq
  · rw [hstage]
    exact h.sees
  · rw [hstage, eventsOf_advance_of_ne hjk hevents]
    exact h.records

/-- What is kept for a version is kept when a slot is changed without losing an environment. -/
lemma environment?_setSlot (h : s.environment? v = some e)
    (hslot : ∀ e, (s.slots τ).environment = some e → slot.environment = some e) :
    (s.setSlot τ slot).environment? v = some e := by
  cases hv : s.table v with
  | none =>
    rw [environment?, slot?, hv] at h
    cases h
  | some σ =>
    have hσ : (s.setSlot τ slot).table v = some σ := hv
    rw [environment?_eq hv] at h
    rw [environment?_eq hσ, slots_setSlot]
    by_cases hστ : σ = τ
    · subst hστ
      rw [Function.update_self]
      exact hslot e h
    · rwa [Function.update_of_ne hστ]

/-- A request fits after a change of a slot whose lock it does not have. -/
lemma Fits.setSlot (h : s.Fits asks j) (hheld : (s.stages j).held? ≠ some τ)
    (hholder : slot.holder ≠ some j)
    (hslot : ∀ e, (s.slots τ).environment = some e → slot.environment = some e) :
    (s.setSlot τ slot).Fits asks j := by
  refine ⟨fun σ => ?_, h.table_eq, ?_, h.records⟩
  · rw [slots_setSlot]
    by_cases hστ : σ = τ
    · subst hστ
      rw [Function.update_self]
      exact iff_of_false hholder hheld
    · rw [Function.update_of_ne hστ]
      exact h.holder_iff σ
  · refine h.sees.mono (fun σ hσ => ?_) fun e he => environment?_setSlot he hslot
    have hστ : σ ≠ τ := by
      rintro rfl
      exact hheld hσ
    rw [slots_setSlot, Function.update_of_ne hστ]

/-- A new slot is empty, as it was before it belonged to a version. -/
lemma Shaped.slots_addSlot_apply (h : s.Shaped asks) (v : Version) (σ : Nat) :
    (s.addSlot v).slots σ = s.slots σ := by
  rw [slots_addSlot]
  by_cases hσ : σ = s.slotCount
  · subst hσ
    rw [Function.update_self, h.fresh _ le_rfl]
  · rw [Function.update_of_ne hσ]

/-- A request fits after a version without a slot has got one. -/
lemma Fits.addSlot (h : s.Fits asks j) (hs : s.Shaped asks) (hv : s.table v = none) :
    (s.addSlot v).Fits asks j := by
  have hslots := hs.slots_addSlot_apply v
  have htable : ∀ u σ, s.table u = some σ → (s.addSlot v).table u = some σ := by
    intro u σ hu
    have huv : u ≠ v := by
      rintro rfl
      rw [hv] at hu
      cases hu
    rw [table_addSlot, Function.update_of_ne huv, hu]
  refine ⟨fun σ => ?_, fun σ hσ => htable _ σ (h.table_eq σ hσ), ?_, h.records⟩
  · rw [hslots]
    exact h.holder_iff σ
  · refine h.sees.mono (fun σ _ => by rw [hslots]) fun e he => ?_
    cases hj : s.table (asks j) with
    | none =>
      rw [environment?, slot?, hj] at he
      cases he
    | some σ => rwa [environment?_eq (htable _ σ hj), hslots, ← environment?_eq hj]

/-! ### What the past says about the present -/

namespace Sound

/-- A request that has come to an environment has the one that is kept. -/
lemma kept_of_result (h : s.Sound asks) (hk : (s.stages k).result? = some (.ok e)) :
    s.environment? (asks k) = some e := by
  have hfits := h.fits k
  have hsees := hfits.sees
  cases hstage : s.stages k with
  | leaving σ result =>
    rw [hstage] at hk hsees
    obtain rfl : result = .ok e := Option.some.inj hk
    rw [environment?_eq (hfits.table_eq σ (by rw [hstage]; rfl))]
    exact hsees
  | returned result =>
    rw [hstage] at hk hsees
    obtain rfl : result = .ok e := Option.some.inj hk
    exact hsees
  | _ =>
    rw [hstage] at hk
    cases hk

/-- What the stage of a request says about an event of it in the log. -/
lemma mem_log_cases (h : s.Sound asks) {x : FlightEvent} (hx : x ∈ s.log) :
    (∃ call, x = .called x.request call ∧ call.version = asks x.request) ∨
      (∃ σ e, s.stages x.request = .storing σ e ∧ x = .made x.request e) ∨
      (∃ e, (s.stages x.request).result? = some (.ok e) ∧
        (x = .made x.request e ∨ x = .stored x.request e)) ∨
      ∃ fault, (s.stages x.request).result? = some (.error fault) ∧
        x = .failed x.request fault :=
  (h.fits x.request).records.mem_cases (mem_eventsOf.mpr ⟨hx, rfl⟩)

/-- Two requests have the lock of the same slot only if they are the same. -/
lemma eq_of_held (h : s.Sound asks) (hj : (s.stages j).held? = some σ)
    (hk : (s.stages k).held? = some σ) : j = k := by
  have hholder := ((h.fits j).holder_iff σ).mpr hj
  rw [((h.fits k).holder_iff σ).mpr hk] at hholder
  exact (Option.some.inj hholder).symm

/-- What a request does while its slot is empty may follow on the past, if it stores what it has
made. -/
lemma precedes (h : s.Sound asks) (hheld : (s.stages k).held? = some σ)
    (hnone : (s.slots σ).environment = none) {x y : FlightEvent} (hx : x ∈ s.log)
    (hy : y.request = k)
    (hstore : ∀ τ e, s.stages k = .storing τ e → ∃ e, y = .stored k e) : x.Precedes asks y := by
  intro hsame
  rw [hy] at hsame
  have htable := (h.fits k).table_eq σ (Stage.slot?_of_held? hheld)
  have hempty : s.environment? (asks x.request) = none := by
    rw [hsame, environment?_eq htable, hnone]
  rcases h.mem_log_cases hx with ⟨call, hcall, -⟩ | ⟨τ, e, hstage, hmade⟩ | ⟨e, hresult, -⟩ |
    ⟨fault, -, hfailed⟩
  · rw [hcall]
    trivial
  · -- The request that is about to store what it has made is the one with the lock.
    have hτ : (s.stages x.request).held? = some τ := by rw [hstage]; rfl
    have htable' := (h.fits x.request).table_eq τ (Stage.slot?_of_held? hτ)
    rw [hsame, htable] at htable'
    obtain rfl : σ = τ := Option.some.inj htable'
    have hxk := h.eq_of_held hτ hheld
    rw [hmade]
    obtain ⟨e', rfl⟩ := hstore σ e (hxk ▸ hstage)
    exact ⟨k, e', rfl⟩
  · rw [h.kept_of_result hresult] at hempty
    cases hempty
  · rw [hfailed]
    trivial

end Sound

/-! ### Turns -/

/-- A slot of a version can be changed. -/
lemma Shaped.setSlot (h : s.Shaped asks) (hv : s.table v = some τ) :
    (s.setSlot τ slot).Shaped asks := by
  refine ⟨h.table_inj, h.table_lt, fun σ hσ => ?_, h.ordered⟩
  have hτ := h.table_lt v τ hv
  have hστ : σ ≠ τ := by
    rintro rfl
    exact absurd hτ (not_lt.mpr hσ)
  rw [slots_setSlot, Function.update_of_ne hστ]
  exact h.fresh σ hσ

/-- A version can get a slot. -/
lemma Shaped.addSlot (h : s.Shaped asks) (v : Version) : (s.addSlot v).Shaped asks := by
  have hnew : ∀ u, s.table u ≠ some s.slotCount := fun u hu =>
    absurd (h.table_lt u _ hu) (lt_irrefl _)
  refine ⟨fun u w σ hu hw => ?_, fun u σ hu => ?_, fun σ hσ => ?_, h.ordered⟩
  · rw [table_addSlot] at hu hw
    by_cases huv : u = v <;> by_cases hwv : w = v
    · rw [huv, hwv]
    · rw [huv, Function.update_self] at hu
      rw [Function.update_of_ne hwv, ← hu] at hw
      exact absurd hw (hnew w)
    · rw [hwv, Function.update_self] at hw
      rw [Function.update_of_ne huv, ← hw] at hu
      exact absurd hu (hnew u)
    · rw [Function.update_of_ne huv] at hu
      rw [Function.update_of_ne hwv] at hw
      exact h.table_inj u w σ hu hw
  · rw [table_addSlot] at hu
    rw [slotCount_addSlot]
    by_cases huv : u = v
    · rw [huv, Function.update_self] at hu
      rw [← Option.some.inj hu]
      exact Nat.lt_succ_self _
    · rw [Function.update_of_ne huv] at hu
      exact Nat.lt_succ_of_lt (h.table_lt u σ hu)
  · rw [slotCount_addSlot] at hσ
    rw [slots_addSlot]
    by_cases hnew : σ = s.slotCount
    · rw [hnew, Function.update_self]
    · rw [Function.update_of_ne hnew]
      exact h.fresh σ (by omega)

/-- A request fits at a stage that it is brought to. -/
lemma Fits.of_advance (hholder : ∀ σ, (s.slots σ).holder = some k ↔ stage.held? = some σ)
    (htable : ∀ σ, stage.slot? = some σ → s.table (asks k) = some σ)
    (hsees : stage.Sees s.slots (s.environment? (asks k)))
    (hrecords : stage.Records (asks k) k (s.eventsOf k ++ events))
    (hevents : ∀ x ∈ events, x.request = k) : (s.advance k stage events).Fits asks k := by
  have hstage : (s.advance k stage events).stages k = stage := by
    rw [stages_advance, Function.update_self]
  refine ⟨?_, ?_, ?_, ?_⟩
  · rw [hstage]
    exact hholder
  · rw [hstage]
    exact htable
  · rw [hstage]
    exact hsees
  · rw [hstage, eventsOf_advance_self hevents]
    exact hrecords

/-- A cache is sound once the request that has a turn fits at its new stage. -/
lemma Sound.of_advance (hothers : ∀ j, j ≠ k → s.Fits asks j) (hshaped : s.Shaped asks)
    (hself : (s.advance k stage events).Fits asks k)
    (hstored : ∀ σ e, (s.slots σ).environment = some e →
      ∃ j, s.table (asks j) = some σ ∧ .stored j e ∈ s.log ++ events)
    (hevents : ∀ x ∈ events, x.request = k)
    (hordered : (s.log ++ events).Pairwise (FlightEvent.Precedes asks)) :
    (s.advance k stage events).Sound asks := by
  refine ⟨fun j => ?_, ⟨hshaped.table_inj, hshaped.table_lt, hshaped.fresh, hordered⟩, hstored⟩
  by_cases hjk : j = k
  · rwa [hjk]
  · exact (hothers j hjk).advance hjk hevents

namespace Sound

/-- A request that neither takes nor returns a lock comes to another stage. -/
lemma advance (h : s.Sound asks) (hheld : stage.held? = (s.stages k).held?)
    (htable : ∀ σ, stage.slot? = some σ → s.table (asks k) = some σ)
    (hsees : stage.Sees s.slots (s.environment? (asks k)))
    (hrecords : stage.Records (asks k) k (s.eventsOf k ++ events))
    (hevents : ∀ x ∈ events, x.request = k)
    (hordered : (s.log ++ events).Pairwise (FlightEvent.Precedes asks)) :
    (s.advance k stage events).Sound asks := by
  refine of_advance (fun j _ => h.fits j) h.shaped
    (.of_advance (fun σ => hheld ▸ (h.fits k).holder_iff σ) htable hsees hrecords hevents)
    (fun σ e he => ?_) hevents hordered
  obtain ⟨j, hj, hlog⟩ := h.stored σ e he
  exact ⟨j, hj, List.mem_append_left _ hlog⟩

/-- A request changes its slot, which no other request has locked, and comes to another stage. -/
lemma setSlot_advance (h : s.Sound asks) (hσ : s.table (asks k) = some σ)
    (hothers : ∀ j, j ≠ k → (s.stages j).held? ≠ some σ ∧ slot.holder ≠ some j)
    (hkeep : ∀ e, (s.slots σ).environment = some e → slot.environment = some e)
    (hnew : ∀ e, slot.environment = some e →
      (s.slots σ).environment = some e ∨ .stored k e ∈ events)
    (hself : ((s.setSlot σ slot).advance k stage events).Fits asks k)
    (hevents : ∀ x ∈ events, x.request = k)
    (hordered : (s.log ++ events).Pairwise (FlightEvent.Precedes asks)) :
    ((s.setSlot σ slot).advance k stage events).Sound asks := by
  refine of_advance (fun j hj => (h.fits j).setSlot (hothers j hj).1 (hothers j hj).2 hkeep)
    (h.shaped.setSlot hσ) hself (fun τ e he => ?_) hevents hordered
  have hold : (s.slots τ).environment = some e →
      ∃ j, s.table (asks j) = some τ ∧ .stored j e ∈ s.log ++ events := by
    intro he
    obtain ⟨j, hj, hlog⟩ := h.stored τ e he
    exact ⟨j, hj, List.mem_append_left _ hlog⟩
  rw [slots_setSlot] at he
  by_cases hτ : τ = σ
  · subst hτ
    rw [Function.update_self] at he
    rcases hnew e he with he | hmem
    · exact hold he
    · exact ⟨k, hσ, List.mem_append_right _ hmem⟩
  · rw [Function.update_of_ne hτ] at he
    exact hold he

/-- A version without a slot gets one. -/
lemma addSlot (h : s.Sound asks) (hv : s.table v = none) : (s.addSlot v).Sound asks := by
  refine ⟨fun j => (h.fits j).addSlot h.shaped hv, h.shaped.addSlot v, fun σ e he => ?_⟩
  have hσ : σ ≠ s.slotCount := by
    rintro rfl
    rw [slots_addSlot, Function.update_self] at he
    cases he
  rw [slots_addSlot, Function.update_of_ne hσ] at he
  obtain ⟨j, hj, hlog⟩ := h.stored σ e he
  have hjv : asks j ≠ v := by
    intro hjv
    rw [hjv, hv] at hj
    cases hj
  exact ⟨j, by rw [table_addSlot, Function.update_of_ne hjv, hj], hlog⟩

/-- A request takes the slot of its version. -/
lemma arrive (h : s.Sound asks) (hk : s.stages k = .arriving) (hσ : s.table (asks k) = some σ) :
    (s.advance k (.waiting σ) []).Sound asks := by
  have hrecords := (h.fits k).records
  rw [hk] at hrecords
  refine h.advance (by rw [hk]; rfl) (fun τ hτ => ?_) trivial ?_ (by simp) ?_
  · rwa [← Option.some.inj hτ]
  · rw [List.append_nil]
    exact hrecords
  · rw [List.append_nil]
    exact h.shaped.ordered

/-- A request takes a lock that is free. -/
lemma lock (h : s.Sound asks) (hk : s.stages k = .waiting σ) (hfree : (s.slots σ).holder = none) :
    ((s.setSlot σ { s.slots σ with holder := some k }).advance k (.looking σ) []).Sound asks := by
  have hfits := h.fits k
  have htable : s.table (asks k) = some σ := hfits.table_eq σ (by rw [hk]; rfl)
  have hothers : ∀ j, j ≠ k → (s.stages j).held? ≠ some σ ∧ some k ≠ some j := by
    intro j hj
    refine ⟨fun hheld => ?_, fun hkj => hj (Option.some.inj hkj).symm⟩
    rw [((h.fits j).holder_iff σ).mpr hheld] at hfree
    cases hfree
  refine h.setSlot_advance htable hothers (fun e he => he) (fun e he => .inl he) ?_ (by simp) ?_
  · refine .of_advance (fun τ => ?_) (fun τ hτ => ?_) trivial ?_ (by simp)
    · rw [slots_setSlot]
      by_cases hτ : τ = σ
      · subst hτ
        rw [Function.update_self]
        exact iff_of_true rfl rfl
      · have hnone : (s.stages k).held? ≠ some τ := by
          rw [hk]
          exact nofun
        rw [Function.update_of_ne hτ, hfits.holder_iff]
        exact iff_of_false hnone fun hστ => hτ (Option.some.inj hστ).symm
    · rw [table_setSlot, htable]
      exact hτ
    · have hrecords := hfits.records
      rw [hk] at hrecords
      rw [List.append_nil]
      exact hrecords
  · rw [List.append_nil]
    exact h.shaped.ordered

/-- A request finds an environment. -/
lemma hit (h : s.Sound asks) (hk : s.stages k = .looking σ)
    (he : (s.slots σ).environment = some e) :
    (s.advance k (.leaving σ (.ok e)) []).Sound asks := by
  have hrecords := (h.fits k).records
  rw [hk] at hrecords
  refine h.advance (by rw [hk]; rfl) (fun τ hτ => ?_) he ?_ (by simp) ?_
  · exact (h.fits k).table_eq τ (by rw [hk]; exact hτ)
  · rw [List.append_nil]
    exact .inl hrecords
  · rw [List.append_nil]
    exact h.shaped.ordered

/-- The log stays in order while the slot of a request is empty. -/
lemma ordered_append (h : s.Sound asks) (hheld : (s.stages k).held? = some σ)
    (hnone : (s.slots σ).environment = none)
    (hordered : events.Pairwise (FlightEvent.Precedes asks))
    (hevents : ∀ x ∈ events, x.request = k)
    (hstore : ∀ τ e, s.stages k = .storing τ e → ∀ x ∈ events, ∃ e, x = .stored k e) :
    (s.log ++ events).Pairwise (FlightEvent.Precedes asks) :=
  List.pairwise_append.mpr ⟨h.shaped.ordered, hordered, fun _ hx y hy =>
    h.precedes hheld hnone hx (hevents y hy) fun τ e hτ => hstore τ e hτ y hy⟩

/-- A request that makes an environment goes on up to its next question, or to its end. -/
lemma proceed (h : s.Sound asks) (hheld : (s.stages k).held? = some σ)
    (hnone : (s.slots σ).environment = none) (hstage : ∀ τ e, s.stages k ≠ .storing τ e)
    (calls : List InstallerCall) (hevents : ∀ x ∈ events, ∃ call, x = .called k call)
    (hcalls : s.eventsOf k ++ events = calls.map (.called k))
    {x : Consultation (Except InstallFault (Bool × EngineFactory))}
    (hx : ∀ calls' made, x.Ends calls' made → Attempt (asks k) (calls ++ calls') made) :
    (s.proceed k (asks k) σ events x).Sound asks := by
  have htable : ∀ τ, some σ = some τ → s.table (asks k) = some τ := by
    intro τ hτ
    rw [← Option.some.inj hτ]
    exact (h.fits k).table_eq σ (Stage.slot?_of_held? hheld)
  have hcalled : events.Pairwise (FlightEvent.Precedes asks) := by
    refine List.pairwise_of_forall_mem_list fun y hy z _ => ?_
    obtain ⟨call, rfl⟩ := hevents y hy
    exact fun _ => trivial
  have hrequest : ∀ y ∈ events, y.request = k := by
    intro y hy
    obtain ⟨call, rfl⟩ := hevents y hy
    rfl
  -- The end of an attempt may follow on its calls.
  have hlast : ∀ y : FlightEvent, y.request = k →
      (s.log ++ (events ++ [y])).Pairwise (FlightEvent.Precedes asks) ∧
        ∀ z ∈ events ++ [y], z.request = k := by
    intro y hy
    have hall : ∀ z ∈ events ++ [y], z.request = k := by
      intro z hz
      rcases List.mem_append.mp hz with hz | hz
      · exact hrequest z hz
      · rwa [List.mem_singleton.mp hz]
    refine ⟨h.ordered_append hheld hnone ?_ hall fun τ e hτ => absurd hτ (hstage τ e), hall⟩
    refine List.pairwise_append.mpr ⟨hcalled, List.pairwise_singleton _ _, fun z hz _ _ => ?_⟩
    obtain ⟨call, rfl⟩ := hevents z hz
    exact fun _ => trivial
  match x with
  | .ask q next =>
    refine h.advance hheld.symm htable hnone ⟨calls, hcalls, hx⟩ hrequest ?_
    exact h.ordered_append hheld hnone hcalled hrequest fun τ e hτ => absurd hτ (hstage τ e)
  | .result (.error fault) =>
    obtain ⟨hordered, hall⟩ := hlast (.failed k fault) rfl
    have hattempt := hx [] (.error fault) (.result _)
    rw [List.append_nil] at hattempt
    refine h.advance hheld.symm htable hnone ⟨calls, ?_, hattempt⟩ hall hordered
    rw [← List.append_assoc, hcalls]
  | .result (.ok made) =>
    obtain ⟨hordered, hall⟩ :=
      hlast (.made k ⟨asks k, made.1, made.2, s.made⟩) rfl
    have hattempt := hx [] (.ok made) (.result _)
    rw [List.append_nil] at hattempt
    have hsound : ({ s with made := s.made + 1 } : SharedCache).Sound asks :=
      ⟨fun j => ⟨(h.fits j).holder_iff, (h.fits j).table_eq, (h.fits j).sees, (h.fits j).records⟩,
        ⟨h.shaped.table_inj, h.shaped.table_lt, h.shaped.fresh, h.shaped.ordered⟩, h.stored⟩
    refine hsound.advance hheld.symm htable hnone ⟨calls, ?_, rfl, hattempt⟩ hall hordered
    change s.eventsOf k ++ _ = _
    rw [← List.append_assoc, hcalls]

/-- A request stores what it has made. -/
lemma store (h : s.Sound asks) (hk : s.stages k = .storing σ e) :
    ((s.setSlot σ { s.slots σ with environment := some e }).advance k (.leaving σ (.ok e))
      [.stored k e]).Sound asks := by
  have hfits := h.fits k
  have hheld : (s.stages k).held? = some σ := by rw [hk]; rfl
  have htable := hfits.table_eq σ (Stage.slot?_of_held? hheld)
  have hholder := (hfits.holder_iff σ).mpr hheld
  have hsees := hfits.sees
  have hrecords := hfits.records
  rw [hk] at hsees hrecords
  have hnone : (s.slots σ).environment = none := hsees
  have hrequest : ∀ x ∈ [FlightEvent.stored k e], x.request = k := fun x hx => by
    rw [List.mem_singleton.mp hx]
    rfl
  have hothers : ∀ j, j ≠ k →
      (s.stages j).held? ≠ some σ ∧ (s.slots σ).holder ≠ some j := by
    intro j hj
    refine ⟨fun hj' => hj (h.eq_of_held hj' hheld), fun hj' => ?_⟩
    rw [hholder] at hj'
    exact hj (Option.some.inj hj').symm
  refine h.setSlot_advance htable hothers (fun e' he' => ?_) (fun e' he' => .inr ?_) ?_ hrequest ?_
  · rw [hnone] at he'
    cases he'
  · rw [Option.some.inj he']
    exact List.mem_singleton_self _
  · refine .of_advance (fun τ => ?_) (fun τ hτ => ?_) ?_ ?_ hrequest
    · rw [slots_setSlot]
      by_cases hτ : τ = σ
      · subst hτ
        rw [Function.update_self]
        exact iff_of_true hholder rfl
      · rw [Function.update_of_ne hτ, hfits.holder_iff, hheld]
        rfl
    · rw [table_setSlot, htable]
      exact hτ
    · rw [slots_setSlot]
      change (Function.update s.slots σ _ σ).environment = some e
      rw [Function.update_self]
    · obtain ⟨calls, hcalls, hmade⟩ := hrecords
      refine .inr ⟨calls, ?_, hmade⟩
      change s.eventsOf k ++ _ = _
      rw [hcalls, List.append_assoc]
      rfl
  · exact h.ordered_append hheld hnone (List.pairwise_singleton _ _) hrequest
      fun τ e' _ x hx => ⟨e, List.mem_singleton.mp hx⟩

/-- A request returns its lock, and its result. -/
lemma leave {result : Except InstallFault Environment} (h : s.Sound asks)
    (hk : s.stages k = .leaving σ result) :
    ((s.setSlot σ { s.slots σ with holder := none }).advance k (.returned result) []).Sound
      asks := by
  have hfits := h.fits k
  have hheld : (s.stages k).held? = some σ := by rw [hk]; rfl
  have htable := hfits.table_eq σ (Stage.slot?_of_held? hheld)
  have hothers : ∀ j, j ≠ k → (s.stages j).held? ≠ some σ ∧ none ≠ some j :=
    fun j hj => ⟨fun hj' => hj (h.eq_of_held hj' hheld), nofun⟩
  refine h.setSlot_advance htable hothers (fun e he => he) (fun e he => .inl he) ?_ (by simp) ?_
  · refine .of_advance (fun τ => ?_) (fun τ hτ => by cases hτ) ?_ ?_ (by simp)
    · refine iff_of_false (fun hτ => ?_) nofun
      rw [slots_setSlot] at hτ
      by_cases hτσ : τ = σ
      · subst hτσ
        rw [Function.update_self] at hτ
        cases hτ
      · rw [Function.update_of_ne hτσ, hfits.holder_iff, hheld] at hτ
        exact hτσ (Option.some.inj hτ).symm
    · cases result with
      | error fault => trivial
      | ok e =>
        exact environment?_setSlot (h.kept_of_result (by rw [hk]; rfl)) fun e he => he
    · have hrecords := hfits.records
      rw [hk] at hrecords
      rw [List.append_nil]
      exact hrecords
  · rw [List.append_nil]
    exact h.shaped.ordered

/-- A turn keeps a cache sound. -/
theorem turn (h : s.Sound asks) (t : Turn) : (s.turn asks t).Sound asks := by
  have hrecords := (h.fits t.request).records
  have hsees := (h.fits t.request).sees
  cases hk : s.stages t.request with
  | arriving =>
    cases hσ : s.table (asks t.request) with
    | some σ =>
      rw [turn_arriving_some hk hσ]
      exact h.arrive hk hσ
    | none =>
      rw [turn_arriving_none hk hσ]
      exact (h.addSlot hσ).arrive hk (by rw [table_addSlot, Function.update_self])
  | waiting σ =>
    by_cases hfree : (s.slots σ).holder = none
    · rw [turn_waiting_free hk hfree]
      exact h.lock hk hfree
    · rwa [turn_waiting_held hk hfree]
  | looking σ =>
    cases he : (s.slots σ).environment with
    | some e =>
      rw [turn_looking_some hk he]
      exact h.hit hk he
    | none =>
      rw [hk] at hrecords
      have hnil : s.eventsOf t.request = [] := hrecords
      rw [turn_looking_none hk he]
      refine h.proceed (by rw [hk]; rfl) he (fun τ e hτ => ?_) [] (fun x hx => by cases hx)
        (by rw [hnil]; rfl) fun calls made => EnvironmentCache.attempt_of_ends
      rw [hk] at hτ
      cases hτ
  | asking σ q next =>
    rw [hk] at hrecords hsees
    obtain ⟨calls, hcalls, hattempt⟩ := hrecords
    rw [turn_asking hk]
    refine h.proceed (by rw [hk]; rfl) hsees (fun τ e hτ => ?_)
      (calls ++ [q.call (t.answers q)]) (fun x hx => ⟨_, List.mem_singleton.mp hx⟩) ?_
      fun calls' made hends => ?_
    · rw [hk] at hτ
      cases hτ
    · rw [hcalls, List.map_append]
      rfl
    · rw [List.append_assoc]
      exact hattempt _ made (.ask hends)
  | storing σ e =>
    rw [turn_storing hk]
    exact h.store hk
  | leaving σ result =>
    rw [turn_leaving hk]
    exact h.leave hk
  | returned result => rwa [turn_returned hk]

/-- A turn changes the slot of the version that is asked for at most, and only if no other request
has locked it. -/
lemma slots_turn (h : s.Sound asks) (t : Turn) (τ : Nat) :
    (s.turn asks t).slots τ = s.slots τ ∨
      s.table (asks t.request) = some τ ∧ ∀ j, j ≠ t.request → (s.stages j).held? ≠ some τ := by
  have hfits := h.fits t.request
  -- A slot that is changed is that of the request, and the request has its lock or may take it.
  have hset : ∀ σ slot, (s.stages t.request).slot? = some σ →
      (∀ j, j ≠ t.request → (s.stages j).held? ≠ some σ) →
      (s.setSlot σ slot).slots τ = s.slots τ ∨ s.table (asks t.request) = some τ ∧
        ∀ j, j ≠ t.request → (s.stages j).held? ≠ some τ := by
    intro σ slot hσ hothers
    by_cases hτ : τ = σ
    · rw [hτ]
      exact .inr ⟨hfits.table_eq σ hσ, hothers⟩
    · left
      rw [slots_setSlot, Function.update_of_ne hτ]
  have hheld : ∀ σ, (s.stages t.request).held? = some σ →
      ∀ j, j ≠ t.request → (s.stages j).held? ≠ some σ :=
    fun σ hσ j hj hj' => hj (h.eq_of_held hj' hσ)
  cases hk : s.stages t.request with
  | arriving =>
    cases hσ : s.table (asks t.request) with
    | some σ =>
      rw [turn_arriving_some hk hσ]
      exact .inl rfl
    | none =>
      rw [turn_arriving_none hk hσ]
      exact .inl (h.shaped.slots_addSlot_apply (asks t.request) τ)
  | waiting σ =>
    by_cases hfree : (s.slots σ).holder = none
    · rw [turn_waiting_free hk hfree]
      refine hset σ _ (by rw [hk]; rfl) fun j _ hj' => ?_
      rw [((h.fits j).holder_iff σ).mpr hj'] at hfree
      cases hfree
    · rw [turn_waiting_held hk hfree]
      exact .inl rfl
  | looking σ =>
    cases he : (s.slots σ).environment with
    | some e =>
      rw [turn_looking_some hk he]
      exact .inl rfl
    | none =>
      rw [turn_looking_none hk he, slots_proceed]
      exact .inl rfl
  | asking σ q next =>
    rw [turn_asking hk, slots_proceed]
    exact .inl rfl
  | storing σ e =>
    rw [turn_storing hk]
    exact hset σ _ (by rw [hk]; rfl) (hheld σ (by rw [hk]; rfl))
  | leaving σ result =>
    rw [turn_leaving hk]
    exact hset σ _ (by rw [hk]; rfl) (hheld σ (by rw [hk]; rfl))
  | returned result =>
    rw [turn_returned hk]
    exact .inl rfl

end Sound

/-- A cache without slots is sound. -/
lemma sound_start (asks : Nat → Version) : start.Sound asks where
  fits _ := ⟨fun _ => iff_of_false nofun nofun, nofun, trivial, rfl⟩
  shaped := ⟨nofun, nofun, fun _ _ => rfl, .nil⟩
  stored := nofun

/-- All turns keep a cache sound. -/
lemma Sound.foldl (h : s.Sound asks) (turns : List Turn) :
    (turns.foldl (SharedCache.turn asks) s).Sound asks := by
  induction turns generalizing s with
  | nil => exact h
  | cons t turns ih => exact ih (h.turn t)

end SharedCache

end InlineExpect
