import Mathlib
import InlineExpect.Proofs.Environment.Soundness

/-!
# A request alone

The steps of a request are those of `EnvironmentCache.get`: a request that no other one interrupts
comes to the result that `get` comes to, leaves the installer in the same world, and leaves the same
environments behind (`SharedCache.reaches_get`).
-/

namespace InlineExpect

variable {W : Type}

namespace SharedCache

/-- A cache without slots and locks has the same environments as a shared one, none of whose locks
is held. -/
structure Represents (s : SharedCache) (c : EnvironmentCache) : Prop where
  kept_eq : ∀ v, s.environment? v = c.environment? v
  made_eq : s.made = c.made
  free : ∀ σ, (s.slots σ).holder = none

/-- A turn of a request whose questions are answered by an installer. -/
def turnWith (i : Installer (StateM W)) (asks : Nat → Version) (k : Nat) (p : SharedCache × W) :
    SharedCache × W :=
  (p.1.turn asks ⟨k, fun q => ((i.answer q).run p.2).1⟩,
    match p.1.stages k with
    | .asking _ q _ => ((i.answer q).run p.2).2
    | _ => p.2)

/-- A cache is reached by turns of one request alone. -/
def Reaches (i : Installer (StateM W)) (asks : Nat → Version) (k : Nat)
    (p p' : SharedCache × W) : Prop := ∃ n, (turnWith i asks k)^[n] p = p'

variable {i : Installer (StateM W)} {asks : Nat → Version} {k σ : Nat} {s : SharedCache}
  {c : EnvironmentCache} {v : Version} {w : W} {p p' p'' : SharedCache × W}

namespace Reaches

lemma refl (p : SharedCache × W) : Reaches i asks k p p := ⟨0, rfl⟩

lemma of_turn (h : turnWith i asks k p = p') : Reaches i asks k p p' := ⟨1, h⟩

lemma trans (h : Reaches i asks k p p') (h' : Reaches i asks k p' p'') :
    Reaches i asks k p p'' := by
  obtain ⟨m, rfl⟩ := h
  obtain ⟨n, rfl⟩ := h'
  exact ⟨n + m, Function.iterate_add_apply _ n m p⟩

end Reaches

/-- The making of an environment goes on where it was left. -/
lemma proceed_advance (stage : Stage) (events events' : List FlightEvent)
    (x : Consultation (Except InstallFault (Bool × EngineFactory))) :
    (s.advance k stage events).proceed k v σ events' x =
      s.proceed k v σ (events ++ events') x := by
  match x with
  | .ask q next => exact s.advance_advance k stage events _ events'
  | .result (.error fault) =>
    rw [proceed, proceed, advance_advance, List.append_assoc]
  | .result (.ok made) =>
    have h := advance_advance { s with made := s.made + 1 } k stage events
      (.storing σ ⟨v, made.1, made.2, s.made⟩) (events' ++ [.made k ⟨v, made.1, made.2, s.made⟩])
    rw [← List.append_assoc] at h
    exact h

/-- A request alone conducts the making of an environment to its end. -/
lemma reaches_conduct (i : Installer (StateM W)) (asks : Nat → Version) (k σ : Nat)
    (s : SharedCache) (x : Consultation (Except InstallFault (Bool × EngineFactory)))
    (events : List FlightEvent) (w : W) :
    ∃ events', Reaches i asks k (s.proceed k (asks k) σ events x, w)
      (s.proceed k (asks k) σ events' (.result ((x.conduct i).run w).1),
        ((x.conduct i).run w).2) := by
  induction x generalizing events w with
  | result a => exact ⟨events, .refl _⟩
  | ask q next ih =>
    rw [Consultation.run_conduct_ask]
    obtain ⟨events', h⟩ := ih ((i.answer q).run w).1
      (events ++ [.called k (q.call ((i.answer q).run w).1)]) ((i.answer q).run w).2
    have hk : (s.advance k (.asking σ q next) events).stages k = .asking σ q next := by
      rw [stages_advance, Function.update_self]
    have hturn : turnWith i asks k (s.advance k (.asking σ q next) events, w) =
        (s.proceed k (asks k) σ (events ++ [.called k (q.call ((i.answer q).run w).1)])
          (next ((i.answer q).run w).1), ((i.answer q).run w).2) := by
      rw [turnWith, turn_asking hk, proceed_advance, hk]
    exact ⟨events', (Reaches.of_turn hturn).trans h⟩

/-- A turn at which no question is asked leaves the world as it is. -/
lemma turnWith_eq (h : ∀ σ q next, s.stages k ≠ .asking σ q next) (w : W) :
    turnWith i asks k (s, w) = (s.turn asks ⟨k, fun q => ((i.answer q).run w).1⟩, w) := by
  unfold turnWith
  dsimp only
  split
  · rename_i hk
    exact absurd hk (h _ _ _)
  · rfl

/-- A request with a result returns it, and the lock. -/
lemma reaches_returned {result : Except InstallFault Environment}
    (hk : s.stages k = .leaving σ result) (w : W) :
    Reaches i asks k (s, w)
      ((s.setSlot σ { s.slots σ with holder := none }).advance k (.returned result) [], w) := by
  refine .of_turn ?_
  rw [turnWith_eq (by rw [hk]; exact nofun), turn_leaving hk]

/-- A cache represents a shared one of which only the slot of a version has changed, in which its
environment is now. -/
lemma Represents.change (hc : s.Represents c) (h : s.Sound asks) (hσ : s.table v = some σ)
    {s' : SharedCache} {c' : EnvironmentCache} (htable : s'.table = s.table)
    (hself : s'.slots σ = ⟨none, c'.environment? v⟩)
    (hothers : ∀ τ, τ ≠ σ → s'.slots τ = s.slots τ) (hmade : s'.made = c'.made)
    (hkeep : ∀ u, u ≠ v → c'.environment? u = c.environment? u) : s'.Represents c' := by
  refine ⟨fun u => ?_, hmade, fun τ => ?_⟩
  · by_cases huv : u = v
    · subst huv
      rw [environment?_eq (htable ▸ hσ), hself]
    · rw [hkeep u huv, ← hc.kept_eq]
      cases hτ : s.table u with
      | none => rw [environment?, slot?, environment?, slot?, htable, hτ]; rfl
      | some τ =>
        have hτσ : τ ≠ σ := by
          rintro rfl
          exact huv (h.shaped.table_inj u v τ hτ hσ)
        rw [environment?_eq hτ, environment?_eq (htable ▸ hτ), hothers τ hτσ]
  · by_cases hτσ : τ = σ
    · rw [hτσ, hself]
    · rw [hothers τ hτσ]
      exact hc.free τ

/-- A request alone that has its slot comes to the result of `EnvironmentCache.get`. -/
lemma reaches_get_of_waiting (h : s.Sound asks) (hc : s.Represents c)
    (hk : s.stages k = .waiting σ) (w : W) :
    ∃ s', Reaches i asks k (s, w)
        (s', (EnvironmentCache.exec (EnvironmentCache.get i.lift (asks k)) c w).2) ∧
      s'.stages k =
        .returned (EnvironmentCache.exec (EnvironmentCache.get i.lift (asks k)) c w).1.1 ∧
      s'.Represents (EnvironmentCache.exec (EnvironmentCache.get i.lift (asks k)) c w).1.2 := by
  have htable : s.table (asks k) = some σ := (h.fits k).table_eq σ (by rw [hk]; rfl)
  have henv : (s.slots σ).environment = c.environment? (asks k) := by
    rw [← environment?_eq htable, hc.kept_eq]
  set locked := (s.setSlot σ { s.slots σ with holder := some k }).advance k (.looking σ) []
    with hlocked
  have hlooking : locked.stages k = .looking σ := by
    rw [hlocked, stages_advance, Function.update_self]
  have hslot : (locked.slots σ).environment = c.environment? (asks k) := by
    rw [hlocked, slots_advance, slots_setSlot, Function.update_self]
    exact henv
  have hlock : turnWith i asks k (s, w) = (locked, w) := by
    rw [turnWith_eq (by rw [hk]; exact nofun), turn_waiting_free hk (hc.free σ)]
  -- Once the lock is returned, only the slot of the version may have changed.
  have hother : ∀ τ, τ ≠ σ → locked.slots τ = s.slots τ := by
    intro τ hτ
    rw [hlocked, slots_advance, slots_setSlot, Function.update_of_ne hτ]
  rw [EnvironmentCache.exec_get]
  cases he : c.environment? (asks k) with
  | some e =>
    have hleaving : (locked.advance k (.leaving σ (.ok e)) []).stages k = .leaving σ (.ok e) := by
      rw [stages_advance, Function.update_self]
    have hfound : turnWith i asks k (locked, w) =
        (locked.advance k (.leaving σ (.ok e)) [], w) := by
      rw [turnWith_eq (by rw [hlooking]; exact nofun),
        turn_looking_some hlooking (hslot.trans he)]
    refine ⟨_, (Reaches.of_turn hlock).trans ((Reaches.of_turn hfound).trans
      (reaches_returned hleaving w)), ?_, ?_⟩
    · rw [stages_advance, Function.update_self]
    · refine hc.change h htable rfl ?_ (fun τ hτ => ?_) hc.made_eq fun u _ => by simp
      · rw [slots_advance, slots_setSlot, Function.update_self, slots_advance,
          EnvironmentCache.environment?_withSlot]
        exact congrArg (Slot.mk none) hslot
      · rw [slots_advance, slots_setSlot, Function.update_of_ne hτ]
        exact hother τ hτ
  | none =>
    have hmiss : turnWith i asks k (locked, w) =
        (locked.proceed k (asks k) σ [] (EnvironmentCache.construction (asks k)), w) := by
      rw [turnWith_eq (by rw [hlooking]; exact nofun),
        turn_looking_none hlooking (hslot.trans he)]
    obtain ⟨events, hconduct⟩ :=
      reaches_conduct i asks k σ locked (EnvironmentCache.construction (asks k)) [] w
    rw [EnvironmentCache.conduct_construction] at hconduct
    have hreaches := (Reaches.of_turn hlock).trans ((Reaches.of_turn hmiss).trans hconduct)
    rcases hattempt : i.attempt (asks k) w with ⟨fault | x, w'⟩ <;> rw [hattempt] at hreaches
    · have hleaving : (locked.proceed k (asks k) σ events (.result (.error fault))).stages k =
          .leaving σ (.error fault) := by
        rw [SharedCache.proceed, stages_advance, Function.update_self]
      refine ⟨_, hreaches.trans (reaches_returned hleaving w'), ?_, ?_⟩
      · rw [stages_advance, Function.update_self]
      · refine hc.change h htable rfl ?_ (fun τ hτ => ?_) hc.made_eq fun u _ => by simp
        · rw [slots_advance, slots_setSlot, Function.update_self, slots_proceed,
            EnvironmentCache.environment?_withSlot]
          exact congrArg (Slot.mk none) hslot
        · rw [slots_advance, slots_setSlot, Function.update_of_ne hτ, slots_proceed]
          exact hother τ hτ
    · set e : Environment := ⟨asks k, x.1, x.2, c.made⟩ with he
      set made := locked.proceed k (asks k) σ events (.result (.ok x)) with hmade
      have hstoring : made.stages k = .storing σ e := by
        rw [hmade, SharedCache.proceed, stages_advance, Function.update_self, he, ← hc.made_eq]
        rfl
      set stored := (made.setSlot σ { made.slots σ with environment := some e }).advance k
        (.leaving σ (.ok e)) [.stored k e] with hstored
      have hstore : turnWith i asks k (made, w') = (stored, w') := by
        rw [turnWith_eq (by rw [hstoring]; exact nofun), turn_storing hstoring]
      have hleaving : stored.stages k = .leaving σ (.ok e) := by
        rw [hstored, stages_advance, Function.update_self]
      refine ⟨_, hreaches.trans ((Reaches.of_turn hstore).trans (reaches_returned hleaving w')),
        ?_, ?_⟩
      · rw [stages_advance, Function.update_self]
      · refine hc.change h htable rfl ?_ (fun τ hτ => ?_) (congrArg (· + 1) hc.made_eq)
          fun u hu => ?_
        · rw [slots_advance, slots_setSlot, Function.update_self, hstored, slots_advance,
            slots_setSlot, Function.update_self, EnvironmentCache.environment?_store, if_pos rfl]
        · rw [slots_advance, slots_setSlot, Function.update_of_ne hτ, hstored, slots_advance,
            slots_setSlot, Function.update_of_ne hτ, hmade, slots_proceed]
          exact hother τ hτ
        · rw [EnvironmentCache.environment?_store, if_neg hu,
            EnvironmentCache.environment?_withSlot]

/-- A new slot changes no environment. -/
lemma Shaped.environment?_addSlot (h : s.Shaped asks) (hv : s.table v = none) (u : Version) :
    (s.addSlot v).environment? u = s.environment? u := by
  by_cases huv : u = v
  · subst huv
    have htable : (s.addSlot u).table u = some s.slotCount := by
      rw [table_addSlot, Function.update_self]
    rw [SharedCache.environment?_eq htable, slots_addSlot, Function.update_self,
      SharedCache.environment?, slot?, hv]
    rfl
  · have hslots : (s.addSlot v).slots = s.slots := funext (h.slots_addSlot_apply v)
    rw [SharedCache.environment?, SharedCache.environment?, slot?, slot?, hslots, table_addSlot,
      Function.update_of_ne huv]

/-- A request alone comes to the result of `EnvironmentCache.get`, leaves the installer in the same
world, and leaves the same environments behind. -/
theorem reaches_get (h : s.Sound asks) (hc : s.Represents c) (hk : s.stages k = .arriving)
    (i : Installer (StateM W)) (w : W) :
    ∃ s', Reaches i asks k (s, w)
        (s', (EnvironmentCache.exec (EnvironmentCache.get i.lift (asks k)) c w).2) ∧
      s'.stages k =
        .returned (EnvironmentCache.exec (EnvironmentCache.get i.lift (asks k)) c w).1.1 ∧
      s'.Represents (EnvironmentCache.exec (EnvironmentCache.get i.lift (asks k)) c w).1.2 := by
  have harrive : ∃ s₁ σ, turnWith i asks k (s, w) = (s₁, w) ∧ s₁.Sound asks ∧
      s₁.Represents c ∧ s₁.stages k = .waiting σ := by
    set t : Turn := ⟨k, fun q => ((i.answer q).run w).1⟩
    have hturn : turnWith i asks k (s, w) = (s.turn asks t, w) :=
      turnWith_eq (by rw [hk]; exact nofun) w
    cases hσ : s.table (asks k) with
    | some σ =>
      have hs : s.turn asks t = _ := turn_arriving_some hk hσ
      refine ⟨s.turn asks t, σ, hturn, h.turn t, ?_, ?_⟩
      · rw [hs]
        exact ⟨hc.kept_eq, hc.made_eq, hc.free⟩
      · rw [hs, stages_advance, Function.update_self]
    | none =>
      have hs : s.turn asks t = _ := turn_arriving_none hk hσ
      refine ⟨s.turn asks t, s.slotCount, hturn, h.turn t, ?_, ?_⟩
      · rw [hs]
        refine ⟨fun u => ?_, hc.made_eq, fun τ => ?_⟩
        · rw [environment?_advance, h.shaped.environment?_addSlot hσ, hc.kept_eq]
        · rw [slots_advance, h.shaped.slots_addSlot_apply]
          exact hc.free τ
      · rw [hs, stages_advance, Function.update_self]
  obtain ⟨s₁, σ, hturn, hsound, hrepresents, hwaiting⟩ := harrive
  obtain ⟨s', hreaches, hresult, hc'⟩ :=
    reaches_get_of_waiting (i := i) hsound hrepresents hwaiting w
  exact ⟨s', (Reaches.of_turn hturn).trans hreaches, hresult, hc'⟩

end SharedCache

end InlineExpect
