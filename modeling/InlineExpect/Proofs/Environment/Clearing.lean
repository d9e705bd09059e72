import Mathlib
import InlineExpect.Proofs.Environment.Interleaving

/-!
# Clearing a cache that requests share

A cache can be cleared at any time, also while environments are made.  Clearing drops the table of
slots, but a request that has taken its slot keeps it, and its lock, to the end.  A request that
arrives afterwards finds no slot, adds one, and has nobody to wait for.  So two environments of one
version can be in the making at the same time (`SharedCache.clearedMidway`).

Requests that use the same slot still wait for each other (`SharedCache.Guarded`), and requests of
one version use the same slot unless the cache is cleared between the moments at which they take
their slots (`SharedCache.eq_of_making`).  A version gets a slot only if it has none, so that at
most one more slot is made for it than the cache is cleared (`SharedCache.Confines`), and no more
environments of it than that are ever in the making at the same time.  So many can be
(`SharedCache.making_moveAll_staggered`).
-/

namespace InlineExpect

/-- What happens to a cache that requests share. -/
inductive CacheMove where
  | turn (t : Turn)
  /-- All slots are dropped. -/
  | clear

/-- Whether the cache is cleared. -/
def CacheMove.isClear : CacheMove → Bool
  | turn _ => false
  | clear => true

/-- A request has begun to make an environment, and has not come to the end of it. -/
def Stage.IsMaking (stage : Stage) : Prop := ∃ σ q next, stage = .asking σ q next

namespace SharedCache

/-- The cache without its slots.  Requests that have taken one still have it. -/
def clear (s : SharedCache) : SharedCache := { s with table := fun _ => none }

/-- A turn of a request, or the clearing of the cache. -/
def move (asks : Nat → Version) (s : SharedCache) : CacheMove → SharedCache
  | .turn t => s.turn asks t
  | .clear => s.clear

/-- A cache after some moves. -/
def moveAll (asks : Nat → Version) (s : SharedCache) (moves : List CacheMove) : SharedCache :=
  moves.foldl (move asks) s

/-- The requests that are making an environment of a version. -/
def making (asks : Nat → Version) (s : SharedCache) (v : Version) : Set Nat :=
  {k | asks k = v ∧ (s.stages k).IsMaking}

variable {asks : Nat → Version} {s : SharedCache} {t : Turn} {j k σ n : Nat} {v : Version}
  {stage : Stage} {slot : Slot} {events : List FlightEvent}

lemma moveAll_cons (x : CacheMove) (moves : List CacheMove) :
    s.moveAll asks (x :: moves) = (s.move asks x).moveAll asks moves := rfl

lemma moveAll_append (moves more : List CacheMove) :
    s.moveAll asks (moves ++ more) = (s.moveAll asks moves).moveAll asks more :=
  List.foldl_append

/-! ### What a turn does to slots and locks -/

/-- What a turn of a request does to a cache, as far as slots and locks go. -/
inductive TurnEffect (asks : Nat → Version) (s : SharedCache) (k : Nat) : SharedCache → Prop
  /-- The request takes the slot of its version. -/
  | take {σ : Nat} (hk : s.stages k = .arriving) (hσ : s.table (asks k) = some σ) :
    TurnEffect asks s k (s.advance k (.waiting σ) [])
  /-- The request adds a slot for its version, and takes it. -/
  | add (hk : s.stages k = .arriving) (hnone : s.table (asks k) = none) :
    TurnEffect asks s k ((s.addSlot (asks k)).advance k (.waiting s.slotCount) [])
  /-- The request takes a lock. -/
  | lock {σ : Nat} (hk : s.stages k = .waiting σ) (hfree : (s.slots σ).holder = none) :
    TurnEffect asks s k
      ((s.setSlot σ { s.slots σ with holder := some k }).advance k (.looking σ) [])
  /-- The request does something while it has a lock. -/
  | work {σ : Nat} {s' : SharedCache} {stage : Stage} {events : List FlightEvent}
    (hk : (s.stages k).held? = some σ) (hstage : stage.held? = some σ)
    (htable : s'.table = s.table) (hcount : s'.slotCount = s.slotCount)
    (hstages : s'.stages = s.stages) (hholder : ∀ τ, (s'.slots τ).holder = (s.slots τ).holder) :
    TurnEffect asks s k (s'.advance k stage events)
  /-- The request returns its lock. -/
  | leave {σ : Nat} {result : Except InstallFault Environment}
    (hk : s.stages k = .leaving σ result) :
    TurnEffect asks s k
      ((s.setSlot σ { s.slots σ with holder := none }).advance k (.returned result) [])
  /-- The request wastes its turn. -/
  | waste (hk : s.stages k ≠ .arriving) : TurnEffect asks s k s

/-- A request that makes an environment keeps its lock. -/
lemma turnEffect_proceed (hk : (s.stages k).held? = some σ)
    (x : Consultation (Except InstallFault (Bool × EngineFactory))) :
    TurnEffect asks s k (s.proceed k v σ events x) := by
  match x with
  | .ask _ _ | .result (.error _) | .result (.ok _) =>
    exact .work hk rfl rfl rfl rfl fun _ => rfl

/-- Each turn has one of these effects. -/
lemma turnEffect_turn (asks : Nat → Version) (s : SharedCache) (t : Turn) :
    TurnEffect asks s t.request (s.turn asks t) := by
  cases hk : s.stages t.request with
  | arriving =>
    cases hσ : s.table (asks t.request) with
    | some σ =>
      rw [turn_arriving_some hk hσ]
      exact .take hk hσ
    | none =>
      rw [turn_arriving_none hk hσ]
      exact .add hk hσ
  | waiting σ =>
    by_cases hfree : (s.slots σ).holder = none
    · rw [turn_waiting_free hk hfree]
      exact .lock hk hfree
    · rw [turn_waiting_held hk hfree]
      exact .waste (by rw [hk]; exact nofun)
  | looking σ =>
    cases he : (s.slots σ).environment with
    | some e =>
      rw [turn_looking_some hk he]
      exact .work (by rw [hk]; rfl) rfl rfl rfl rfl fun _ => rfl
    | none =>
      rw [turn_looking_none hk he]
      exact turnEffect_proceed (by rw [hk]; rfl) _
  | asking σ q next =>
    rw [turn_asking hk]
    exact turnEffect_proceed (by rw [hk]; rfl) _
  | storing σ e =>
    rw [turn_storing hk]
    refine .work (by rw [hk]; rfl) rfl rfl rfl rfl fun τ => ?_
    rw [slots_setSlot]
    by_cases hτ : τ = σ
    · rw [hτ, Function.update_self]
    · rw [Function.update_of_ne hτ]
  | leaving σ result =>
    rw [turn_leaving hk]
    exact .leave hk
  | returned result =>
    rw [turn_returned hk]
    exact .waste (by rw [hk]; exact nofun)

/-! ### Locks -/

/-- Locks are held by the requests whose stages say so, and all slots that are used have been
made. -/
structure Guarded (s : SharedCache) : Prop where
  holder_eq : ∀ k σ, (s.stages k).held? = some σ → (s.slots σ).holder = some k
  slot_lt : ∀ k σ, (s.stages k).slot? = some σ → σ < s.slotCount
  table_lt : ∀ v σ, s.table v = some σ → σ < s.slotCount

namespace Guarded

/-- Two requests have the lock of the same slot only if they are the same. -/
lemma eq_of_held (h : s.Guarded) (hj : (s.stages j).held? = some σ)
    (hk : (s.stages k).held? = some σ) : j = k := by
  have hholder := h.holder_eq j σ hj
  rw [h.holder_eq k σ hk] at hholder
  exact (Option.some.inj hholder).symm

/-- A request comes to a stage at which it has no other lock than it holds. -/
lemma advance (h : s.Guarded) (hheld : ∀ τ, stage.held? = some τ → (s.slots τ).holder = some k)
    (hslot : ∀ τ, stage.slot? = some τ → τ < s.slotCount) :
    (s.advance k stage events).Guarded := by
  refine ⟨fun j τ hj => ?_, fun j τ hj => ?_, h.table_lt⟩
  · rw [stages_advance] at hj
    by_cases hjk : j = k
    · subst hjk
      rw [Function.update_self] at hj
      exact hheld τ hj
    · rw [Function.update_of_ne hjk] at hj
      exact h.holder_eq j τ hj
  · rw [stages_advance] at hj
    by_cases hjk : j = k
    · subst hjk
      rw [Function.update_self] at hj
      exact hslot τ hj
    · rw [Function.update_of_ne hjk] at hj
      exact h.slot_lt j τ hj

/-- A slot is changed without taking its lock away from a request. -/
lemma setSlot (h : s.Guarded)
    (hholder : ∀ k, (s.stages k).held? = some σ → slot.holder = some k) :
    (s.setSlot σ slot).Guarded := by
  refine ⟨fun k τ hk => ?_, h.slot_lt, h.table_lt⟩
  rw [slots_setSlot]
  by_cases hτ : τ = σ
  · subst hτ
    rw [Function.update_self]
    exact hholder k hk
  · rw [Function.update_of_ne hτ]
    exact h.holder_eq k τ hk

/-- A version gets a slot that nobody uses. -/
lemma addSlot (h : s.Guarded) (v : Version) : (s.addSlot v).Guarded := by
  refine ⟨fun k τ hk => ?_, fun k τ hk => Nat.lt_succ_of_lt (h.slot_lt k τ hk), fun u τ hu => ?_⟩
  · have hlt := h.slot_lt k τ (Stage.slot?_of_held? hk)
    rw [slots_addSlot, Function.update_of_ne hlt.ne]
    exact h.holder_eq k τ hk
  · rw [table_addSlot] at hu
    rw [slotCount_addSlot]
    by_cases huv : u = v
    · rw [huv, Function.update_self] at hu
      rw [← Option.some.inj hu]
      exact Nat.lt_succ_self _
    · rw [Function.update_of_ne huv] at hu
      exact Nat.lt_succ_of_lt (h.table_lt u τ hu)

/-- A turn keeps locks with their requests. -/
lemma effect {s' : SharedCache} (h : s.Guarded) (heffect : TurnEffect asks s k s') :
    s'.Guarded := by
  cases heffect with
  | take hk hσ =>
    refine h.advance nofun fun τ hτ => ?_
    rw [← Option.some.inj hτ]
    exact h.table_lt _ _ hσ
  | add hk hnone =>
    refine (h.addSlot (asks k)).advance nofun fun τ hτ => ?_
    rw [← Option.some.inj hτ]
    exact Nat.lt_succ_self s.slotCount
  | @lock σ hk hfree =>
    have hnobody : ∀ j, (s.stages j).held? ≠ some σ := by
      intro j hj
      rw [h.holder_eq j σ hj] at hfree
      cases hfree
    refine (h.setSlot fun j hj => absurd hj (hnobody j)).advance (fun τ hτ => ?_) fun τ hτ => ?_
    · obtain rfl : σ = τ := Option.some.inj hτ
      rw [slots_setSlot, Function.update_self]
    · exact h.slot_lt k τ (by rw [hk]; exact hτ)
  | @work σ s' stage events hk hstage htable hcount hstages hholder =>
    have hs' : s'.Guarded := by
      refine ⟨fun j τ hj => ?_, fun j τ hj => ?_, fun u τ hu => ?_⟩
      · rw [hholder]
        exact h.holder_eq j τ (hstages ▸ hj)
      · rw [hcount]
        exact h.slot_lt j τ (hstages ▸ hj)
      · rw [hcount]
        exact h.table_lt u τ (htable ▸ hu)
    refine hs'.advance (fun τ hτ => ?_) fun τ hτ => ?_
    · rw [hstage, ← hk] at hτ
      exact hs'.holder_eq k τ (by rw [hstages, hτ])
    · rw [Stage.slot?_of_held? hstage, ← Stage.slot?_of_held? hk] at hτ
      exact hs'.slot_lt k τ (by rw [hstages, hτ])
  | @leave σ result hk =>
    have hheld : (s.stages k).held? = some σ := by
      rw [hk]
      rfl
    -- The request has left before its lock is returned, so that no other one loses it.
    have hleft : (s.advance k (.returned result) []).Guarded := h.advance nofun nofun
    refine hleft.setSlot fun j hj => ?_
    rw [stages_advance] at hj
    by_cases hjk : j = k
    · subst hjk
      rw [Function.update_self] at hj
      cases hj
    · rw [Function.update_of_ne hjk] at hj
      exact absurd (h.eq_of_held hj hheld) hjk
  | waste => exact h

/-- No lock is lost when the cache is cleared. -/
lemma clear (h : s.Guarded) : s.clear.Guarded := ⟨h.holder_eq, h.slot_lt, nofun⟩

/-- All moves keep locks with their requests. -/
lemma moveAll (h : s.Guarded) (moves : List CacheMove) : (s.moveAll asks moves).Guarded := by
  induction moves generalizing s with
  | nil => exact h
  | cons x moves ih =>
    cases x with
    | turn t => exact ih (h.effect (turnEffect_turn asks s t))
    | clear => exact ih h.clear

end Guarded

/-- Nobody has a lock before the first turn. -/
lemma guarded_start : start.Guarded := ⟨nofun, nofun, nofun⟩

/-! ### Slots that requests take -/

/-- A request that has a turn takes the slot of its version, or goes on with the slot that it
has. -/
lemma TurnEffect.stages_cases {s' : SharedCache} (h : TurnEffect asks s k s') :
    (s.stages k = .arriving ∧ ∃ σ, s'.stages k = .waiting σ ∧ s'.table (asks k) = some σ) ∨
    (s.stages k ≠ .arriving ∧ s'.stages k ≠ .arriving ∧
      ∀ σ, (s'.stages k).slot? = some σ → (s.stages k).slot? = some σ) := by
  cases h with
  | @take σ hk hσ => exact .inl ⟨hk, σ, by rw [stages_advance, Function.update_self], hσ⟩
  | add hk hnone =>
    refine .inl ⟨hk, s.slotCount, by rw [stages_advance, Function.update_self], ?_⟩
    rw [table_advance, table_addSlot, Function.update_self]
  | lock hk hfree =>
    right
    rw [stages_advance, Function.update_self, hk]
    exact ⟨nofun, nofun, fun τ hτ => hτ⟩
  | work hk hstage =>
    have harriving : ∀ {stage : Stage} {σ}, stage.held? = some σ → stage ≠ .arriving := by
      rintro stage σ hheld rfl
      cases hheld
    right
    rw [stages_advance, Function.update_self, Stage.slot?_of_held? hstage, Stage.slot?_of_held? hk]
    exact ⟨harriving hk, harriving hstage, fun τ hτ => hτ⟩
  | leave hk =>
    right
    rw [stages_advance, Function.update_self, hk]
    exact ⟨nofun, nofun, nofun⟩
  | waste hk => exact .inr ⟨hk, hk, fun τ hτ => hτ⟩

/-- A request uses the slot that it has used, or the one that its version has in the table. -/
lemma slot?_move {x : CacheMove} (h : ((s.move asks x).stages k).slot? = some σ) :
    (s.stages k).slot? = some σ ∨
      s.stages k = .arriving ∧ (s.move asks x).table (asks k) = some σ := by
  cases x with
  | clear => exact .inl h
  | turn t =>
    by_cases hk : k = t.request
    · subst hk
      rcases (turnEffect_turn asks s t).stages_cases with ⟨hold, τ, hnew, htable⟩ | ⟨-, -, hslot⟩
      · rw [move, hnew] at h
        obtain rfl : τ = σ := Option.some.inj h
        exact .inr ⟨hold, htable⟩
      · exact .inl (hslot σ h)
    · rw [move, s.stages_turn_of_ne k hk] at h
      exact .inl h

/-- A request that has taken its slot does not arrive again. -/
lemma arriving_of_move {x : CacheMove} (h : (s.move asks x).stages k = .arriving) :
    s.stages k = .arriving := by
  cases x with
  | clear => exact h
  | turn t =>
    by_cases hk : k = t.request
    · subst hk
      rcases (turnEffect_turn asks s t).stages_cases with ⟨hold, -⟩ | ⟨-, hnew, -⟩
      · exact hold
      · exact absurd h hnew
    · rwa [move, s.stages_turn_of_ne k hk] at h

/-- A request uses the slot that it has taken to the end. -/
lemma slot?_moveAll (moves : List CacheMove) (hk : s.stages k ≠ .arriving)
    (h : ((s.moveAll asks moves).stages k).slot? = some σ) : (s.stages k).slot? = some σ := by
  induction moves generalizing s with
  | nil => exact h
  | cons x moves ih =>
    have hmove := ih (fun harriving => hk (arriving_of_move harriving)) h
    rcases slot?_move hmove with hslot | ⟨harriving, -⟩
    · exact hslot
    · exact absurd harriving hk

/-- A turn gives a slot only to a version that has none. -/
lemma TurnEffect.table_cases {s' : SharedCache} (h : TurnEffect asks s k s') (v : Version) :
    s'.table v = s.table v ∨ s.table v = none ∧ s'.table v = some s.slotCount := by
  cases h with
  | add hk hnone =>
    rw [table_advance, table_addSlot]
    by_cases hv : v = asks k
    · rw [hv, Function.update_self]
      exact .inr ⟨hnone, rfl⟩
    · rw [Function.update_of_ne hv]
      exact .inl rfl
  | work hk hstage htable =>
    rw [table_advance, htable]
    exact .inl rfl
  | take | lock | leave | waste => exact .inl rfl

/-- As long as the cache is not cleared, a request that arrives takes the slot that its version has
from then on. -/
lemma table_moveAll (moves : List CacheMove) (hmoves : ∀ x ∈ moves, x.isClear = false)
    (h : ∀ τ, (s.stages k).slot? = some τ → s.table (asks k) = some τ) :
    ∀ τ, ((s.moveAll asks moves).stages k).slot? = some τ →
      (s.moveAll asks moves).table (asks k) = some τ := by
  induction moves generalizing s with
  | nil => exact h
  | cons x moves ih =>
    refine ih (fun y hy => hmoves y (List.mem_cons_of_mem x hy)) fun τ hτ => ?_
    cases x with
    | clear => exact absurd (hmoves .clear List.mem_cons_self) (by decide)
    | turn t =>
      rcases slot?_move hτ with hslot | ⟨-, htable⟩
      · have htable := h τ hslot
        rcases (turnEffect_turn asks s t).table_cases (asks k) with hsame | ⟨hnone, -⟩
        · exact hsame.trans htable
        · rw [hnone] at htable
          cases htable
      · exact htable

/-! ### Environments in the making -/

/-- A request has the lock of its slot while it makes an environment. -/
lemma exists_held_of_mem_making (h : k ∈ making asks s v) :
    ∃ σ, (s.stages k).held? = some σ := by
  obtain ⟨-, σ, q, next, hk⟩ := h
  exact ⟨σ, by rw [hk]; rfl⟩

/-- A request takes its slot in the course of some moves that follow on others. -/
def TakesSlotIn (asks : Nat → Version) (before moves : List CacheMove) (k : Nat) : Prop :=
  (start.moveAll asks before).stages k = .arriving ∧
    (start.moveAll asks (before ++ moves)).stages k ≠ .arriving

/-- Requests of a version that take their slots while the cache is not cleared do not make
environments at the same time, whatever happens later. -/
lemma eq_of_making {before epoch after : List CacheMove} (hepoch : ∀ x ∈ epoch, x.isClear = false)
    (hj : TakesSlotIn asks before epoch j) (hk : TakesSlotIn asks before epoch k)
    (hmj : j ∈ making asks (start.moveAll asks (before ++ epoch ++ after)) v)
    (hmk : k ∈ making asks (start.moveAll asks (before ++ epoch ++ after)) v) : j = k := by
  obtain ⟨σ, hσ⟩ := exists_held_of_mem_making hmj
  obtain ⟨τ, hτ⟩ := exists_held_of_mem_making hmk
  have htaken : ∀ {i ρ}, TakesSlotIn asks before epoch i →
      ((start.moveAll asks (before ++ epoch ++ after)).stages i).held? = some ρ →
      (start.moveAll asks (before ++ epoch)).table (asks i) = some ρ := by
    intro i ρ hi hρ
    have hslot := Stage.slot?_of_held? hρ
    rw [moveAll_append] at hslot
    have hepochSlot := slot?_moveAll after hi.2 hslot
    rw [moveAll_append] at hepochSlot ⊢
    exact table_moveAll epoch hepoch (by rw [hi.1]; exact nofun) ρ hepochSlot
  have hsame := htaken hj hσ
  rw [hmj.1, ← hmk.1, htaken hk hτ] at hsame
  rw [Option.some.inj hsame] at hτ
  exact (guarded_start.moveAll _).eq_of_held hσ hτ

/-- The requests of a version use only some slots, at most so many as there were clearings and one
more, and one less if the version has no slot now. -/
structure Confines (asks : Nat → Version) (v : Version) (s : SharedCache) (slots : Finset Nat)
    (n : Nat) : Prop where
  uses : ∀ k, asks k = v → ∀ σ, (s.stages k).slot? = some σ → σ ∈ slots
  table : ∀ σ, s.table v = some σ → σ ∈ slots
  card_le : slots.card ≤ n + 1
  card_le_of_none : s.table v = none → slots.card ≤ n

namespace Confines

variable {slots : Finset Nat}

/-- A turn adds a slot at most, and only if the version had none. -/
lemma turn (h : Confines asks v s slots n) (t : Turn) :
    ∃ slots', Confines asks v (s.turn asks t) slots' n := by
  have huses : ∀ slots' : Finset Nat, slots ⊆ slots' →
      (∀ σ, (s.turn asks t).table v = some σ → σ ∈ slots') →
      ∀ k, asks k = v → ∀ σ, ((s.turn asks t).stages k).slot? = some σ → σ ∈ slots' := by
    intro slots' hsub htable k hk σ hσ
    rcases slot?_move (x := .turn t) hσ with hslot | ⟨-, hnew⟩
    · exact hsub (h.uses k hk σ hslot)
    · exact htable σ (hk ▸ hnew)
  rcases (turnEffect_turn asks s t).table_cases v with hsame | ⟨hnone, hnew⟩
  · have htable : ∀ σ, (s.turn asks t).table v = some σ → σ ∈ slots := by
      rw [hsame]
      exact h.table
    exact ⟨slots, huses slots subset_rfl htable, htable, h.card_le, hsame ▸ h.card_le_of_none⟩
  · have htable : ∀ σ, (s.turn asks t).table v = some σ → σ ∈ insert s.slotCount slots := by
      intro σ hσ
      rw [hnew] at hσ
      rw [← Option.some.inj hσ]
      exact Finset.mem_insert_self _ _
    refine ⟨_, huses _ (Finset.subset_insert _ _) htable, htable, ?_, fun hnone' => ?_⟩
    · exact (Finset.card_insert_le _ _).trans (Nat.succ_le_succ (h.card_le_of_none hnone))
    · rw [hnew] at hnone'
      cases hnone'

/-- A cache that is cleared can get one more slot for the version. -/
lemma clear (h : Confines asks v s slots n) : Confines asks v s.clear slots (n + 1) :=
  ⟨h.uses, nofun, h.card_le.trans (Nat.le_succ _), fun _ => h.card_le⟩

/-- After some moves there is one more slot than before for each time that the cache was cleared. -/
lemma moveAll (h : Confines asks v s slots n) (moves : List CacheMove) :
    ∃ slots', Confines asks v (s.moveAll asks moves) slots'
      (n + moves.countP CacheMove.isClear) := by
  induction moves generalizing s slots n with
  | nil => exact ⟨slots, h⟩
  | cons x moves ih =>
    cases x with
    | turn t =>
      obtain ⟨slots', h'⟩ := h.turn t
      exact ih h'
    | clear =>
      rw [List.countP_cons_of_pos rfl, ← Nat.add_assoc, Nat.add_right_comm]
      exact ih h.clear

/-- No more environments are in the making than there are slots. -/
lemma encard_making_le (h : Confines asks v s slots n) (hs : s.Guarded) :
    (making asks s v).encard ≤ n + 1 := by
  have hslots : (making asks s v).encard ≤ (slots : Set Nat).encard := by
    refine Set.encard_le_encard_of_injOn (f := fun k => (s.stages k).held?.getD 0) ?_ ?_
    · intro k hk
      obtain ⟨σ, hσ⟩ := exists_held_of_mem_making hk
      dsimp only
      rw [hσ]
      exact h.uses k hk.1 σ (Stage.slot?_of_held? hσ)
    · intro j hj k hk hjk
      obtain ⟨σ, hσ⟩ := exists_held_of_mem_making hj
      obtain ⟨τ, hτ⟩ := exists_held_of_mem_making hk
      dsimp only at hjk
      rw [hσ, hτ] at hjk
      obtain rfl : σ = τ := hjk
      exact hs.eq_of_held hσ hτ
  rw [Set.encard_coe_eq_coe_finsetCard] at hslots
  exact hslots.trans (by exact_mod_cast h.card_le)

end Confines

/-! ### Requests that arrive one after each clearing -/

/-- A turn in which the installer breaks off, if it is asked. -/
def brokenTurn (k : Nat) : Turn where
  request := k
  answers
    | .isInstalled _ | .install _ | .load _ => .error .crashed

/-- The turns of a request up to the first question to the installer. -/
def firstTurns (k : Nat) : List CacheMove := List.replicate 3 (.turn (brokenTurn k))

/-- One request after the other begins to make an environment, and the cache is cleared in
between. -/
def staggered : Nat → List CacheMove
  | 0 => firstTurns 0
  | c + 1 => staggered c ++ .clear :: firstTurns (c + 1)

lemma moveAll_firstTurns (s : SharedCache) (k : Nat) :
    s.moveAll asks (firstTurns k) =
      ((s.turn asks (brokenTurn k)).turn asks (brokenTurn k)).turn asks (brokenTurn k) := rfl

/-- A request that arrives when its version has no slot begins to make an environment. -/
lemma isMaking_firstTurns (hk : s.stages k = .arriving) (hv : s.table (asks k) = none) :
    ((s.moveAll asks (firstTurns k)).stages k).IsMaking := by
  have harrived := turn_arriving_none (t := brokenTurn k) hk hv
  have hwaiting : (s.turn asks (brokenTurn k)).stages k = .waiting s.slotCount := by
    rw [harrived, stages_advance]
    exact Function.update_self _ _ _
  have hempty : (s.turn asks (brokenTurn k)).slots s.slotCount = {} := by
    rw [harrived, slots_advance, slots_addSlot, Function.update_self]
  have hlocked : (s.turn asks (brokenTurn k)).turn asks (brokenTurn k) = _ :=
    turn_waiting_free (t := brokenTurn k) hwaiting (by rw [hempty])
  have hlooking : ((s.turn asks (brokenTurn k)).turn asks (brokenTurn k)).stages k =
      .looking s.slotCount := by
    rw [hlocked, stages_advance]
    exact Function.update_self _ _ _
  have hnone : (((s.turn asks (brokenTurn k)).turn asks (brokenTurn k)).slots
      s.slotCount).environment = none := by
    rw [hlocked, slots_advance, slots_setSlot, Function.update_self, hempty]
  have hmaking : ((s.turn asks (brokenTurn k)).turn asks (brokenTurn k)).turn asks
      (brokenTurn k) = _ :=
    turn_looking_none (t := brokenTurn k) hlooking hnone
  obtain ⟨q, next, hconstruction⟩ :
      ∃ q next, EnvironmentCache.construction (asks k) = .ask q next :=
    ⟨_, _, EnvironmentCache.construction_eq _⟩
  refine ⟨s.slotCount, q, next, ?_⟩
  rw [moveAll_firstTurns, hmaking, brokenTurn, hconstruction, SharedCache.proceed, stages_advance]
  exact Function.update_self _ _ _

/-- The other requests stay as they are. -/
lemma stages_firstTurns_of_ne (hj : j ≠ k) :
    (s.moveAll asks (firstTurns k)).stages j = s.stages j := by
  have hturn : ∀ s : SharedCache, (s.turn asks (brokenTurn k)).stages j = s.stages j :=
    fun s => s.stages_turn_of_ne j hj
  rw [moveAll_firstTurns, hturn, hturn, hturn]

/-- All requests that have had turns are making an environment, and the others have not arrived. -/
lemma stages_staggered (v : Version) (c : Nat) :
    (∀ k ≤ c, ((start.moveAll (fun _ => v) (staggered c)).stages k).IsMaking) ∧
      ∀ k, c < k → (start.moveAll (fun _ => v) (staggered c)).stages k = .arriving := by
  induction c with
  | zero =>
    refine ⟨fun k hk => ?_, fun k hk => ?_⟩
    · rw [Nat.le_zero.mp hk]
      exact isMaking_firstTurns rfl rfl
    · exact stages_firstTurns_of_ne hk.ne'
  | succ c ih =>
    obtain ⟨hmaking, harriving⟩ := ih
    rw [staggered, moveAll_append, moveAll_cons]
    refine ⟨fun k hk => ?_, fun k hk => ?_⟩
    · rcases Nat.le_succ_iff.mp hk with hle | rfl
      · rw [stages_firstTurns_of_ne (by omega)]
        exact hmaking k hle
      · exact isMaking_firstTurns (harriving (c + 1) (Nat.lt_succ_self c)) rfl
    · rw [stages_firstTurns_of_ne (by omega)]
      exact harriving k (Nat.lt_of_succ_lt hk)

/-- The cache is cleared once between two requests. -/
lemma countP_isClear_staggered (c : Nat) : (staggered c).countP CacheMove.isClear = c := by
  have hfirst : ∀ k, (firstTurns k).countP CacheMove.isClear = 0 := fun _ => rfl
  induction c with
  | zero => exact hfirst 0
  | succ c ih =>
    rw [staggered, List.countP_append, ih, List.countP_cons_of_pos rfl, hfirst]

/-- All these requests make environments of their version at the same time. -/
lemma making_moveAll_staggered (v : Version) (c : Nat) :
    making (fun _ => v) (start.moveAll (fun _ => v) (staggered c)) v = Set.Iic c := by
  obtain ⟨hmaking, harriving⟩ := stages_staggered v c
  ext k
  constructor
  · rintro ⟨-, σ, q, next, hk⟩
    by_contra hlt
    rw [harriving k (not_le.mp hlt)] at hk
    cases hk
  · exact fun hk => ⟨rfl, hmaking k hk⟩

/-! ### The number of environments in the making -/

/-- How a run keeps requests apart that make environments of one version. -/
structure KeepsApart (asks : Nat → Version) (moves : List CacheMove) : Prop where
  /-- Requests of a version that take their slots while the cache is not cleared never make
  environments at the same time. -/
  eq_of_making : ∀ before epoch after, moves = before ++ epoch ++ after →
    (∀ x ∈ epoch, x.isClear = false) → ∀ j k, TakesSlotIn asks before epoch j →
    TakesSlotIn asks before epoch k → ∀ v, j ∈ making asks (start.moveAll asks moves) v →
    k ∈ making asks (start.moveAll asks moves) v → j = k
  /-- At most one more environment of a version is in the making than the cache was cleared. -/
  encard_making_le : ∀ v, (making asks (start.moveAll asks moves) v).encard ≤
    moves.countP CacheMove.isClear + 1

/-- In each run of requests and clearings, environments of one version are in the making at the same
time only for requests that have taken their slots with a clearing in between, and so for one
request at most if the cache is not cleared at all.  There are at most as many of them as there were
clearings, and one more, and some run with as many clearings comes to this number. -/
theorem keepsApart_moveAll (asks : Nat → Version) (moves : List CacheMove) :
    KeepsApart asks moves ∧
      ∀ v, ∃ asks' moves', moves'.countP CacheMove.isClear = moves.countP CacheMove.isClear ∧
        (making asks' (start.moveAll asks' moves') v).encard =
          moves.countP CacheMove.isClear + 1 := by
  refine ⟨⟨?_, fun v => ?_⟩, fun v => ?_⟩
  · rintro before epoch after rfl hepoch j k hj hk v hmj hmk
    exact eq_of_making hepoch hj hk hmj hmk
  · have hstart : Confines asks v start ∅ 0 := ⟨nofun, nofun, Nat.zero_le _, fun _ => le_rfl⟩
    obtain ⟨slots, hslots⟩ := hstart.moveAll moves
    rw [Nat.zero_add] at hslots
    exact hslots.encard_making_le (guarded_start.moveAll moves)
  · refine ⟨fun _ => v, staggered _, countP_isClear_staggered _, ?_⟩
    rw [making_moveAll_staggered, ← Finset.coe_Iic, Set.encard_coe_eq_coe_finsetCard, Nat.card_Iic]
    rfl

/-- A request that finds its version not installed, and begins to install it. -/
def installingTurns (k : Nat) : List CacheMove :=
  firstTurns k ++ [.turn ⟨k, fun
    | .isInstalled _ => .ok false
    | .install _ | .load _ => .error .crashed⟩]

/-- A request begins to install its version, the cache is cleared, and another request begins to
install the same version. -/
def clearedMidway : List CacheMove := installingTurns 0 ++ .clear :: installingTurns 1

/-- If the cache is cleared midway, two requests install a version at the same time. -/
theorem not_subsingleton_making_clearedMidway :
    ¬ (making (fun _ => .next) (start.moveAll (fun _ => .next) clearedMidway)
      .next).Subsingleton := by
  intro h
  have hzero : 0 ∈ making (fun _ => .next) (start.moveAll (fun _ => .next) clearedMidway) .next :=
    ⟨rfl, 0, .install .next, _, rfl⟩
  have hone : 1 ∈ making (fun _ => .next) (start.moveAll (fun _ => .next) clearedMidway) .next :=
    ⟨rfl, 1, .install .next, _, rfl⟩
  exact absurd (h hzero hone) Nat.zero_ne_one

end SharedCache

end InlineExpect
