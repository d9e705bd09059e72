import Mathlib
import InlineExpect.Proofs.Environment.Consultation

/-!
# Requests that share a cache

Requests of a cache that run at the same time take turns, one atomic step at a time.  The cache has
a table of slots, and each slot has a lock: a request takes the slot of its version, or adds one,
waits for its lock, looks what is in it, and makes the environment only if nothing is.  Between two
questions to the installer all other requests may have turns, and a request that cannot go on wastes
its turn.

The answers come with the turns, so that the installer may answer anything at any time, also
differently to different requests.  The making itself is not modelled anew: it is the consultation
`EnvironmentCache.construction`.
-/

namespace InlineExpect

/-- A lock, with the environment that it guards. -/
structure Slot where
  /-- The request that has the lock. -/
  holder : Option Nat := none
  environment : Option Environment := none

/-- How far a request has come. -/
inductive Stage where
  /-- It has no slot yet. -/
  | arriving
  /-- It wants the lock of a slot. -/
  | waiting (slot : Nat)
  /-- It has the lock, and looks what is in the slot. -/
  | looking (slot : Nat)
  /-- It makes an environment, and asks the installer. -/
  | asking (slot : Nat) (q : InstallerQuestion)
    (next : q.Answer → Consultation (Except InstallFault (Bool × EngineFactory)))
  /-- It has made an environment. -/
  | storing (slot : Nat) (e : Environment)
  /-- It has its result, and still the lock. -/
  | leaving (slot : Nat) (result : Except InstallFault Environment)
  | returned (result : Except InstallFault Environment)

namespace Stage

/-- The slot that a request uses. -/
def slot? : Stage → Option Nat
  | waiting σ | looking σ | asking σ _ _ | storing σ _ | leaving σ _ => some σ
  | arriving | returned _ => none

/-- The slot whose lock a request has. -/
def held? : Stage → Option Nat
  | looking σ | asking σ _ _ | storing σ _ | leaving σ _ => some σ
  | arriving | waiting _ | returned _ => none

/-- The result of a request that has come to one. -/
def result? : Stage → Option (Except InstallFault Environment)
  | leaving _ result | returned result => some result
  | _ => none

/-- A request uses the slot whose lock it has. -/
lemma slot?_of_held? {stage : Stage} {σ : Nat} (h : stage.held? = some σ) :
    stage.slot? = some σ := by
  cases stage <;> first | exact h | cases h

end Stage

/-- What a request does that is seen outside of its slot. -/
inductive FlightEvent where
  /-- A call of the installer. -/
  | called (request : Nat) (call : InstallerCall)
  /-- The making of an environment has failed. -/
  | failed (request : Nat) (fault : InstallFault)
  /-- The making of an environment has succeeded. -/
  | made (request : Nat) (e : Environment)
  /-- An environment has been put into the slot of its version. -/
  | stored (request : Nat) (e : Environment)

/-- The request that an event belongs to. -/
def FlightEvent.request : FlightEvent → Nat
  | called k _ | failed k _ | made k _ | stored k _ => k

/-- A turn of a request, with the answer to the question that it asks, if it asks one. -/
structure Turn where
  request : Nat
  answers : (q : InstallerQuestion) → q.Answer

/-- A cache that requests share, and the requests with what they have done so far. -/
structure SharedCache where
  /-- The slot of a version, if it has one. -/
  table : Version → Option Nat
  slots : Nat → Slot
  slotCount : Nat
  /-- The number of environments that were ever made. -/
  made : Nat
  stages : Nat → Stage
  log : List FlightEvent

namespace SharedCache

/-- A cache without slots, before the first turn. -/
def start : SharedCache := ⟨fun _ => none, fun _ => {}, 0, 0, fun _ => .arriving, []⟩

/-- The slot of a version. -/
def slot? (s : SharedCache) (v : Version) : Option Slot := (s.table v).map s.slots

/-- The environment of a version, if it is in its slot. -/
def environment? (s : SharedCache) (v : Version) : Option Environment :=
  (s.slot? v).bind Slot.environment

/-- What a request has done. -/
def eventsOf (s : SharedCache) (k : Nat) : List FlightEvent :=
  s.log.filter fun x => x.request = k

/-! ### Steps -/

/-- Gives a version an empty slot. -/
def addSlot (s : SharedCache) (v : Version) : SharedCache :=
  { s with
    table := Function.update s.table v (some s.slotCount)
    slots := Function.update s.slots s.slotCount {}
    slotCount := s.slotCount + 1 }

/-- Changes a slot. -/
def setSlot (s : SharedCache) (σ : Nat) (slot : Slot) : SharedCache :=
  { s with slots := Function.update s.slots σ slot }

/-- Brings a request to a stage, with some events. -/
def advance (s : SharedCache) (k : Nat) (stage : Stage) (events : List FlightEvent) :
    SharedCache :=
  { s with stages := Function.update s.stages k stage, log := s.log ++ events }

/-- Goes on with the making of an environment up to its next question, or to its end. -/
def proceed (s : SharedCache) (k : Nat) (v : Version) (σ : Nat) (events : List FlightEvent) :
    Consultation (Except InstallFault (Bool × EngineFactory)) → SharedCache
  | .ask q next => s.advance k (.asking σ q next) events
  | .result (.error fault) =>
    s.advance k (.leaving σ (.error fault)) (events ++ [.failed k fault])
  | .result (.ok x) =>
    let e : Environment := ⟨v, x.1, x.2, s.made⟩
    advance { s with made := s.made + 1 } k (.storing σ e) (events ++ [.made k e])

/-- A turn of a request, where each request asks for a version. -/
def turn (asks : Nat → Version) (s : SharedCache) (t : Turn) : SharedCache :=
  let k := t.request
  match s.stages k with
  | .arriving =>
    match s.table (asks k) with
    | some σ => s.advance k (.waiting σ) []
    | none => (s.addSlot (asks k)).advance k (.waiting s.slotCount) []
  | .waiting σ =>
    if (s.slots σ).holder = none then
      (s.setSlot σ { s.slots σ with holder := some k }).advance k (.looking σ) []
    else s
  | .looking σ =>
    match (s.slots σ).environment with
    | some e => s.advance k (.leaving σ (.ok e)) []
    | none => s.proceed k (asks k) σ [] (EnvironmentCache.construction (asks k))
  | .asking σ q next =>
    s.proceed k (asks k) σ [.called k (q.call (t.answers q))] (next (t.answers q))
  | .storing σ e =>
    (s.setSlot σ { s.slots σ with environment := some e }).advance k (.leaving σ (.ok e))
      [.stored k e]
  | .leaving σ result =>
    (s.setSlot σ { s.slots σ with holder := none }).advance k (.returned result) []
  | .returned _ => s

/-- A cache after some turns. -/
def run (asks : Nat → Version) (turns : List Turn) : SharedCache := turns.foldl (turn asks) start

/-! ### Turns at each stage -/

section Turn

variable {asks : Nat → Version} {s : SharedCache} {t : Turn} {σ : Nat} {e : Environment}

lemma turn_arriving_some (hk : s.stages t.request = .arriving)
    (hσ : s.table (asks t.request) = some σ) :
    s.turn asks t = s.advance t.request (.waiting σ) [] := by
  simp only [turn, hk, hσ]

lemma turn_arriving_none (hk : s.stages t.request = .arriving)
    (hσ : s.table (asks t.request) = none) :
    s.turn asks t =
      (s.addSlot (asks t.request)).advance t.request (.waiting s.slotCount) [] := by
  simp only [turn, hk, hσ]

lemma turn_waiting_free (hk : s.stages t.request = .waiting σ)
    (hfree : (s.slots σ).holder = none) :
    s.turn asks t = (s.setSlot σ { s.slots σ with holder := some t.request }).advance t.request
      (.looking σ) [] := by
  simp only [turn, hk, if_pos hfree]

lemma turn_waiting_held (hk : s.stages t.request = .waiting σ)
    (hheld : (s.slots σ).holder ≠ none) : s.turn asks t = s := by
  simp only [turn, hk, if_neg hheld]

lemma turn_looking_some (hk : s.stages t.request = .looking σ)
    (he : (s.slots σ).environment = some e) :
    s.turn asks t = s.advance t.request (.leaving σ (.ok e)) [] := by
  simp only [turn, hk, he]

lemma turn_looking_none (hk : s.stages t.request = .looking σ)
    (he : (s.slots σ).environment = none) :
    s.turn asks t = s.proceed t.request (asks t.request) σ []
      (EnvironmentCache.construction (asks t.request)) := by
  simp only [turn, hk, he]

lemma turn_asking {q : InstallerQuestion}
    {next : q.Answer → Consultation (Except InstallFault (Bool × EngineFactory))}
    (hk : s.stages t.request = .asking σ q next) :
    s.turn asks t = s.proceed t.request (asks t.request) σ
      [.called t.request (q.call (t.answers q))] (next (t.answers q)) := by
  simp only [turn, hk]

lemma turn_storing (hk : s.stages t.request = .storing σ e) :
    s.turn asks t = (s.setSlot σ { s.slots σ with environment := some e }).advance t.request
      (.leaving σ (.ok e)) [.stored t.request e] := by
  simp only [turn, hk]

lemma turn_leaving {result : Except InstallFault Environment}
    (hk : s.stages t.request = .leaving σ result) :
    s.turn asks t = (s.setSlot σ { s.slots σ with holder := none }).advance t.request
      (.returned result) [] := by
  simp only [turn, hk]

lemma turn_returned {result : Except InstallFault Environment}
    (hk : s.stages t.request = .returned result) : s.turn asks t = s := by
  simp only [turn, hk]

end Turn

/-! ### What the steps change -/

variable (s : SharedCache) (k σ : Nat) (v : Version) (slot : Slot) (stage : Stage)
  (events : List FlightEvent)

@[simp] lemma table_advance : (s.advance k stage events).table = s.table := rfl

@[simp] lemma slots_advance : (s.advance k stage events).slots = s.slots := rfl

@[simp] lemma stages_advance :
    (s.advance k stage events).stages = Function.update s.stages k stage := rfl

@[simp] lemma log_advance : (s.advance k stage events).log = s.log ++ events := rfl

@[simp] lemma environment?_advance :
    (s.advance k stage events).environment? = s.environment? := rfl

/-- A request that is brought to one stage after the other comes to the last one. -/
lemma advance_advance (stage' : Stage) (events' : List FlightEvent) :
    (s.advance k stage events).advance k stage' events' =
      s.advance k stage' (events ++ events') := by
  simp only [advance, Function.update_idem, List.append_assoc]

@[simp] lemma table_setSlot : (s.setSlot σ slot).table = s.table := rfl

@[simp] lemma slots_setSlot : (s.setSlot σ slot).slots = Function.update s.slots σ slot := rfl

@[simp] lemma table_addSlot :
    (s.addSlot v).table = Function.update s.table v (some s.slotCount) := rfl

@[simp] lemma slots_addSlot :
    (s.addSlot v).slots = Function.update s.slots s.slotCount {} := rfl

@[simp] lemma slotCount_addSlot : (s.addSlot v).slotCount = s.slotCount + 1 := rfl

variable (x : Consultation (Except InstallFault (Bool × EngineFactory)))

@[simp] lemma table_proceed : (s.proceed k v σ events x).table = s.table := by
  match x with
  | .ask _ _ | .result (.error _) | .result (.ok _) => rfl

@[simp] lemma slots_proceed : (s.proceed k v σ events x).slots = s.slots := by
  match x with
  | .ask _ _ | .result (.error _) | .result (.ok _) => rfl

/-- A turn changes the stage of no other request. -/
lemma stages_turn_of_ne {asks : Nat → Version} {t : Turn} (h : k ≠ t.request) :
    (s.turn asks t).stages k = s.stages k := by
  have hadvance : ∀ (s' : SharedCache) stage events, s'.stages = s.stages →
      (s'.advance t.request stage events).stages k = s.stages k := by
    intro s' stage events hs'
    rw [stages_advance, Function.update_of_ne h, hs']
  have hproceed : ∀ v σ events x, (s.proceed t.request v σ events x).stages k = s.stages k := by
    intro v σ events x
    match x with
    | .ask _ _ | .result (.error _) | .result (.ok _) => exact hadvance _ _ _ rfl
  unfold turn
  dsimp only
  split
  · split
    · exact hadvance _ _ _ rfl
    · exact hadvance _ _ _ rfl
  · split
    · exact hadvance _ _ _ rfl
    · rfl
  · split
    · exact hadvance _ _ _ rfl
    · exact hproceed _ _ _ _
  · exact hproceed _ _ _ _
  · exact hadvance _ _ _ rfl
  · exact hadvance _ _ _ rfl
  · rfl

/-- A turn gives no other version a slot. -/
lemma table_turn_of_ne {asks : Nat → Version} {t : Turn} (h : v ≠ asks t.request) :
    (s.turn asks t).table v = s.table v := by
  unfold turn
  dsimp only
  split
  · split
    · rfl
    · rw [table_advance, table_addSlot, Function.update_of_ne h]
  · split <;> rfl
  · split
    · rfl
    · rw [table_proceed]
  · rw [table_proceed]
  · rfl
  · rfl
  · rfl

end SharedCache

end InlineExpect
