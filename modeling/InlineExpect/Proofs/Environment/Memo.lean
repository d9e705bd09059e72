import Mathlib
import InlineExpect.Proofs.Environment.Request

/-!
# Runs on a cache

A cache is asked for environments, cleared and measured, in any order, while its installer may have
any answer to every call, fail, or crash.  A run keeps the events of the past, each with the calls
of the installer that it led to, so that what an event has to be can be said in terms of the past
alone (`CacheEvent.Follows`): an environment that is remembered is returned again without a call,
and any other request is an attempt from the start (`Attempt`).

The environments in the cache are those that the past remembers.  This is the invariant that one
call keeps (`CacheRun.Sound.call`), and everything else is read off it.
-/

namespace InlineExpect

variable {W : Type}

/-! ### Calls of an installer -/

/-- A call of an installer, with the answer to it. -/
inductive InstallerCall where
  | isInstalled (v : Version) (answer : Except InstallFault Bool)
  | install (v : Version) (answer : Except InstallFault Unit)
  | load (v : Version) (answer : Except InstallFault EngineFactory)

/-- Whether a call loads a version. -/
def InstallerCall.loads (v : Version) : InstallerCall → Bool
  | .load w (.ok _) => w == v
  | _ => false

/-- An installer that answers as before, and writes its calls at the end of a log. -/
def Installer.recorded (i : Installer (StateM W)) :
    Installer (StateM (W × List InstallerCall)) where
  isInstalled v s :=
    let (answer, w) := (i.isInstalled v).run s.1
    (answer, w, s.2 ++ [.isInstalled v answer])
  install v s :=
    let (answer, w) := (i.install v).run s.1
    (answer, w, s.2 ++ [.install v answer])
  load v s :=
    let (answer, w) := (i.load v).run s.1
    (answer, w, s.2 ++ [.load v answer])

/-- The calls of an attempt and what comes of it: a version is installed if and only if it is not
installed yet, and loaded if and only if nothing has failed before. -/
inductive Attempt (v : Version) :
    List InstallerCall → Except InstallFault (Bool × EngineFactory) → Prop
  | unanswered (fault : InstallFault) :
    Attempt v [.isInstalled v (.error fault)] (.error fault)
  | notInstalled (fault : InstallFault) :
    Attempt v [.isInstalled v (.ok false), .install v (.error fault)] (.error fault)
  | installed (loaded : Except InstallFault EngineFactory) :
    Attempt v [.isInstalled v (.ok true), .load v loaded] (loaded.map (false, ·))
  | installedHere (loaded : Except InstallFault EngineFactory) :
    Attempt v [.isInstalled v (.ok false), .install v (.ok ()), .load v loaded]
      (loaded.map (true, ·))

/-! ### Runs -/

/-- A call of a cache. -/
inductive CacheCall where
  | get (v : Version)
  | clear
  | size
deriving DecidableEq, Repr

/-- A call of a cache that has been answered. -/
inductive CacheEvent where
  /-- A request, with the calls of the installer that it led to. -/
  | got (v : Version) (calls : List InstallerCall) (result : Except InstallFault Environment)
  | cleared
  | sized (n : Nat)

/-- The calls of the installer that an event led to. -/
def CacheEvent.calls : CacheEvent → List InstallerCall
  | .got _ calls _ => calls
  | _ => []

/-- A cache, its world, and what has happened to it so far. -/
structure CacheRun (W : Type) where
  events : List CacheEvent
  cache : EnvironmentCache
  world : W

namespace CacheRun

/-- A run with a new cache. -/
def start (w : W) : CacheRun W := ⟨[], {}, w⟩

/-- A run after one more call. -/
def call (i : Installer (StateM W)) (r : CacheRun W) : CacheCall → CacheRun W
  | .get v =>
    let ((result, cache), world, calls) :=
      EnvironmentCache.exec (EnvironmentCache.get i.recorded.lift v) r.cache (r.world, [])
    ⟨r.events ++ [.got v calls result], cache, world⟩
  | .clear => ⟨r.events ++ [.cleared], r.cache.clear, r.world⟩
  | .size => ⟨r.events ++ [.sized r.cache.size], r.cache, r.world⟩

/-- A run after some more calls. -/
def callAll (i : Installer (StateM W)) (r : CacheRun W) (calls : List CacheCall) : CacheRun W :=
  calls.foldl (call i) r

end CacheRun

/-! ### What the past remembers -/

/-- A request has been answered with an environment, and the cache has not been cleared since. -/
def Remembered (past : List CacheEvent) (v : Version) (e : Environment) : Prop :=
  ∃ before calls after, past = before ++ .got v calls (.ok e) :: after ∧ .cleared ∉ after

/-- A request has been answered with an environment at any time. -/
def Returned (past : List CacheEvent) (e : Environment) : Prop :=
  ∃ v calls, .got v calls (.ok e) ∈ past

/-- An event is what has to follow on the past.  The serial number of an environment stands for its
identity: one that is made is none of those that were returned before. -/
def CacheEvent.Follows (past : List CacheEvent) : CacheEvent → Prop
  | .got v calls result =>
    (∀ e, Remembered past v e → calls = [] ∧ result = .ok e) ∧
    ((∀ e, ¬ Remembered past v e) → ∃ made serial, Attempt v calls made ∧
      result = made.map (fun x => ⟨v, x.1, x.2, serial⟩) ∧
      ∀ e, Returned past e → e.serial < serial)
  | .cleared => True
  | .sized n => n = {v | ∃ e, Remembered past v e}.ncard

/-- A run memoizes the environments that it makes until it is cleared. -/
structure CacheRun.Memoizes (i : Installer (StateM W)) (r : CacheRun W) : Prop where
  follows : ∀ past e later, r.events = past ++ e :: later → e.Follows past
  environment?_iff : ∀ v e, r.cache.environment? v = some e ↔ Remembered r.events v e
  /-- A request that fails next changes no environment of the cache. -/
  environment?_of_failure : ∀ v calls fault,
    (r.call i (.get v)).events = r.events ++ [.got v calls (.error fault)] →
      ∀ u, (r.call i (.get v)).cache.environment? u = r.cache.environment? u
  /-- Between two clearances a version is loaded at most once. -/
  loads_le_one : ∀ before segment after, r.events = before ++ segment ++ after →
    .cleared ∉ segment → ∀ v, (segment.flatMap CacheEvent.calls).countP (·.loads v) ≤ 1

variable {i : Installer (StateM W)} {r : CacheRun W} {past : List CacheEvent} {u v : Version}
  {e : Environment}

/-- What is remembered after one more event. -/
lemma remembered_concat_iff {x : CacheEvent} : Remembered (past ++ [x]) v e ↔
    (∃ calls, x = .got v calls (.ok e)) ∨ x ≠ .cleared ∧ Remembered past v e := by
  constructor
  · rintro ⟨before, calls, after, heq, hafter⟩
    rcases List.eq_nil_or_concat after with rfl | ⟨after, y, rfl⟩
    · exact .inl ⟨calls, (List.append_inj' heq rfl).2 |> List.singleton_inj.mp⟩
    · rw [List.concat_eq_append] at heq hafter
      have heq' : past ++ [x] = (before ++ .got v calls (.ok e) :: after) ++ [y] := by
        rw [heq, List.append_assoc, List.cons_append]
      obtain ⟨hpast, hxy⟩ := List.append_inj' heq' rfl
      obtain rfl := List.singleton_inj.mp hxy
      refine .inr ⟨fun hx => hafter ?_, before, calls, after, hpast, fun h => hafter ?_⟩
      · exact hx ▸ List.mem_append_right after (List.mem_singleton_self _)
      · exact List.mem_append_left _ h
  · rintro (⟨calls, rfl⟩ | ⟨hx, before, calls, after, rfl, hafter⟩)
    · exact ⟨past, calls, [], rfl, List.not_mem_nil⟩
    · refine ⟨before, calls, after ++ [x], by simp, fun h => ?_⟩
      rcases List.mem_append.mp h with h | h
      · exact hafter h
      · exact hx (List.mem_singleton.mp h).symm

/-- What has been returned after one more event. -/
lemma returned_concat_iff {x : CacheEvent} : Returned (past ++ [x]) e ↔
    (∃ v calls, x = .got v calls (.ok e)) ∨ Returned past e := by
  unfold Returned
  simp only [List.mem_append, List.mem_singleton, exists_or]
  rw [or_comm]
  simp only [eq_comm]

/-! ### One request -/

/-- The calls of an attempt are written at the end of a log, which changes nothing else. -/
lemma exists_attempt_recorded (i : Installer (StateM W)) (v : Version) (w : W)
    (log : List InstallerCall) :
    ∃ calls, Attempt v calls (i.attempt v w).1 ∧
      i.recorded.attempt v (w, log) = ((i.attempt v w).1, (i.attempt v w).2, log ++ calls) := by
  have hinstalled : (i.recorded.isInstalled v).run (w, log) =
      (((i.isInstalled v).run w).1, ((i.isInstalled v).run w).2,
        log ++ [.isInstalled v ((i.isInstalled v).run w).1]) := rfl
  have hload (w : W) (log : List InstallerCall) : (i.recorded.load v).run (w, log) =
      (((i.load v).run w).1, ((i.load v).run w).2, log ++ [.load v ((i.load v).run w).1]) := rfl
  rw [Installer.attempt, Installer.attempt, hinstalled]
  rcases (i.isInstalled v).run w with ⟨fault | _ | _, w₁⟩
  · exact ⟨_, .unanswered fault, rfl⟩
  · have hinstall : (i.recorded.install v).run (w₁, log ++ [.isInstalled v (.ok false)]) =
        (((i.install v).run w₁).1, ((i.install v).run w₁).2,
          log ++ [.isInstalled v (.ok false)] ++ [.install v ((i.install v).run w₁).1]) := rfl
    dsimp only
    rw [hinstall]
    rcases (i.install v).run w₁ with ⟨fault | _, w₂⟩
    · refine ⟨_, .notInstalled fault, ?_⟩
      rw [List.append_assoc]
      rfl
    · refine ⟨_, .installedHere _, ?_⟩
      dsimp only
      rw [hload, List.append_assoc, List.append_assoc]
      rfl
  · refine ⟨_, .installed _, ?_⟩
    dsimp only
    rw [hload, List.append_assoc]
    rfl

namespace CacheRun

/-- A request of a run is a request of its cache, the calls of which are none or those of an
attempt. -/
lemma exists_call_get (i : Installer (StateM W)) (r : CacheRun W) (v : Version) :
    ∃ calls,
      (match r.cache.environment? v with
        | some _ => calls = []
        | none => Attempt v calls (i.attempt v r.world).1) ∧
      r.call i (.get v) =
        let ((result, cache), world) :=
          EnvironmentCache.exec (EnvironmentCache.get i.lift v) r.cache r.world
        ⟨r.events ++ [.got v calls result], cache, world⟩ := by
  rw [call, EnvironmentCache.exec_get, EnvironmentCache.exec_get]
  cases r.cache.environment? v with
  | some e => exact ⟨[], rfl, rfl⟩
  | none =>
    obtain ⟨calls, hattempt, hrecorded⟩ := exists_attempt_recorded i v r.world []
    refine ⟨calls, hattempt, ?_⟩
    dsimp only
    rw [hrecorded]
    rcases i.attempt v r.world with ⟨_ | x, w⟩
    · rfl
    · rfl

/-- What a request can do: return what is there, end with the fault of an attempt, or store what an
attempt has made. -/
lemma call_get_cases (i : Installer (StateM W)) (r : CacheRun W) (v : Version) :
    (∃ e, r.cache.environment? v = some e ∧
      r.call i (.get v) = ⟨r.events ++ [.got v [] (.ok e)], r.cache.withSlot v, r.world⟩) ∨
    (r.cache.environment? v = none ∧ ∃ calls fault w, Attempt v calls (.error fault) ∧
      r.call i (.get v) =
        ⟨r.events ++ [.got v calls (.error fault)], r.cache.withSlot v, w⟩) ∨
    (r.cache.environment? v = none ∧ ∃ calls x w, Attempt v calls (.ok x) ∧
      r.call i (.get v) =
        ⟨r.events ++ [.got v calls (.ok ⟨v, x.1, x.2, r.cache.made⟩)],
          (r.cache.withSlot v).store ⟨v, x.1, x.2, r.cache.made⟩, w⟩) := by
  obtain ⟨calls, hcalls, hcall⟩ := r.exists_call_get i v
  rw [hcall, EnvironmentCache.exec_get]
  cases h : r.cache.environment? v with
  | some e =>
    rw [h] at hcalls
    exact .inl ⟨e, rfl, by rw [show calls = [] from hcalls]⟩
  | none =>
    rw [h] at hcalls
    dsimp only at hcalls ⊢
    generalize i.attempt v r.world = attempted at hcalls ⊢
    rcases attempted with ⟨fault | x, w⟩
    · exact .inr (.inl ⟨rfl, calls, fault, w, hcalls, rfl⟩)
    · exact .inr (.inr ⟨rfl, calls, x, w, hcalls, rfl⟩)

/-! ### The invariant of a run -/

/-- The cache of a run has what the past remembers, and all events are what they have to be. -/
structure Sound (r : CacheRun W) : Prop where
  oneSlotEach : r.cache.OneSlotEach
  environment?_iff : ∀ v e, r.cache.environment? v = some e ↔ Remembered r.events v e
  serial_lt : ∀ e, Returned r.events e → e.serial < r.cache.made
  follows : ∀ past e later, r.events = past ++ e :: later → e.Follows past

/-- Nothing has happened at the start of a run. -/
lemma sound_start (w : W) : (start w).Sound where
  oneSlotEach := List.nodup_nil
  environment?_iff v e := by
    constructor
    · intro h
      cases h
    · rintro ⟨before, calls, after, heq, -⟩
      exact absurd heq (by simp [start])
  serial_lt e h := by
    obtain ⟨v, calls, hmem⟩ := h
    cases hmem
  follows past e later h := absurd h (by simp [start])

namespace Sound

/-- All events are what they have to be if this holds of the last one and of those before it. -/
lemma follows_concat (h : r.Sound) {x : CacheEvent} (hx : x.Follows r.events) :
    ∀ past e later, r.events ++ [x] = past ++ e :: later → e.Follows past := by
  intro past e later heq
  rcases List.eq_nil_or_concat later with rfl | ⟨later, y, rfl⟩
  · obtain ⟨rfl, hxe⟩ := List.append_inj' heq rfl
    exact List.singleton_inj.mp hxe ▸ hx
  · have heq' : r.events ++ [x] = (past ++ e :: later) ++ [y] := by
      rw [heq, List.concat_eq_append, List.append_assoc, List.cons_append]
    exact h.follows past e later (List.append_inj' heq' rfl).1

/-- The environment that the past remembers for a version is the one in the cache. -/
lemma eq_of_remembered (h : r.Sound) (he : r.cache.environment? v = some e) {e' : Environment}
    (he' : Remembered r.events v e') : e = e' :=
  Option.some.inj (he.symm.trans ((h.environment?_iff v e').mpr he'))

/-- The past remembers nothing for a version that is not in the cache. -/
lemma not_remembered (h : r.Sound) (hnone : r.cache.environment? v = none) (e : Environment) :
    ¬ Remembered r.events v e := by
  intro he
  have hsome : r.cache.environment? v = some e := (h.environment?_iff v e).mpr he
  rw [hnone] at hsome
  cases hsome

/-- The invariant is kept by an event that neither makes an environment nor forgets one. -/
lemma concat (h : r.Sound) {x : CacheEvent} (hx : x.Follows r.events)
    (hremembered : ∀ v e, Remembered (r.events ++ [x]) v e ↔ Remembered r.events v e)
    (hreturned : ∀ e, Returned (r.events ++ [x]) e → Returned r.events e)
    {c : EnvironmentCache} (hslots : c.OneSlotEach) (hmade : c.made = r.cache.made)
    (hsame : ∀ v, c.environment? v = r.cache.environment? v) (w : W) :
    Sound ⟨r.events ++ [x], c, w⟩ where
  oneSlotEach := hslots
  environment?_iff v e := by rw [hsame, h.environment?_iff, hremembered]
  serial_lt e he := hmade ▸ h.serial_lt e (hreturned e he)
  follows := h.follows_concat hx

/-- The invariant is kept by a request for what is in the cache. -/
lemma concat_hit (h : r.Sound) (he : r.cache.environment? v = some e) :
    Sound ⟨r.events ++ [.got v [] (.ok e)], r.cache.withSlot v, r.world⟩ := by
  have hremembered : Remembered r.events v e := (h.environment?_iff v e).mp he
  have hfollows : CacheEvent.Follows r.events (.got v [] (.ok e)) :=
    ⟨fun e' he' => ⟨rfl, congrArg _ (h.eq_of_remembered he he')⟩,
      fun hnone => absurd hremembered (hnone e)⟩
  refine h.concat hfollows (fun u e' => ?_) (fun e' he' => ?_)
    (h.oneSlotEach.withSlot v) rfl (EnvironmentCache.environment?_withSlot _ · v) _
  · rw [remembered_concat_iff]
    constructor
    · rintro (⟨calls, heq⟩ | ⟨-, he'⟩)
      · obtain ⟨rfl, -, heq⟩ := CacheEvent.got.inj heq
        exact Except.ok.inj heq ▸ hremembered
      · exact he'
    · exact fun he' => .inr ⟨by simp, he'⟩
  · rcases returned_concat_iff.mp he' with ⟨u, calls, heq⟩ | he'
    · obtain ⟨rfl, -, heq⟩ := CacheEvent.got.inj heq
      obtain ⟨before, calls, after, heq', -⟩ := hremembered
      refine ⟨v, calls, ?_⟩
      rw [heq', ← Except.ok.inj heq]
      exact List.mem_append_right _ List.mem_cons_self
    · exact he'

/-- The invariant is kept by an attempt that fails. -/
lemma concat_failure (h : r.Sound) (hnone : r.cache.environment? v = none)
    {calls : List InstallerCall} {fault : InstallFault} (hattempt : Attempt v calls (.error fault))
    (w : W) : Sound ⟨r.events ++ [.got v calls (.error fault)], r.cache.withSlot v, w⟩ := by
  have hfollows : CacheEvent.Follows r.events (.got v calls (.error fault)) :=
    ⟨fun e' he' => absurd he' (h.not_remembered hnone e'),
      fun _ => ⟨_, r.cache.made, hattempt, rfl, h.serial_lt⟩⟩
  refine h.concat hfollows (fun u e' => ?_) (fun e' he' => ?_)
    (h.oneSlotEach.withSlot v) rfl (EnvironmentCache.environment?_withSlot _ · v) _
  · rw [remembered_concat_iff]
    simp
  · exact (returned_concat_iff.mp he').resolve_left (by simp)

/-- The invariant is kept by an attempt that succeeds. -/
lemma concat_success (h : r.Sound) (hnone : r.cache.environment? v = none)
    {calls : List InstallerCall} {x : Bool × EngineFactory} (hattempt : Attempt v calls (.ok x))
    (w : W) :
    Sound ⟨r.events ++ [.got v calls (.ok ⟨v, x.1, x.2, r.cache.made⟩)],
      (r.cache.withSlot v).store ⟨v, x.1, x.2, r.cache.made⟩, w⟩ where
  oneSlotEach := (h.oneSlotEach.withSlot v).store _
  environment?_iff u e := by
    rw [EnvironmentCache.environment?_store, EnvironmentCache.environment?_withSlot,
      remembered_concat_iff]
    by_cases huv : u = v
    · subst huv
      rw [if_pos rfl]
      constructor
      · intro heq
        exact .inl ⟨calls, by rw [Option.some.inj heq]⟩
      · rintro (⟨calls', heq⟩ | ⟨-, he⟩)
        · obtain ⟨-, -, heq⟩ := CacheEvent.got.inj heq
          exact congrArg some (Except.ok.inj heq)
        · exact absurd he (h.not_remembered hnone e)
    · rw [if_neg huv, h.environment?_iff]
      constructor
      · exact fun he => .inr ⟨by simp, he⟩
      · rintro (⟨calls', heq⟩ | ⟨-, he⟩)
        · exact absurd (CacheEvent.got.inj heq).1.symm huv
        · exact he
  serial_lt e he := by
    change e.serial < r.cache.made + 1
    rcases returned_concat_iff.mp he with ⟨u, calls', heq⟩ | he
    · obtain ⟨-, -, heq⟩ := CacheEvent.got.inj heq
      rw [← Except.ok.inj heq]
      exact Nat.lt_succ_self _
    · exact Nat.lt_succ_of_lt (h.serial_lt e he)
  follows := by
    refine h.follows_concat ⟨fun e he => ?_, fun _ => ?_⟩
    · exact absurd he (h.not_remembered hnone e)
    · exact ⟨_, r.cache.made, hattempt, rfl, h.serial_lt⟩

/-- The invariant is kept by every call. -/
lemma call (h : r.Sound) (x : CacheCall) : (r.call i x).Sound := by
  cases x with
  | get v =>
    rcases r.call_get_cases i v with ⟨e, hsome, heq⟩ | ⟨hnone, calls, fault, w, hattempt, heq⟩ |
      ⟨hnone, calls, x, w, hattempt, heq⟩
    · exact heq ▸ h.concat_hit hsome
    · exact heq ▸ h.concat_failure hnone hattempt w
    · exact heq ▸ h.concat_success hnone hattempt w
  | clear =>
    refine ⟨.clear _, fun v e => ?_, fun e he => ?_, h.follows_concat trivial⟩
    · change r.cache.clear.environment? v = some e ↔ _
      rw [EnvironmentCache.environment?_clear, CacheRun.call, remembered_concat_iff]
      simp
    · exact h.serial_lt e ((returned_concat_iff.mp he).resolve_left (by simp))
  | size =>
    have hsize : CacheEvent.Follows r.events (.sized r.cache.size) := by
      change r.cache.size = {v | ∃ e, Remembered r.events v e}.ncard
      rw [h.oneSlotEach.size_eq_ncard]
      simp only [h.environment?_iff]
    refine h.concat hsize (fun v e => ?_) (fun e he => ?_) h.oneSlotEach rfl (fun _ => rfl) _
    · rw [remembered_concat_iff]
      simp
    · exact (returned_concat_iff.mp he).resolve_left (by simp)

/-- The invariant is kept by every run. -/
lemma callAll (h : r.Sound) (calls : List CacheCall) : (r.callAll i calls).Sound := by
  induction calls generalizing r with
  | nil => exact h
  | cons x calls ih => exact ih (h.call x)

end Sound

end CacheRun

/-! ### Loads between two clearances -/

/-- An attempt loads its version if it succeeds, and no other version. -/
lemma Attempt.countP_loads {calls : List InstallerCall}
    {made : Except InstallFault (Bool × EngineFactory)} (h : Attempt v calls made) (u : Version) :
    calls.countP (·.loads u) = if v = u ∧ made.toBool then 1 else 0 := by
  cases h with
  | unanswered fault => simp [InstallerCall.loads, Except.toBool]
  | notInstalled fault => simp [InstallerCall.loads, Except.toBool]
  | installed loaded =>
    cases loaded <;> simp [InstallerCall.loads, Except.toBool, Except.map, List.countP_cons]
  | installedHere loaded =>
    cases loaded <;> simp [InstallerCall.loads, Except.toBool, Except.map, List.countP_cons]

/-- A version is loaded at most once since the cache was cleared, and only if it is remembered. -/
lemma countP_loads_le_one (before segment : List CacheEvent) (v : Version)
    (hfollows : ∀ past x later, before ++ segment = past ++ x :: later → x.Follows past)
    (hsegment : .cleared ∉ segment) :
    (segment.flatMap CacheEvent.calls).countP (·.loads v) ≤ 1 ∧
      ((segment.flatMap CacheEvent.calls).countP (·.loads v) = 0 ∨
        ∃ e, Remembered (before ++ segment) v e) := by
  induction segment using List.reverseRecOn with
  | nil => simp
  | append_singleton segment x ih =>
    have hx : x.Follows (before ++ segment) := hfollows _ x [] (List.append_assoc _ _ _).symm
    have hcleared : x ≠ .cleared := fun h => hsegment (by simp [h])
    obtain ⟨hle, hloaded⟩ := ih
      (fun past y later h => hfollows past y (later ++ [x]) (by rw [← List.append_assoc, h]; simp))
      (fun h => hsegment (List.mem_append_left _ h))
    rw [← List.append_assoc, List.flatMap_append, List.countP_append, List.flatMap_singleton]
    -- Unless the last event loads the version, it only has to be still remembered.
    have hkeep (hnone : x.calls.countP (·.loads v) = 0) :
        (segment.flatMap CacheEvent.calls).countP (·.loads v) + x.calls.countP (·.loads v) ≤ 1 ∧
          ((segment.flatMap CacheEvent.calls).countP (·.loads v) +
              x.calls.countP (·.loads v) = 0 ∨
            ∃ e, Remembered (before ++ segment ++ [x]) v e) := by
      rw [hnone, Nat.add_zero]
      refine ⟨hle, hloaded.imp_right ?_⟩
      rintro ⟨e, he⟩
      exact ⟨e, remembered_concat_iff.mpr (.inr ⟨hcleared, he⟩)⟩
    cases x with
    | cleared => exact absurd rfl hcleared
    | sized n => exact hkeep rfl
    | got u calls result =>
      obtain ⟨hhit, hmiss⟩ := hx
      by_cases hremembered : ∃ e, Remembered (before ++ segment) u e
      · obtain ⟨e, he⟩ := hremembered
        exact hkeep (by rw [CacheEvent.calls, (hhit e he).1, List.countP_nil])
      · obtain ⟨made, serial, hattempt, rfl, -⟩ := hmiss (not_exists.mp hremembered)
        have hcount := hattempt.countP_loads v
        split at hcount
        · rename_i hloads
          obtain ⟨rfl, hmade⟩ := hloads
          have hzero := hloaded.resolve_right hremembered
          rw [CacheEvent.calls, hzero, hcount]
          refine ⟨le_rfl, .inr ?_⟩
          cases made with
          | error fault => cases hmade
          | ok x => exact ⟨_, remembered_concat_iff.mpr (.inl ⟨calls, rfl⟩)⟩
        · exact hkeep hcount

namespace CacheRun

/-- Every run of a cache memoizes the environments that it makes until it is cleared, whatever its
installer answers. -/
theorem memoizes_callAll (i : Installer (StateM W)) (w : W) (calls : List CacheCall) :
    ((start w).callAll i calls).Memoizes i := by
  have h : ((start w).callAll i calls).Sound := (sound_start w).callAll calls
  refine ⟨h.follows, h.environment?_iff, fun v calls fault hevents u => ?_, ?_⟩
  · rcases ((start w).callAll i _).call_get_cases i v with ⟨e, -, heq⟩ |
      ⟨-, calls', fault', w', -, heq⟩ | ⟨-, calls', x, w', -, heq⟩
    · rw [heq]
      exact EnvironmentCache.environment?_withSlot _ u v
    · rw [heq]
      exact EnvironmentCache.environment?_withSlot _ u v
    · rw [heq] at hevents
      have hlast := List.singleton_inj.mp (List.append_cancel_left hevents)
      cases (CacheEvent.got.inj hlast).2.2
  · intro before segment after hevents hsegment v
    refine (countP_loads_le_one before segment v (fun past x later heq => ?_) hsegment).1
    refine h.follows past x (later ++ after) ?_
    rw [hevents, heq, List.append_assoc, List.cons_append]

end CacheRun

end InlineExpect
