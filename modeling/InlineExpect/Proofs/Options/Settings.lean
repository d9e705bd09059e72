import Mathlib
import InlineExpect.Options.Json
import InlineExpect.Proofs.Json.Members

/-!
# Known compiler options

Each known option has a name, a way to be read and a way to be written (`Setting`), and the
`settings` list all of them.  Options are read from an object exactly if each setting is
(`CompilerOptions.ofKnown?_eq_some_iff`), and they are written as the members that the settings are,
so that what holds of one setting holds of all options together.
-/

namespace InlineExpect

open Json

/-- A known compiler option. -/
structure Setting where
  name : String
  {Kind : Type}
  read : Value → Option Kind
  write : Kind → Value
  get : CompilerOptions → Option Kind

namespace Setting

/-- A setting that is on or off. -/
def flag (name : String) (get : CompilerOptions → Option Bool) : Setting :=
  ⟨name, Value.bool?, .bool, get⟩

/-- A setting that is a text. -/
def text (name : String) (get : CompilerOptions → Option String) : Setting :=
  ⟨name, Value.string?, .string, get⟩

/-- A setting that is a list of texts. -/
def texts (name : String) (get : CompilerOptions → Option (List String)) : Setting :=
  ⟨name, Value.list? Value.string?, CompilerOptions.stringsValue, get⟩

/-- The language level. -/
def target : Setting :=
  ⟨"target", Value.name? ScriptTarget.ofName?, fun t => .string t.name, CompilerOptions.target⟩

/-- The module system. -/
def moduleFormat : Setting :=
  ⟨"module", Value.name? ModuleFormat.ofName?, fun m => .string m.name,
    CompilerOptions.moduleFormat⟩

/-- The lists of paths. -/
def paths : Setting :=
  ⟨"paths", Value.map? (Value.list? Value.string?),
    fun ps => .object (ps.map fun p => (p.1, CompilerOptions.stringsValue p.2)),
    CompilerOptions.paths⟩

/-- The known compiler options, in the order in which they are written. -/
def all : List Setting :=
  [target, moduleFormat, texts "lib" (·.lib), flag "declaration" (·.declaration),
    flag "noEmit" (·.noEmit), flag "strict" (·.strict), flag "noImplicitAny" (·.noImplicitAny),
    flag "strictNullChecks" (·.strictNullChecks),
    flag "strictFunctionTypes" (·.strictFunctionTypes), flag "noImplicitThis" (·.noImplicitThis),
    flag "exactOptionalPropertyTypes" (·.exactOptionalPropertyTypes),
    text "moduleResolution" (·.moduleResolution), text "baseUrl" (·.baseUrl), paths,
    texts "typeRoots" (·.typeRoots), texts "types" (·.types),
    flag "esModuleInterop" (·.esModuleInterop), flag "skipLibCheck" (·.skipLibCheck),
    flag "forceConsistentCasingInFileNames" (·.forceConsistentCasingInFileNames)]

/-- A setting of some options, as the value that is written for it. -/
def value (s : Setting) (o : CompilerOptions) : Value :=
  CompilerOptions.optionValue s.write (s.get o)

/-- A setting of some options is what is read for it from the members of an object. -/
def ReadsTo (s : Setting) (fields : List (String × Value)) (o : CompilerOptions) : Prop :=
  optional? fields s.name s.read = some (s.get o)

/-- The known options have the names of the settings. -/
lemma names_eq : CompilerOptions.names = all.map name := rfl

/-- The known options are written as the settings. -/
lemma knownMembers_eq (o : CompilerOptions) :
    o.knownMembers = all.map fun s => (s.name, s.value o) := rfl

end Setting

/-- Options are read from the members of an object if each setting is. -/
theorem CompilerOptions.ofKnown?_eq_some_iff {fields extra : List (String × Value)}
    {o : CompilerOptions} :
    ofKnown? fields extra = some o ↔ o.extra = extra ∧ ∀ s ∈ Setting.all, s.ReadsTo fields o := by
  constructor
  · intro h
    obtain ⟨target, h1, h⟩ := Option.bind_eq_some_iff.mp h
    obtain ⟨module, h2, h⟩ := Option.bind_eq_some_iff.mp h
    obtain ⟨lib, h3, h⟩ := Option.bind_eq_some_iff.mp h
    obtain ⟨declaration, h4, h⟩ := Option.bind_eq_some_iff.mp h
    obtain ⟨noEmit, h5, h⟩ := Option.bind_eq_some_iff.mp h
    obtain ⟨strict, h6, h⟩ := Option.bind_eq_some_iff.mp h
    obtain ⟨noImplicitAny, h7, h⟩ := Option.bind_eq_some_iff.mp h
    obtain ⟨strictNullChecks, h8, h⟩ := Option.bind_eq_some_iff.mp h
    obtain ⟨strictFunctionTypes, h9, h⟩ := Option.bind_eq_some_iff.mp h
    obtain ⟨noImplicitThis, h10, h⟩ := Option.bind_eq_some_iff.mp h
    obtain ⟨exactOptionalPropertyTypes, h11, h⟩ := Option.bind_eq_some_iff.mp h
    obtain ⟨moduleResolution, h12, h⟩ := Option.bind_eq_some_iff.mp h
    obtain ⟨baseUrl, h13, h⟩ := Option.bind_eq_some_iff.mp h
    obtain ⟨paths, h14, h⟩ := Option.bind_eq_some_iff.mp h
    obtain ⟨typeRoots, h15, h⟩ := Option.bind_eq_some_iff.mp h
    obtain ⟨types, h16, h⟩ := Option.bind_eq_some_iff.mp h
    obtain ⟨esModuleInterop, h17, h⟩ := Option.bind_eq_some_iff.mp h
    obtain ⟨skipLibCheck, h18, h⟩ := Option.bind_eq_some_iff.mp h
    obtain ⟨casing, h19, h⟩ := Option.bind_eq_some_iff.mp h
    obtain rfl := Option.some.inj h
    refine ⟨rfl, ?_⟩
    simp only [Setting.all, List.forall_mem_cons]
    exact ⟨h1, h2, h3, h4, h5, h6, h7, h8, h9, h10, h11, h12, h13, h14, h15, h16, h17, h18, h19,
      List.forall_mem_nil _⟩
  · rintro ⟨rfl, h⟩
    simp only [Setting.all, List.forall_mem_cons, Setting.ReadsTo, Setting.target,
      Setting.moduleFormat, Setting.texts, Setting.flag, Setting.text, Setting.paths] at h
    simp only [ofKnown?, h, Option.bind_eq_bind, Option.bind_some]
    rfl

/-! ### One setting -/

/-- What is read as it was written is read so one by one. -/
lemma mapM_map_eq_some {α β : Type} {write : α → β} {read : β → Option α}
    (h : ∀ a, read (write a) = some a) (as : List α) : (as.map write).mapM read = some as := by
  induction as with
  | nil => rfl
  | cons a as ih =>
    rw [List.map_cons, List.mapM_cons, h, ih]
    rfl

/-- A list of texts is read as it was written. -/
lemma CompilerOptions.list?_stringsValue (ss : List String) :
    Value.list? Value.string? (stringsValue ss) = some ss := by
  have hstring : ∀ s, Value.string? (.string s) = some s := fun _ => rfl
  exact mapM_map_eq_some hstring ss

/-- A map of lists of texts is read as it was written. -/
lemma CompilerOptions.map?_stringsValues {ps : List (String × List String)} (h : Ascending ps) :
    Value.map? (Value.list? Value.string?)
      (.object (ps.map fun p => (p.1, stringsValue p.2))) = some ps := by
  refine Option.map_eq_some_iff.mpr ⟨ps, mapM_map_eq_some (fun p => ?_) ps, h.distinctMembers_eq⟩
  dsimp only
  rw [list?_stringsValue]
  rfl

/-- What is read as a map is a map. -/
lemma ascending_of_map? {α : Type} {read : Value → Option α} {v : Value} {as : List (String × α)}
    (h : Value.map? read v = some as) : Ascending as := by
  cases v with
  | object members =>
    obtain ⟨ms, -, rfl⟩ := Option.map_eq_some_iff.mp h
    exact ascending_distinctMembers ms
  | _ => cases h

namespace Setting

variable {s : Setting} {o : CompilerOptions} {fields : List (String × Value)} {v : Value}

/-- No two settings have the same name. -/
lemma nodup_names : CompilerOptions.names.Nodup := by decide

/-- A value other than `null` is not a missing one. -/
lemma nullable?_eq_of_ne_null {α : Type} {read : Value → Option α} (h : v ≠ .null) :
    Value.nullable? read v = (read v).map some := by
  cases v with
  | null => exact absurd rfl h
  | _ => rfl

/-- A setting is read from the member of its name. -/
lemma readsTo_iff_of_lookup (hv : fields.lookup s.name = some v) :
    s.ReadsTo fields o ↔ Value.nullable? s.read v = some (s.get o) := by
  rw [ReadsTo, optional?, defaulted?, hv]

/-- A setting is absent exactly if there is no member of its name, or if it is `null`. -/
lemma ReadsTo.get_eq_none_iff (h : s.ReadsTo fields o) :
    s.get o = none ↔ fields.lookup s.name = none ∨ fields.lookup s.name = some .null := by
  cases hv : fields.lookup s.name with
  | none =>
    rw [ReadsTo, optional?, defaulted?, hv] at h
    exact iff_of_true (Option.some.inj h).symm (.inl rfl)
  | some v =>
    rw [readsTo_iff_of_lookup hv] at h
    by_cases hnull : v = .null
    · subst hnull
      exact iff_of_true (Option.some.inj h).symm (.inr rfl)
    · rw [nullable?_eq_of_ne_null hnull] at h
      obtain ⟨a, -, ha⟩ := Option.map_eq_some_iff.mp h
      rw [← ha]
      simp [hnull]

/-- A setting whose member is not `null` is what the member is read as, and is written in the form
that there is for this. -/
lemma ReadsTo.exists_value (h : s.ReadsTo fields o) (hv : fields.lookup s.name = some v)
    (hnull : v ≠ .null) : ∃ a, s.read v = some a ∧ s.get o = some a ∧ s.value o = s.write a := by
  rw [readsTo_iff_of_lookup hv, nullable?_eq_of_ne_null hnull] at h
  obtain ⟨a, hread, ha⟩ := Option.map_eq_some_iff.mp h
  refine ⟨a, hread, ha.symm, ?_⟩
  rw [value, ← ha]
  rfl

/-- A setting that is not absent has a member that is read. -/
lemma ReadsTo.exists_of_get (h : s.ReadsTo fields o) {a : s.Kind} (ha : s.get o = some a) :
    ∃ v, s.read v = some a := by
  cases hv : fields.lookup s.name with
  | none =>
    rw [h.get_eq_none_iff.mpr (.inl hv)] at ha
    cases ha
  | some v =>
    have hnull : v ≠ .null := by
      rintro rfl
      rw [h.get_eq_none_iff.mpr (.inr hv)] at ha
      cases ha
    obtain ⟨b, hread, hb, -⟩ := h.exists_value hv hnull
    rw [ha] at hb
    exact ⟨v, Option.some.inj hb ▸ hread⟩

/-- What some options have for a setting is read as it is written. -/
def Restores (s : Setting) (o : CompilerOptions) : Prop :=
  ∀ a, s.get o = some a → s.write a ≠ .null ∧ s.read (s.write a) = some a

/-- A setting is read back from the member that it is written as. -/
lemma Restores.readsTo (h : s.Restores o) (hvalue : fields.lookup s.name = some (s.value o)) :
    s.ReadsTo fields o := by
  rw [readsTo_iff_of_lookup hvalue, value]
  cases hget : s.get o with
  | none => rfl
  | some a =>
    obtain ⟨hne, hread⟩ := h a hget
    rw [CompilerOptions.optionValue, nullable?_eq_of_ne_null hne, hread]
    rfl

/-- All settings are read as they are written, if the lists of paths are those of a map. -/
theorem restores_of_mem (hpaths : ∀ ps, o.paths = some ps → Ascending ps) :
    ∀ s ∈ all, s.Restores o := by
  have hflag : ∀ name get, (flag name get).Restores o := fun _ _ _ _ => ⟨nofun, rfl⟩
  have htext : ∀ name get, (text name get).Restores o := fun _ _ _ _ => ⟨nofun, rfl⟩
  have htexts : ∀ name get, (texts name get).Restores o := fun _ _ ss _ =>
    ⟨nofun, CompilerOptions.list?_stringsValue ss⟩
  have htarget : target.Restores o := fun t _ => ⟨nofun, ScriptTarget.ofName?_name t⟩
  have hmodule : moduleFormat.Restores o := fun m _ => ⟨nofun, ModuleFormat.ofName?_name m⟩
  have hpaths : paths.Restores o := fun ps hps =>
    ⟨nofun, CompilerOptions.map?_stringsValues (hpaths ps hps)⟩
  simp only [all, List.forall_mem_cons]
  exact ⟨htarget, hmodule, htexts _ _, hflag _ _, hflag _ _, hflag _ _, hflag _ _, hflag _ _,
    hflag _ _, hflag _ _, hflag _ _, htext _ _, htext _ _, hpaths, htexts _ _, htexts _ _,
    hflag _ _, hflag _ _, hflag _ _, List.forall_mem_nil _⟩

end Setting

end InlineExpect
