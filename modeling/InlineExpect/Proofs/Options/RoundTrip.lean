import Mathlib
import InlineExpect.Proofs.Json.Normal
import InlineExpect.Proofs.Options.Settings

/-!
# Options that are forwarded

Compiler options are read from an object by dividing its members: those with the names of known
options go to the settings, and all others are kept under their names (`CompilerOptions.Forwards`).
They are written by putting the two together again, so that reading what was written gives the
options back, and what was read from any object is written in one form, which is read the same
(`RunOptions.forwardsWithoutLoss`).
-/

namespace InlineExpect

open Json

namespace CompilerOptions

variable {depth : Nat} {o : CompilerOptions} {name : String} {s : Setting}
  {members : List (String × Value)}

/-! ### Members with known and with unknown names -/

/-- The members of an object that are known options. -/
def knownOf (members : List (String × Value)) : List (String × Value) :=
  members.filter fun m => names.contains m.1

/-- The members of an object that are not known options. -/
def unknownOf (members : List (String × Value)) : List (String × Value) :=
  members.filter fun m => !names.contains m.1

/-- A member of a known name is found among the known options. -/
lemma lookup_knownOf (h : name ∈ names) : (knownOf members).lookup name = members.lookup name := by
  rw [knownOf, lookup_filter_fst names.contains, if_pos (List.contains_iff_mem.mpr h)]

/-- The last member of an unknown name is found among the options that are not known. -/
lemma last?_unknownOf (h : name ∉ names) : last? name (unknownOf members) = last? name members := by
  rw [unknownOf, last?_filter_fst (fun n => !names.contains n), if_pos]
  simpa using h

/-- The name of a setting is known. -/
lemma name_mem_names (hs : s ∈ Setting.all) : s.name ∈ names := by
  rw [Setting.names_eq]
  exact List.mem_map_of_mem hs

/-- Options are read from an object whose known options come once and are all read, and of which
the other members can be kept. -/
theorem ofValue?_object_eq_some_iff :
    ofValue? depth (.object members) = some o ↔
      ((knownOf members).map Prod.fst).Nodup ∧
      (∃ kept, Value.keepMembers? (depth - 1) (unknownOf members) = some kept ∧
        o.extra = distinctMembers kept) ∧
      ∀ s ∈ Setting.all, s.ReadsTo (knownOf members) o := by
  have hfields : Value.fields? names (.object members) =
      if ((knownOf members).map Prod.fst).Nodup then some (knownOf members) else none := rfl
  rw [ofValue?, hfields]
  by_cases hnodup : ((knownOf members).map Prod.fst).Nodup
  · rw [if_pos hnodup]
    simp only [Option.bind_eq_bind, Option.bind_some, Option.bind_eq_some_iff,
      ofKnown?_eq_some_iff, hnodup, true_and]
    constructor
    · rintro ⟨kept, hkept, hextra, hreads⟩
      exact ⟨⟨kept, hkept, hextra⟩, hreads⟩
    · rintro ⟨⟨kept, hkept, hextra⟩, hreads⟩
      exact ⟨kept, hkept, hextra, hreads⟩
  · rw [if_neg hnodup]
    exact iff_of_false nofun fun h => hnodup h.1

/-! ### Reading what was written -/

/-- What options hold as maps are maps. -/
structure WellFormed (o : CompilerOptions) : Prop where
  paths : ∀ ps, o.paths = some ps → Ascending ps
  extra : (Value.object o.extra).Normal

/-- A setting is found in the object that options are written as. -/
lemma lookup_knownMembers (o : CompilerOptions) (hs : s ∈ Setting.all) :
    o.knownMembers.lookup s.name = some (s.value o) := by
  have hnodup : (o.knownMembers.map Prod.fst).Nodup := Setting.nodup_names
  refine (lookup_eq_some_iff_mem hnodup).mpr ?_
  rw [Setting.knownMembers_eq]
  exact List.mem_map_of_mem hs

/-- Options are read as they were written, unless one that is not known has the name of a known
one. -/
theorem ofValue?_toValue (h : o.WellFormed) (hnames : ∀ m ∈ o.extra, m.1 ∉ names)
    (hheight : Value.heightMembers o.extra ≤ depth - 1) : ofValue? depth o.toValue = some o := by
  have hmem : ∀ m ∈ o.knownMembers, m.1 ∈ names := fun m hm => List.mem_map_of_mem hm
  have hknown : knownOf (o.knownMembers ++ o.extra) = o.knownMembers := by
    rw [knownOf, List.filter_append, List.filter_eq_self.mpr, List.filter_eq_nil_iff.mpr,
      List.append_nil]
    · simpa using hnames
    · simpa using hmem
  have hunknown : unknownOf (o.knownMembers ++ o.extra) = o.extra := by
    rw [unknownOf, List.filter_append, List.filter_eq_nil_iff.mpr, List.filter_eq_self.mpr,
      List.nil_append]
    · simpa using hnames
    · simpa using hmem
  rw [toValue, ofValue?_object_eq_some_iff, hknown, hunknown]
  cases h.extra with
  | leaf hleaf => cases hleaf
  | object hasc hnormal =>
    have hkept := Value.keepMembers?_eq_self fun m hm =>
      (hnormal m hm).keep?_eq (Value.heightMembers_le_iff.mp hheight m hm)
    refine ⟨Setting.nodup_names, ⟨o.extra, hkept, hasc.distinctMembers_eq.symm⟩, fun s hs => ?_⟩
    exact (Setting.restores_of_mem h.paths s hs).readsTo (lookup_knownMembers o hs)

/-! ### Reading any object -/

/-- The options that are not known are kept as an object of their own. -/
lemma keep?_unknownOf (h : ofValue? depth (.object members) = some o) :
    (Value.object (unknownOf members)).keep? (depth - 1 + 1) = some (.object o.extra) := by
  obtain ⟨-, ⟨kept, hkept, hextra⟩, -⟩ := ofValue?_object_eq_some_iff.mp h
  exact Option.map_eq_some_iff.mpr ⟨kept, hkept, congrArg Value.object hextra.symm⟩

/-- The options that are not known are no deeper than what may be kept. -/
lemma heightMembers_extra_le (h : ofValue? depth (.object members) = some o) :
    Value.heightMembers o.extra ≤ depth - 1 := by
  have hheight := (Value.normal_of_keep? (keep?_unknownOf h)).2
  rw [Value.height] at hheight
  omega

/-- The settings are read from the members of their names. -/
lemma exists_fields_of_ofValue? (h : ofValue? depth (.object members) = some o) :
    ∃ fields, ∀ s ∈ Setting.all,
      fields.lookup s.name = members.lookup s.name ∧ s.ReadsTo fields o := by
  obtain ⟨-, -, hreads⟩ := ofValue?_object_eq_some_iff.mp h
  exact ⟨knownOf members, fun s hs => ⟨lookup_knownOf (name_mem_names hs), hreads s hs⟩⟩

/-- What is read from an object as a map is a map. -/
lemma wellFormed_of_ofValue? (h : ofValue? depth (.object members) = some o) : o.WellFormed where
  paths ps hps := by
    obtain ⟨fields, hfields⟩ := exists_fields_of_ofValue? h
    obtain ⟨-, hreads⟩ := hfields Setting.paths (by simp [Setting.all])
    obtain ⟨v, hv⟩ := hreads.exists_of_get hps
    exact ascending_of_map? hv
  extra := (Value.normal_of_keep? (keep?_unknownOf h)).1

/-- The last member of an unknown name is kept under this name. -/
lemma rel_lookup_extra (h : ofValue? depth (.object members) = some o) (hname : name ∉ names) :
    Option.Rel (fun v w => v.keep? (depth - 1) = some w) (last? name members)
      (o.extra.lookup name) := by
  obtain ⟨-, ⟨kept, hkept, hextra⟩, -⟩ := ofValue?_object_eq_some_iff.mp h
  rw [← last?_unknownOf hname, hextra, lookup_distinctMembers]
  exact SameNames.last? (Value.keepMembers?_eq_some_iff.mp hkept) name

/-- What is kept are members of unknown names. -/
lemma of_mem_extra (h : ofValue? depth (.object members) = some o) {m : String × Value}
    (hm : m ∈ o.extra) : m.1 ∉ names ∧ m.1 ∈ members.map Prod.fst := by
  obtain ⟨-, ⟨kept, hkept, hextra⟩, -⟩ := ofValue?_object_eq_some_iff.mp h
  have hnames := SameNames.map_fst_eq (Value.keepMembers?_eq_some_iff.mp hkept)
  have hname : m.1 ∈ kept.map Prod.fst :=
    List.mem_map_of_mem (mem_of_mem_distinctMembers (hextra ▸ hm))
  rw [← hnames] at hname
  obtain ⟨m', hm', heq⟩ := List.mem_map.mp hname
  obtain ⟨hmem, hunknown⟩ := List.mem_filter.mp hm'
  rw [← heq]
  exact ⟨by simpa using hunknown, List.mem_map_of_mem hmem⟩

/-- Options hold what the members of an object say. -/
structure Forwards (members : List (String × Value)) (o : CompilerOptions) : Prop where
  wellFormed : o.WellFormed
  /-- What comes last under an unknown name is kept under it. -/
  unknown : ∀ name ∉ names, ∀ v, last? name members = some v →
    ∃ w, o.extra.lookup name = some w ∧ v.SameContent w ∧ (v.Normal → w = v)
  /-- Nothing else is kept. -/
  extra : ∀ m ∈ o.extra, m.1 ∉ names ∧ m.1 ∈ members.map Prod.fst
  /-- A setting is absent if it has no member, or one that is `null`. -/
  known : ∀ s ∈ Setting.all, (s.get o = none ↔
    members.lookup s.name = none ∨ members.lookup s.name = some .null)
  /-- Any other setting is what its member is read as, and is written in one form. -/
  canonical : ∀ s ∈ Setting.all, ∀ v, members.lookup s.name = some v → v ≠ .null →
    ∃ a, s.read v = some a ∧ s.get o = some a ∧ o.knownMembers.lookup s.name = some (s.write a)

/-- What is read from an object is what its members say. -/
theorem forwards_of_ofValue? (h : ofValue? depth (.object members) = some o) :
    o.Forwards members where
  wellFormed := wellFormed_of_ofValue? h
  unknown name hname v hv := by
    have hrel := rel_lookup_extra h hname
    rw [hv] at hrel
    generalize o.extra.lookup name = found at hrel ⊢
    cases hrel with
    | @some _ w hkeep =>
      have hsame := Value.sameContent_of_keep? hkeep
      refine ⟨w, rfl, hsame, fun hnormal => ?_⟩
      exact (hnormal.eq_of_sameContent (Value.normal_of_keep? hkeep).1 hsame).symm
  extra _ hm := of_mem_extra h hm
  known s hs := by
    obtain ⟨fields, hfields⟩ := exists_fields_of_ofValue? h
    obtain ⟨hlookup, hreads⟩ := hfields s hs
    rw [hreads.get_eq_none_iff, hlookup]
  canonical s hs v hv hnull := by
    obtain ⟨fields, hfields⟩ := exists_fields_of_ofValue? h
    obtain ⟨hlookup, hreads⟩ := hfields s hs
    obtain ⟨a, hread, hget, hvalue⟩ := hreads.exists_value (hlookup.trans hv) hnull
    exact ⟨a, hread, hget, by rw [lookup_knownMembers o hs, hvalue]⟩

/-- A member of a known name may be replaced by one that is read alike. -/
theorem ofValue?_replace {v w : Value} (hs : s ∈ Setting.all)
    (hread : Value.nullable? s.read v = Value.nullable? s.read w)
    (before after : List (String × Value)) :
    ofValue? depth (.object (before ++ (s.name, v) :: after)) =
      ofValue? depth (.object (before ++ (s.name, w) :: after)) := by
  have hknown : ∀ v, knownOf (before ++ (s.name, v) :: after) =
      knownOf before ++ (s.name, v) :: knownOf after := by
    intro v
    rw [knownOf, List.filter_append, List.filter_cons_of_pos]
    · rfl
    · exact List.contains_iff_mem.mpr (name_mem_names hs)
  have hunknown : ∀ v, unknownOf (before ++ (s.name, v) :: after) =
      unknownOf before ++ unknownOf after := by
    intro v
    rw [unknownOf, List.filter_append, List.filter_cons_of_neg]
    · rfl
    · simpa using name_mem_names hs
  have hreads : ∀ s' ∈ Setting.all, ∀ o : CompilerOptions,
      s'.ReadsTo (knownOf before ++ (s.name, v) :: knownOf after) o ↔
        s'.ReadsTo (knownOf before ++ (s.name, w) :: knownOf after) o := by
    intro s' hs' o
    unfold Setting.ReadsTo optional? defaulted?
    rw [List.lookup_append, List.lookup_append, lookup_cons_eq_ite, lookup_cons_eq_ite]
    by_cases hname : s'.name = s.name
    · have hnodup : (Setting.all.map Setting.name).Nodup := Setting.nodup_names
      obtain rfl := List.inj_on_of_nodup_map hnodup hs' hs hname
      rw [if_pos rfl, if_pos rfl]
      cases (knownOf before).lookup s'.name with
      | none =>
        dsimp only [Option.none_or]
        rw [hread]
      | some x => exact Iff.rfl
    · rw [if_neg hname, if_neg hname]
  refine Option.ext fun o => ?_
  rw [ofValue?_object_eq_some_iff, ofValue?_object_eq_some_iff, hknown, hknown, hunknown, hunknown,
    forall₂_congr fun s' hs' => hreads s' hs' o]
  simp only [List.map_append, List.map_cons]

end CompilerOptions

namespace RunOptions

variable {depth : Nat} {o : RunOptions} {v : Value}

/-! ### Run options -/

/-- The value of the compiler options in a record of run options, which is an object or an array of
the fields in their order. -/
def compilerValue? : Value → Option Value
  | .object members => members.lookup "compilerOptions"
  | .array items => items[4]?
  | _ => none

/-- The members of the compiler options in a record of run options, none if it has no such. -/
def compilerMembers (v : Value) : List (String × Value) :=
  match compilerValue? v with
  | some (.object members) => members
  | _ => []

/-- The compiler options are found among the fields of a record. -/
lemma lookup_of_fields? {fields : List (String × Value)} (h : v.fields? names = some fields) :
    fields.lookup "compilerOptions" = compilerValue? v := by
  cases v with
  | object members =>
    dsimp only [Value.fields?] at h
    split at h
    · obtain rfl := Option.some.inj h
      exact lookup_filter_fst names.contains "compilerOptions" members
    · cases h
  | array items =>
    dsimp only [Value.fields?] at h
    split at h
    · obtain rfl := Option.some.inj h
      -- Only the fifth item stands for the compiler options.
      match items with
      | [] | [_] | [_, _] | [_, _, _] | [_, _, _, _] | _ :: _ :: _ :: _ :: _ :: _ => rfl
    · cases h
  | _ => cases h

/-- Run options are read from a record whose fields are all read. -/
theorem ofValue?_eq_some_iff : ofValue? depth v = some o ↔
    ∃ fields, v.fields? names = some fields ∧
      defaulted? fields "versions" [] (Value.list? Value.string?) = some o.versions ∧
      defaulted? fields "includeNext" false Value.bool? = some o.includeNext ∧
      defaulted? fields "onlyTestNext" false Value.bool? = some o.onlyTestNext ∧
      optional? fields "maxVersion" Value.string? = some o.maxVersion ∧
      defaulted? fields "compilerOptions" {} (CompilerOptions.ofValue? (depth - 1)) =
        some o.compilerOptions := by
  simp only [ofValue?, Option.bind_eq_bind, Option.bind_eq_some_iff, Option.pure_def,
    Option.some.injEq]
  constructor
  · rintro ⟨fields, hfields, versions, h1, next, h2, onlyNext, h3, max, h4, options, h5, rfl⟩
    exact ⟨fields, hfields, h1, h2, h3, h4, h5⟩
  · rintro ⟨fields, hfields, h1, h2, h3, h4, h5⟩
    exact ⟨fields, hfields, _, h1, _, h2, _, h3, _, h4, _, h5, rfl⟩

/-- Run options are read as they were written, unless a compiler option that is not known has the
name of a known one. -/
theorem ofValue?_toValue (h : o.compilerOptions.WellFormed)
    (hnames : ∀ m ∈ o.compilerOptions.extra, m.1 ∉ CompilerOptions.names)
    (hheight : Value.heightMembers o.compilerOptions.extra ≤ depth - 1 - 1) :
    ofValue? depth o.toValue = some o := by
  have hoptions := CompilerOptions.ofValue?_toValue h hnames hheight
  have hfields : o.toValue.fields? names = some
      [("versions", CompilerOptions.stringsValue o.versions),
        ("includeNext", .bool o.includeNext), ("onlyTestNext", .bool o.onlyTestNext),
        ("maxVersion", CompilerOptions.optionValue .string o.maxVersion),
        ("compilerOptions", o.compilerOptions.toValue)] := rfl
  refine ofValue?_eq_some_iff.mpr ⟨_, hfields, CompilerOptions.list?_stringsValue _, rfl, rfl, ?_,
    hoptions⟩
  cases hmax : o.maxVersion with
  | none => rfl
  | some version => rfl

/-- The compiler options are read from the object that holds them, as the default ones are from an
empty object. -/
lemma ofValue?_compilerMembers (h : ofValue? depth v = some o) :
    CompilerOptions.ofValue? (depth - 1) (.object (compilerMembers v)) =
      some o.compilerOptions := by
  obtain ⟨fields, hfields, -, -, -, -, hoptions⟩ := ofValue?_eq_some_iff.mp h
  rw [defaulted?, lookup_of_fields? hfields] at hoptions
  unfold compilerMembers
  cases hvalue : compilerValue? v with
  | none =>
    rw [hvalue] at hoptions
    rw [← hoptions]
    cases depth - 1 <;> rfl
  | some w =>
    rw [hvalue] at hoptions
    cases w with
    | object members => exact hoptions
    | _ => cases hoptions

/-- The compiler options that are not known stand two levels deep. -/
lemma heightMembers_extra_le (hheight : o.toValue.height ≤ depth) :
    Value.heightMembers o.compilerOptions.extra ≤ depth - 1 - 1 := by
  have hoptions : o.compilerOptions.toValue.height ≤ depth - 1 := by
    rw [toValue, Value.height] at hheight
    have hmembers := Value.heightMembers_le_iff.mp (Nat.le_sub_of_add_le' hheight)
    exact hmembers ("compilerOptions", o.compilerOptions.toValue) (by simp)
  rw [CompilerOptions.toValue, Value.height] at hoptions
  have hmembers := Value.heightMembers_le_iff.mp (Nat.le_sub_of_add_le' hoptions)
  exact Value.heightMembers_le_iff.mpr fun m hm => hmembers m (List.mem_append_right _ hm)

/-- Run options forward what they are given.  Written and read again they are the same, where the
compiler options that are not known have names of their own and are no deeper than what may be read.
Options that are read from any value hold what it says, and writing and reading them again changes
nothing.  A target or a module format goes by every name that it has. -/
theorem forwardsWithoutLoss (depth : Nat) :
    (∀ o : RunOptions, o.compilerOptions.WellFormed →
      (∀ m ∈ o.compilerOptions.extra, m.1 ∉ CompilerOptions.names) → o.toValue.height ≤ depth →
      ofValue? depth o.toValue = some o) ∧
    (∀ v o, ofValue? depth v = some o →
      o.compilerOptions.Forwards (compilerMembers v) ∧ ofValue? depth o.toValue = some o) ∧
    (∀ before after name t, ScriptTarget.ofName? name = some t →
      CompilerOptions.ofValue? depth (.object (before ++ ("target", .string name) :: after)) =
        CompilerOptions.ofValue? depth (.object (before ++ ("target", .string t.name) :: after))) ∧
    ∀ before after name m, ModuleFormat.ofName? name = some m →
      CompilerOptions.ofValue? depth (.object (before ++ ("module", .string name) :: after)) =
        CompilerOptions.ofValue? depth
          (.object (before ++ ("module", .string m.name) :: after)) := by
  refine ⟨fun o hwf hnames hheight => ?_, fun v o h => ?_, fun before after name t ht => ?_,
    fun before after name m hm => ?_⟩
  · exact ofValue?_toValue hwf hnames (heightMembers_extra_le hheight)
  · have hoptions := ofValue?_compilerMembers h
    have hforwards := CompilerOptions.forwards_of_ofValue? hoptions
    refine ⟨hforwards, ofValue?_toValue hforwards.wellFormed (fun m hm => ?_) ?_⟩
    · exact (hforwards.extra m hm).1
    · exact CompilerOptions.heightMembers_extra_le hoptions
  · refine CompilerOptions.ofValue?_replace (s := Setting.target) (by simp [Setting.all]) ?_ before
      after
    exact congrArg (Option.map some) (ht.trans (ScriptTarget.ofName?_name t).symm)
  · refine CompilerOptions.ofValue?_replace (s := Setting.moduleFormat) (by simp [Setting.all]) ?_
      before after
    exact congrArg (Option.map some) (hm.trans (ModuleFormat.ofName?_name m).symm)

/-- A record with an alias for a target, an option that is `null`, and an option that is not known
and comes twice. -/
def sampleRecord : Value :=
  .object [("versions", .array [.string "5.0"]),
    ("compilerOptions", .object [("target", .string "es6"), ("newFlag", .nat 1), ("strict", .null),
      ("newFlag", .object [("b", .nat 1), ("a", .bool true)])])]

/-- The options that the sample record holds. -/
def sampleOptions : RunOptions where
  versions := ["5.0"]
  compilerOptions :=
    { target := some .es2015
      extra := [("newFlag", .object [("a", .bool true), ("b", .nat 1)])] }

/-- The options of the sample record are forwarded. -/
theorem forwardsWithoutLoss_sampleRecord :
    ofValue? maxDepth sampleRecord = some sampleOptions ∧
      sampleOptions.compilerOptions.Forwards (compilerMembers sampleRecord) ∧
      (∀ m ∈ sampleOptions.compilerOptions.extra, m.1 ∉ CompilerOptions.names) ∧
      sampleOptions.toValue.height ≤ maxDepth ∧
      ofValue? maxDepth sampleOptions.toValue = some sampleOptions := by
  have hread : ofValue? maxDepth sampleRecord = some sampleOptions := rfl
  obtain ⟨hwrite, hforward, -⟩ := forwardsWithoutLoss maxDepth
  have hforwards := (hforward sampleRecord sampleOptions hread).1
  have hnames : ∀ m ∈ sampleOptions.compilerOptions.extra, m.1 ∉ CompilerOptions.names :=
    fun m hm => (hforwards.extra m hm).1
  have hheight : sampleOptions.toValue.height ≤ maxDepth := by decide +kernel
  exact ⟨hread, hforwards, hnames, hheight, hwrite _ hforwards.wellFormed hnames hheight⟩

end RunOptions

end InlineExpect
