import Mathlib
import InlineExpect.Package.Check
import InlineExpect.Proofs.Traversal
import InlineExpect.Snapshot.Recording

/-!
# What the check of a version comes to

The check of a package under one version looks for three kinds of trouble, one after the other: a
file of the program that was not recorded, a test file that the program does not have, and a test
file whose check has no result.  The first trouble is the error, and failures that were found before
it do not count.  Without trouble the failures of the test files follow each other.

`TestPackage.Concludes` says so as a relation that speaks of splits of the two lists and not of the
loops, and of the files that are checked on the way.  A check ends as one of its cases says
(`TestPackage.concludes_checkVersionLogged`), and each case leaves a single end
(`TestPackage.checkVersionLogged_of_concludes`).
-/

namespace InlineExpect

/-! ### The check of a version, with a note of each file -/

namespace TestPackage

/-- The check of a package under one version, where the test files are checked with the effects of
`m`. -/
def checkVersionVia {m : Type → Type} [Monad m]
    (check : Oracle Id → SourceFile → ExceptT CheckError m (List Failure)) (p : TestPackage)
    (e : Environment) : ExceptT CheckError m (List Failure) := do
  let oracle ← ExceptT.mk (pure ((e.oracle p.program).mapError (.oracle e.version)))
  let files ← ExceptT.mk (pure (p.testFiles.mapError (.oracle e.version)))
  let failures ← files.mapM (check oracle)
  return failures.flatten

/-- What the check of a test file comes to. -/
def verdictOn (o : Oracle Id) (f : SourceFile) : Except CheckError (List Failure) :=
  Except.mapError .matching (checkFile o f).run

/-- The check of a package under one version, with the files that are checked in it. -/
def checkVersionLogged (p : TestPackage) (e : Environment) :
    Except CheckError (List Failure) × List SourceFile :=
  (p.checkVersionVia (fun o => logging (verdictOn o)) e).run.run []

/-- The check is in three stages, and only the last one checks files. -/
lemma checkVersionLogged_eq (p : TestPackage) (e : Environment) :
    p.checkVersionLogged e =
      match e.oracle p.program, p.testFiles with
      | .error fault, _ => (.error (.oracle e.version fault), [])
      | .ok _, .error fault => (.error (.oracle e.version fault), [])
      | .ok o, .ok files =>
        ((files.mapM (verdictOn o)).map List.flatten, tried (verdictOn o) files) := by
  rw [checkVersionLogged, checkVersionVia]
  cases e.oracle p.program with
  | error fault => rfl
  | ok o =>
    cases p.testFiles with
    | error fault => rfl
    | ok files =>
      dsimp only
      change StateT.run (ExceptT.run (files.mapM (logging (verdictOn o)) >>=
        fun failures => pure failures.flatten)) [] = _
      rw [ExceptT.run_bind, StateT.run_bind, run_mapM_logging, List.nil_append]
      cases files.mapM (verdictOn o) with
      | error fault => rfl
      | ok failures => rfl

/-- The note of the files changes nothing about the result. -/
lemma fst_checkVersionLogged (p : TestPackage) (e : Environment) :
    (p.checkVersionLogged e).1 = p.checkVersion e := by
  rw [checkVersionLogged_eq, checkVersion]
  cases e.oracle p.program with
  | error fault => rfl
  | ok o =>
    cases p.testFiles with
    | error fault => rfl
    | ok files =>
      change (files.mapM (verdictOn o)).map List.flatten =
        (files.mapM (verdictOn o) >>= fun failures => pure failures.flatten)
      cases files.mapM (verdictOn o) with
      | error fault => rfl
      | ok failures => rfl

end TestPackage

/-! ### How the check of a version ends -/

/-- A recording has a record of a file. -/
def Recording.Records (r : Recording) (f : SourceFile) : Prop := f.name ∈ r.files.map Prod.fst

/-- A program has a file with a name. -/
def Program.Has (p : Program) (name : String) : Prop := ∃ f ∈ p.files, f.name = name

/-- The environment of a version that was recorded. -/
def Recording.environment (r : Recording) (version : Version) (installedHere : Bool)
    (serial : Nat) : Environment :=
  ⟨version, installedHere, r.engineFor, serial⟩

namespace TestPackage

/-- Some files are those to check: all files of the program, or the file of each name in turn. -/
def Lists (p : TestPackage) (files : List SourceFile) : Prop :=
  match p.testFileNames with
  | none => files = p.program.files
  | some names => List.Forall₂ (fun name f => p.program.file? name = some f) names files

/-- How the check of a package ends under a version that was recorded, and the files that are
checked before it ends. -/
inductive Concludes (p : TestPackage) (r : Recording) (version : Version) :
    Except CheckError (List Failure) → List SourceFile → Prop
  /-- A file of the program was not recorded. -/
  | unrecorded {before : List SourceFile} {f : SourceFile} {after : List SourceFile}
      (files_eq : p.program.files = before ++ f :: after)
      (recorded : ∀ g ∈ before, r.Records g) (not_recorded : ¬ r.Records f) :
      Concludes p r version (.error (.oracle version (.unknownFile f.name))) []
  /-- A test file is not in the program. -/
  | missing {before : List String} {name : String} {after : List String}
      (recorded : ∀ f ∈ p.program.files, r.Records f)
      (names_eq : p.testFileNames = some (before ++ name :: after))
      (present : ∀ n ∈ before, p.program.Has n) (not_present : ¬ p.program.Has name) :
      Concludes p r version (.error (.oracle version (.unknownFile name))) []
  /-- The check of a test file has no result. -/
  | failed {before : List SourceFile} {f : SourceFile} {after : List SourceFile} {e : MatchError}
      (recorded : ∀ g ∈ p.program.files, r.Records g) (lists : p.Lists (before ++ f :: after))
      (checked : ∀ g ∈ before,
        ∃ failures, (checkFile (r.engine.oracle version) g).run = .ok failures)
      (fails : (checkFile (r.engine.oracle version) f).run = .error e) :
      Concludes p r version (.error (.matching e)) (before ++ [f])
  /-- All test files are checked. -/
  | passed {files : List SourceFile} {results : List (List Failure)}
      (recorded : ∀ f ∈ p.program.files, r.Records f) (lists : p.Lists files)
      (checked : files.map (fun f => (checkFile (r.engine.oracle version) f).run) =
        results.map .ok) :
      Concludes p r version (.ok results.flatten) files

/-! ### The stages of the check -/

section Stages

variable {p : TestPackage} {q : Program} {r : Recording}

lemma contains_iff_records {f : SourceFile} : r.contains f.name = true ↔ r.Records f := by
  rw [Recording.contains, List.lookup_isSome_iff, Recording.Records, List.mem_map]
  refine exists_congr fun entry => and_congr_right fun _ => ?_
  rw [beq_iff_eq, eq_comm]

/-- There is an engine exactly if all files of the program were recorded. -/
lemma engineFor_eq_ok_iff {engine : Engine} :
    r.engineFor q = .ok engine ↔ (∀ f ∈ q.files, r.Records f) ∧ engine = r.engine := by
  have hall : q.files.find? (fun f => !r.contains f.name) = none ↔ ∀ f ∈ q.files, r.Records f := by
    simp only [List.find?_eq_none, Bool.not_eq_true', Bool.not_eq_false, contains_iff_records]
  rw [Recording.engineFor, ← hall]
  cases q.files.find? (fun f => !r.contains f.name) with
  | none => exact ⟨fun h => ⟨rfl, (Except.ok.inj h).symm⟩, fun h => congrArg Except.ok h.2.symm⟩
  | some f => exact iff_of_false nofun fun h => nomatch h.1

/-- The first file of the program that was not recorded is the error. -/
lemma engineFor_eq_error_iff {fault : OracleError} :
    r.engineFor q = .error fault ↔ ∃ before f after, q.files = before ++ f :: after ∧
      (∀ g ∈ before, r.Records g) ∧ ¬ r.Records f ∧ fault = .unknownFile f.name := by
  have hfirst : ∀ f, q.files.find? (fun f => !r.contains f.name) = some f ↔
      ∃ before after, q.files = before ++ f :: after ∧ (∀ g ∈ before, r.Records g) ∧
        ¬ r.Records f := by
    intro f
    rw [List.find?_eq_some_iff_append]
    simp only [Bool.not_not, contains_iff_records, Bool.not_eq_true', ← Bool.not_eq_true]
    tauto
  rw [Recording.engineFor]
  cases hfind : q.files.find? (fun f => !r.contains f.name) with
  | none =>
    refine iff_of_false nofun ?_
    rintro ⟨before, f, after, hfiles, hbefore, hf, -⟩
    rw [(hfirst f).mpr ⟨before, after, hfiles, hbefore, hf⟩] at hfind
    cases hfind
  | some f =>
    constructor
    · intro h
      obtain ⟨before, after, hfiles, hbefore, hf⟩ := (hfirst f).mp hfind
      exact ⟨before, f, after, hfiles, hbefore, hf, (Except.error.inj h).symm⟩
    · rintro ⟨before, g, after, hfiles, hbefore, hg, rfl⟩
      rw [(hfirst g).mpr ⟨before, after, hfiles, hbefore, hg⟩] at hfind
      rw [Option.some.inj hfind]

lemma testFile_eq_ok_iff {name : String} {f : SourceFile} :
    p.testFile name = .ok f ↔ p.program.file? name = some f := by
  rw [testFile]
  cases p.program.file? name with
  | none => exact iff_of_false nofun nofun
  | some g =>
    exact ⟨fun h => congrArg some (Except.ok.inj h),
      fun h => congrArg Except.ok (Option.some.inj h)⟩

lemma exists_testFile_eq_ok_iff {name : String} :
    (∃ f, p.testFile name = .ok f) ↔ p.program.Has name := by
  simp only [testFile_eq_ok_iff, ← Option.isSome_iff_exists, Program.file?, List.find?_isSome,
    beq_iff_eq, Program.Has]

lemma testFile_eq_error_iff {name : String} {fault : OracleError} :
    p.testFile name = .error fault ↔ ¬ p.program.Has name ∧ fault = .unknownFile name := by
  rw [← exists_testFile_eq_ok_iff, testFile]
  cases p.program.file? name with
  | none =>
    exact ⟨fun h => ⟨nofun, (Except.error.inj h).symm⟩, fun h => congrArg Except.error h.2.symm⟩
  | some f => exact iff_of_false nofun fun h => h.1 ⟨f, rfl⟩

/-- The files to check are found if each name is that of a file of the program. -/
lemma testFiles_eq_ok_iff {files : List SourceFile} :
    p.testFiles = .ok files ↔ p.Lists files := by
  rw [testFiles, Lists]
  cases p.testFileNames with
  | none => exact ⟨fun h => (Except.ok.inj h).symm, fun h => congrArg Except.ok h.symm⟩
  | some names =>
    simp only [mapM_eq_ok_iff, ← List.forall₂_eq_eq_eq, List.forall₂_map_left_iff,
      List.forall₂_map_right_iff, testFile_eq_ok_iff]

/-- The first name that is not that of a file of the program is the error. -/
lemma testFiles_eq_error_iff {fault : OracleError} :
    p.testFiles = .error fault ↔ ∃ before name after,
      p.testFileNames = some (before ++ name :: after) ∧ (∀ n ∈ before, p.program.Has n) ∧
        ¬ p.program.Has name ∧ fault = .unknownFile name := by
  rw [testFiles]
  cases p.testFileNames with
  | none => exact iff_of_false nofun nofun
  | some names =>
    simp only [mapM_eq_error_iff, exists_testFile_eq_ok_iff, testFile_eq_error_iff,
      Option.some.injEq]

variable {o : Oracle Id} {f : SourceFile}

lemma verdictOn_eq_ok_iff {failures : List Failure} :
    verdictOn o f = .ok failures ↔ (checkFile o f).run = .ok failures := by
  rw [verdictOn]
  cases (checkFile o f).run with
  | error e => exact iff_of_false nofun nofun
  | ok found => exact ⟨fun h => congrArg Except.ok (Except.ok.inj h), fun h => congrArg _ h⟩

lemma mapM_verdictOn_eq_ok_iff {files : List SourceFile} {results : List (List Failure)} :
    files.mapM (verdictOn o) = .ok results ↔
      files.map (fun f => (checkFile o f).run) = results.map .ok := by
  simp only [mapM_eq_ok_iff, ← List.forall₂_eq_eq_eq, List.forall₂_map_left_iff,
    List.forall₂_map_right_iff, verdictOn_eq_ok_iff]

lemma verdictOn_eq_error_iff {fault : CheckError} :
    verdictOn o f = .error fault ↔ ∃ e, (checkFile o f).run = .error e ∧ fault = .matching e := by
  rw [verdictOn]
  cases (checkFile o f).run with
  | error e =>
    constructor
    · intro h
      exact ⟨e, rfl, (Except.error.inj h).symm⟩
    · rintro ⟨e', he, rfl⟩
      obtain rfl := Except.error.inj he
      rfl
  | ok found => exact iff_of_false nofun nofun

end Stages

/-! ### The whole check -/

section Conclusion

variable {p : TestPackage} {r : Recording} {version : Version} {here : Bool} {serial : Nat}
  {result : Except CheckError (List Failure)} {checked : List SourceFile}

/-- The stages of a check under a version that was recorded. -/
lemma checkVersionLogged_environment (p : TestPackage) (r : Recording) (version : Version)
    (here : Bool) (serial : Nat) :
    p.checkVersionLogged (r.environment version here serial) =
      match r.engineFor p.program, p.testFiles with
      | .error fault, _ => (.error (.oracle version fault), [])
      | .ok _, .error fault => (.error (.oracle version fault), [])
      | .ok engine, .ok files =>
        ((files.mapM (verdictOn (engine.oracle version))).map List.flatten,
          tried (verdictOn (engine.oracle version)) files) := by
  rw [checkVersionLogged_eq]
  change (match (r.engineFor p.program).map fun engine => engine.oracle version, p.testFiles with
    | .error fault, _ => _
    | .ok _, .error fault => _
    | .ok o, .ok files => _) = _
  cases r.engineFor p.program with
  | error fault => rfl
  | ok engine =>
    cases p.testFiles with
    | error fault => rfl
    | ok files => rfl

/-- A check ends as one of the cases says. -/
lemma concludes_checkVersionLogged
    (hend : p.checkVersionLogged (r.environment version here serial) = (result, checked)) :
    p.Concludes r version result checked := by
  rw [checkVersionLogged_environment] at hend
  cases hengine : r.engineFor p.program with
  | error fault =>
    obtain ⟨before, f, after, hfiles, hbefore, hf, rfl⟩ := engineFor_eq_error_iff.mp hengine
    rw [hengine] at hend
    obtain ⟨rfl, rfl⟩ := Prod.mk.inj hend
    exact .unrecorded hfiles hbefore hf
  | ok engine =>
    obtain ⟨hrecorded, rfl⟩ := engineFor_eq_ok_iff.mp hengine
    cases hfiles : p.testFiles with
    | error fault =>
      obtain ⟨before, name, after, hnames, hbefore, hname, rfl⟩ :=
        testFiles_eq_error_iff.mp hfiles
      rw [hengine, hfiles] at hend
      obtain ⟨rfl, rfl⟩ := Prod.mk.inj hend
      exact .missing hrecorded hnames hbefore hname
    | ok files =>
      have hlists := testFiles_eq_ok_iff.mp hfiles
      rw [hengine, hfiles] at hend
      dsimp only at hend
      cases hverdicts : files.mapM (verdictOn (r.engine.oracle version)) with
      | error fault =>
        obtain ⟨before, f, after, rfl, hbefore, hf⟩ := mapM_eq_error_iff.mp hverdicts
        obtain ⟨e, he, rfl⟩ := verdictOn_eq_error_iff.mp hf
        rw [hverdicts, tried_append_cons hbefore hf] at hend
        obtain ⟨rfl, rfl⟩ := Prod.mk.inj hend
        simp only [verdictOn_eq_ok_iff] at hbefore
        exact .failed hrecorded hlists hbefore he
      | ok results =>
        rw [hverdicts, tried_eq_self (exists_of_mapM_eq_ok hverdicts)] at hend
        obtain ⟨rfl, rfl⟩ := Prod.mk.inj hend
        exact .passed hrecorded hlists (mapM_verdictOn_eq_ok_iff.mp hverdicts)

/-- Each case determines how the check ends. -/
lemma checkVersionLogged_of_concludes (h : p.Concludes r version result checked) :
    p.checkVersionLogged (r.environment version here serial) = (result, checked) := by
  rw [checkVersionLogged_environment]
  cases h with
  | unrecorded hfiles hbefore hf =>
    rw [engineFor_eq_error_iff.mpr ⟨_, _, _, hfiles, hbefore, hf, rfl⟩]
  | missing hrecorded hnames hbefore hname =>
    rw [engineFor_eq_ok_iff.mpr ⟨hrecorded, rfl⟩,
      testFiles_eq_error_iff.mpr ⟨_, _, _, hnames, hbefore, hname, rfl⟩]
  | @failed before f after e hrecorded hlists hbefore hf =>
    simp only [← verdictOn_eq_ok_iff] at hbefore
    have hverdict := verdictOn_eq_error_iff.mpr ⟨e, hf, rfl⟩
    have hverdicts := mapM_eq_error_iff.mpr ⟨before, f, after, rfl, hbefore, hverdict⟩
    rw [engineFor_eq_ok_iff.mpr ⟨hrecorded, rfl⟩, testFiles_eq_ok_iff.mpr hlists]
    dsimp only
    rw [hverdicts, tried_append_cons hbefore hverdict]
    rfl
  | passed hrecorded hlists hchecked =>
    have hverdicts := mapM_verdictOn_eq_ok_iff.mpr hchecked
    rw [engineFor_eq_ok_iff.mpr ⟨hrecorded, rfl⟩, testFiles_eq_ok_iff.mpr hlists]
    dsimp only
    rw [hverdicts, tried_eq_self (exists_of_mapM_eq_ok hverdicts)]
    rfl

/-- The results of some files are empty together exactly if each of them is empty. -/
lemma exists_results_flatten_eq_nil_iff {o : Oracle Id} {files : List SourceFile} :
    (∃ results : List (List Failure),
      files.map (fun f => (checkFile o f).run) = results.map .ok ∧ results.flatten = []) ↔
      ∀ f ∈ files, (checkFile o f).run = .ok [] := by
  constructor
  · rintro ⟨results, hresults, hnil⟩ f hf
    have hmem := List.mem_map_of_mem (f := fun f => (checkFile o f).run) hf
    rw [hresults] at hmem
    obtain ⟨failures, hfailures, heq⟩ := List.mem_map.mp hmem
    rw [← heq, List.flatten_eq_nil_iff.mp hnil failures hfailures]
  · intro h
    refine ⟨files.map fun _ => [], ?_, List.flatten_eq_nil_iff.mpr (by simp)⟩
    rw [List.map_map]
    exact List.map_congr_left h

/-- A version passes exactly if the whole program was recorded, and the check of each test file has
no failures. -/
lemma checkVersion_eq_ok_nil_iff :
    p.checkVersion (r.environment version here serial) = .ok [] ↔
      (∀ f ∈ p.program.files, r.Records f) ∧ ∃ files, p.Lists files ∧
        ∀ f ∈ files, (checkFile (r.engine.oracle version) f).run = .ok [] := by
  rw [← fst_checkVersionLogged]
  constructor
  · intro h
    obtain ⟨result, checked, hresult, hend⟩ :
        ∃ result checked, result = .ok [] ∧ p.Concludes r version result checked :=
      ⟨_, _, h, concludes_checkVersionLogged rfl⟩
    cases hend with
    | unrecorded => cases hresult
    | missing => cases hresult
    | failed => cases hresult
    | passed hrecorded hlists hchecked =>
      have hnil := Except.ok.inj hresult
      exact ⟨hrecorded, checked, hlists,
        exists_results_flatten_eq_nil_iff.mp ⟨_, hchecked, hnil⟩⟩
  · rintro ⟨hrecorded, files, hlists, hfiles⟩
    obtain ⟨results, hchecked, hnil⟩ := exists_results_flatten_eq_nil_iff.mpr hfiles
    rw [checkVersionLogged_of_concludes (.passed hrecorded hlists hchecked), hnil]

/-- The check of a package under a version that was recorded ends in one of four ways, which also
tell the files that are checked on the way: a file of the program was not recorded, a test file is
not in the program, the check of a test file has no result, or the failures of all test files follow
each other.  The version passes exactly if there are no failures in any of them. -/
theorem checkVersion_concludes (p : TestPackage) (r : Recording) (version : Version)
    (here : Bool) (serial : Nat) :
    (∀ result checked,
      p.checkVersionLogged (r.environment version here serial) = (result, checked) ↔
        p.Concludes r version result checked) ∧
    (p.checkVersionLogged (r.environment version here serial)).1 =
      p.checkVersion (r.environment version here serial) ∧
    (p.checkVersion (r.environment version here serial) = .ok [] ↔
      (∀ f ∈ p.program.files, r.Records f) ∧ ∃ files, p.Lists files ∧
        ∀ f ∈ files, (checkFile (r.engine.oracle version) f).run = .ok []) :=
  ⟨fun _ _ => ⟨concludes_checkVersionLogged, checkVersionLogged_of_concludes⟩,
    fst_checkVersionLogged p _, checkVersion_eq_ok_nil_iff⟩

end Conclusion

end TestPackage

end InlineExpect
