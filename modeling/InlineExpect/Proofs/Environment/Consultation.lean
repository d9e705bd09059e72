import Mathlib
import InlineExpect.Proofs.Environment.Memo

/-!
# Consulting an installer

The making of an environment does nothing to the world but ask an installer.  As a consultation it
is a tree: it has come to a result, or it asks a question and goes on with the answer.  So it can be
left between any two questions, and whoever answers may answer as he likes.

The consultation that makes an environment is `EnvironmentCache.construct` itself, with an installer
that only asks.  It is conducted by another installer as that installer makes an attempt
(`EnvironmentCache.conduct_construction`), and whatever the answers are, the calls that lead to its
end are those of an `Attempt`.
-/

namespace InlineExpect

/-- A question to an installer. -/
inductive InstallerQuestion where
  | isInstalled (v : Version)
  | install (v : Version)
  | load (v : Version)
deriving DecidableEq, Repr

namespace InstallerQuestion

/-- What a question is answered with. -/
@[reducible] def Answer : InstallerQuestion → Type
  | isInstalled _ => Except InstallFault Bool
  | install _ => Except InstallFault Unit
  | load _ => Except InstallFault EngineFactory

/-- The call of an installer by a question that it has answered. -/
def call : (q : InstallerQuestion) → q.Answer → InstallerCall
  | isInstalled v, answer => .isInstalled v answer
  | install v, answer => .install v answer
  | load v, answer => .load v answer

end InstallerQuestion

/-- The version that a call is about. -/
def InstallerCall.version : InstallerCall → Version
  | isInstalled v _ => v
  | install v _ => v
  | load v _ => v

/-- The calls of an attempt are about its version. -/
lemma Attempt.version_eq {v : Version} {calls : List InstallerCall}
    {made : Except InstallFault (Bool × EngineFactory)} (h : Attempt v calls made) :
    ∀ call ∈ calls, call.version = v := by
  intro call hcall
  cases h <;> simp only [List.mem_cons, List.not_mem_nil, or_false] at hcall <;>
    rcases hcall with rfl | rfl | rfl <;> rfl

/-- A computation that has come to a result, or asks an installer and goes on with the answer. -/
inductive Consultation (α : Type) where
  | result (a : α)
  | ask (q : InstallerQuestion) (next : q.Answer → Consultation α)

namespace Consultation

variable {α β : Type}

/-- A consultation that is gone on with once it has come to a result. -/
def bind (f : α → Consultation β) : Consultation α → Consultation β
  | result a => f a
  | ask q next => ask q fun answer => bind f (next answer)

instance : Monad Consultation where
  pure := result
  bind x f := x.bind f

/-- A consultation comes to a result when its questions are answered as some calls of an installer
say. -/
inductive Ends : Consultation α → List InstallerCall → α → Prop
  | result (a : α) : Ends (.result a) [] a
  | ask {q : InstallerQuestion} {next : q.Answer → Consultation α} {answer : q.Answer}
    {calls : List InstallerCall} {a : α} (h : Ends (next answer) calls a) :
    Ends (.ask q next) (q.call answer :: calls) a

/-- A consultation comes to a result if all questions break off. -/
lemma exists_ends (x : Consultation α) : ∃ calls a, x.Ends calls a := by
  induction x with
  | result a => exact ⟨[], a, .result a⟩
  | ask q next ih =>
    have hcrash : Nonempty q.Answer := by cases q <;> exact ⟨.error .crashed⟩
    obtain ⟨answer⟩ := hcrash
    obtain ⟨calls, a, h⟩ := ih answer
    exact ⟨_, a, .ask h⟩

end Consultation

namespace Installer

/-- Asks a question. -/
def answer {m : Type → Type} (i : Installer m) : (q : InstallerQuestion) → m q.Answer
  | .isInstalled v => i.isInstalled v
  | .install v => i.install v
  | .load v => i.load v

/-- An installer that only asks. -/
def asking : Installer Consultation where
  isInstalled v := .ask (.isInstalled v) .result
  install v := .ask (.install v) .result
  load v := .ask (.load v) .result

end Installer

namespace Consultation

variable {W α : Type}

/-- Conducts a consultation to its end. -/
def conduct (i : Installer (StateM W)) : Consultation α → StateM W α
  | result a => pure a
  | ask q next => do conduct i (next (← i.answer q))

/-- A consultation goes on with the answer of the installer, in the world after it. -/
lemma run_conduct_ask (i : Installer (StateM W)) (q : InstallerQuestion)
    (next : q.Answer → Consultation α) (w : W) :
    ((ask q next).conduct i).run w =
      ((next ((i.answer q).run w).1).conduct i).run ((i.answer q).run w).2 := rfl

end Consultation

namespace EnvironmentCache

/-- The making of an environment as a consultation. -/
def construction (v : Version) : Consultation (Except InstallFault (Bool × EngineFactory)) :=
  (construct Installer.asking v).run

/-- A version is loaded after all other questions. -/
lemma construction_load (v : Version) (installedHere : Bool) :
    ((do return (installedHere, ← ExceptT.mk (Installer.asking.load v)) :
      ExceptT InstallFault Consultation (Bool × EngineFactory))).run =
      .ask (.load v) fun loaded => .result (loaded.map (installedHere, ·)) := by
  refine congrArg (Consultation.ask (.load v)) (funext fun loaded => ?_)
  cases loaded <;> rfl

/-- An attempt begins with the question whether the version is installed. -/
lemma construction_eq (v : Version) :
    construction v = .ask (.isInstalled v) fun
      | .error fault => .result (.error fault)
      | .ok true => .ask (.load v) fun loaded => .result (loaded.map (false, ·))
      | .ok false => .ask (.install v) fun
        | .error fault => .result (.error fault)
        | .ok () => .ask (.load v) fun loaded => .result (loaded.map (true, ·)) := by
  refine congrArg (Consultation.ask (.isInstalled v)) (funext fun installed => ?_)
  match installed with
  | .error fault => rfl
  | .ok true => exact construction_load v false
  | .ok false =>
    refine congrArg (Consultation.ask (.install v)) (funext fun answer => ?_)
    match answer with
    | .error fault => rfl
    | .ok () => exact construction_load v true

/-- The calls that lead to the end of the making of an environment are those of an attempt. -/
theorem attempt_of_ends {v : Version} {calls : List InstallerCall}
    {made : Except InstallFault (Bool × EngineFactory)} (h : (construction v).Ends calls made) :
    Attempt v calls made := by
  rw [construction_eq] at h
  cases h with
  | @ask q next installed calls a h =>
    match installed with
    | .error fault =>
      cases h
      exact .unanswered fault
    | .ok true =>
      cases h with
      | ask h =>
        cases h
        exact .installed _
    | .ok false =>
      cases h with
      | @ask q next answer calls a h =>
        match answer with
        | .error fault =>
          cases h
          exact .notInstalled fault
        | .ok () =>
          cases h with
          | ask h =>
            cases h
            exact .installedHere _

/-- An installer that conducts the making of an environment makes an attempt. -/
theorem conduct_construction {W : Type} (i : Installer (StateM W)) (v : Version) (w : W) :
    ((construction v).conduct i).run w = i.attempt v w := by
  obtain ⟨installed, w₁, hinstalled⟩ : ∃ installed w₁,
    (i.isInstalled v).run w = (installed, w₁) := ⟨_, _, rfl⟩
  have hfirst : (i.answer (.isInstalled v)).run w = (installed, w₁) := hinstalled
  rw [construction_eq, Consultation.run_conduct_ask, hfirst, Installer.attempt, hinstalled]
  rcases installed with fault | here
  · rfl
  · cases here with
    | true => rfl
    | false =>
      obtain ⟨answer, w₂, hinstall⟩ : ∃ answer w₂,
        (i.install v).run w₁ = (answer, w₂) := ⟨_, _, rfl⟩
      have hsecond : (i.answer (.install v)).run w₁ = (answer, w₂) := hinstall
      dsimp only
      rw [Consultation.run_conduct_ask, hsecond, hinstall]
      cases answer with
      | error fault => rfl
      | ok x => rfl

end EnvironmentCache

end InlineExpect
