import Foreman.Session.Basic

namespace Foreman

-- A named check, which uses the model as others would and fails if something is not as expected.
-- Checks are run, and nothing is proved by them.
structure Check where
  name : Text
  body : Act Unit Unit

-- Checks that belong together. What is needed by all of them is set up first.
structure Suite where
  setUp : Act Unit Unit := pure ()
  checks : List Check

namespace Check

variable {σ τ α : Type}

def expect (holds : Bool) : Act σ Unit := do
  if !holds then Act.fail (.plain "assertion violation")

def expectFailure (kind : FailureKind) (act : Act σ α) : Act σ Text := fun s =>
  let after := act s
  match after.result with
  | .error (.ofKind found message) =>
    { after with result := if found = kind then .ok message else .error (.ofKind found message) }
  | .error e => { after with result := .error e }
  | .ok _ => { after with result := .error (.plain "no error raised") }

def expectPlain (act : Act σ α) : Act σ Text := fun s =>
  let after := act s
  match after.result with
  | .error (.plain message) => { after with result := .ok message }
  | .error e => { after with result := .error e }
  | .ok _ => { after with result := .error (.plain "no error raised") }

-- An operation, and what a session at the level shows of it.
def showing (level : LogLevel) (act : Act σ α) : Act σ (α × Text) := fun s =>
  let after := act s
  let session := { Session.start ⟨1⟩ (fun _ => false) with level }
  { after with result := after.result.map (·, (session.receiveAll after.events).2) }

def shown (level : LogLevel) (act : Act σ α) : Act σ Text := do
  pure (← showing level act).2

def having (start : τ) (body : Act τ Unit) : Act σ Unit := do
  let _ ← Act.nested start body

def occurs (part : Text) : Text → Bool
  | [] => part.isEmpty
  | c :: rest => part.isPrefixOf (c :: rest) || occurs part rest

end Check

namespace Suite

-- Runs the checks. The names of those that were begun are collected.
def run (suite : Suite) : Act (List Text) Unit := do
  let apart (act : Act Unit Unit) : Act (List Text) Unit :=
    Act.on (fun _ => ()) (fun names _ => names) act
  apart suite.setUp
  suite.checks.forM fun check => do
    Act.modify (· ++ [check.name])
    apart check.body

end Suite

end Foreman
