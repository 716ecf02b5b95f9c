import Foreman.Failure
import Foreman.Session.Event

namespace Foreman

-- What an operation leaves behind.
structure Outcome (σ α : Type) where
  result : Except Failure α
  state : σ
  events : List Event

-- An operation on states of type `σ` with a result of type `α`.
def Act (σ α : Type) : Type := σ → Outcome σ α

namespace Act

variable {σ τ α β : Type}

def run (act : Act σ α) (s : σ) : Outcome σ α := act s

protected def pure (a : α) : Act σ α := fun s => ⟨.ok a, s, []⟩

protected def bind (act : Act σ α) (next : α → Act σ β) : Act σ β := fun s =>
  match act s with
  | ⟨.error e, s, events⟩ => ⟨.error e, s, events⟩
  | ⟨.ok a, s, events⟩ =>
    let after := next a s
    { after with events := events ++ after.events }

instance : Monad (Act σ) where
  pure := Act.pure
  bind := Act.bind

def fail (e : Failure) : Act σ α := fun s => ⟨.error e, s, []⟩

def get : Act σ σ := fun s => ⟨.ok s, s, []⟩

def modify (f : σ → σ) : Act σ Unit := fun s => ⟨.ok (), f s, []⟩

def tell (events : List Event) : Act σ Unit := fun s => ⟨.ok (), s, events⟩

def note (words : List Text) : Act σ Unit := tell [.noted words]

def report (level : LogLevel) (message : Text) : Act σ Unit := tell [.reported level message]

-- The operation inside a scope, which ends however the operation ends.
def within (channel : Channel) (tag : Text) (words : List Text) (act : Act σ α) : Act σ α :=
  fun s =>
  let after := act s
  { after with events := .opened channel tag (some words) :: after.events ++ [.closed] }

-- Another operation if this one fails, from the state that the failure left.
def orElse (act : Act σ α) (handler : Failure → Act σ α) : Act σ α := fun s =>
  match act s with
  | ⟨.ok a, s, events⟩ => ⟨.ok a, s, events⟩
  | ⟨.error e, s, events⟩ =>
    let after := handler e s
    { after with events := events ++ after.events }

def ofExcept (value : Except Failure α) : Act σ α := fun s => ⟨value, s, []⟩

def on (part : σ → τ) (update : σ → τ → σ) (act : Act τ α) : Act σ α := fun s =>
  let after := act (part s)
  ⟨after.result, update s after.state, after.events⟩

-- The operation on a state of its own, which is given up afterwards.
def nested (start : τ) (act : Act τ α) : Act σ (α × τ) := fun s =>
  let after := act start
  ⟨after.result.map (·, after.state), s, after.events⟩

end Act

end Foreman
