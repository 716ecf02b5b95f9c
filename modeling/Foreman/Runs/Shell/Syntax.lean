import Foreman.Text.Basic

-- The shell that is started in test runs. Neither the model nor its theory makes use of it.

namespace Foreman.Shell

mutual

inductive Part where
  | text (quoted : Bool) (t : Text)
  | parameter (quoted : Bool) (name : Text) (use : Use)

inductive Use where
  | value
  | length
  -- another word if the parameter is unset, or also if it is empty
  | default (emptyToo : Bool) (word : List Part)
  -- another word unless the parameter is unset, or also empty
  | alternative (emptyToo : Bool) (word : List Part)
  -- the value without a part that fits a pattern
  | strip (atEnd longest : Bool) (pattern : List Part)
  -- something that is not in the language
  | bad

end

abbrev Word := List Part

inductive Redirection where
  | close (descriptor : Nat)
  | duplicate (descriptor source : Nat)
  -- to or from the device that holds nothing
  | nothing (descriptor : Nat)
deriving DecidableEq, Repr

inductive Command where
  | simple (assignments : List (Text × Word)) (words : List Word) (redirections : List Redirection)
  | sequence (first second : Command)
  -- the second one if the first one succeeds, or if it fails
  | conditional (onSuccess : Bool) (first second : Command)
  | negation (command : Command)
  -- the body as long as the condition succeeds, or as long as it fails
  | loop (whileFailing : Bool) (condition body : Command)
  | choice (condition yes : Command) (no : Option Command)
  | select (word : Word) (arms : List (List Word × Command))
  -- the body for each field of the words, or for each argument
  | each (name : Text) (words : Option (List Word)) (body : Command)
  -- With redirections of its own. Inside parentheses nothing that is changed lasts.
  | group (inside : Bool) (command : Command) (redirections : List Redirection)

namespace Command

def skip : Command := .simple [] [] []

end Command

end Foreman.Shell
