import Foreman.Runs.Shell.Pattern
import Foreman.Runs.Shell.State

namespace Foreman.Shell

-- How the bytes of a word came there.
inductive Origin where
  -- between quotes
  | quoted
  -- as they stand in the script
  | written
  -- from a parameter
  | parameter
deriving DecidableEq

inductive Chunk where
  | text (origin : Origin) (t : Text)
  -- a new field starts
  | next

namespace Chunk

def plain (chunks : List Chunk) : Text :=
  chunks.flatMap fun chunk =>
    match chunk with
    | .text _ t => t
    | .next => " "

-- What is quoted stands for itself in a pattern.
def pattern (chunks : List Chunk) : Pattern :=
  chunks.flatMap fun chunk =>
    match chunk with
    | .text .quoted t => Pattern.literal t
    | .text _ t => Pattern.active t
    | .next => Pattern.literal " "

inductive Item where
  | byte (c : UInt8)
  -- a field, even if no byte follows
  | here
  -- fields end here; `hard` if there is one in any case
  | gap (hard : Bool)

-- Only what comes from parameters falls into fields.
def items (blanks : Text) : Chunk → List Item
  | .next => [.gap true]
  | .text .quoted t => .here :: t.map .byte
  | .text .written t => t.map .byte
  | .text .parameter t =>
    t.map fun c => if blanks.contains c then .gap (!Text.isBlank c) else .byte c

-- The fields, and the one that is begun, last byte first.
def fieldsOf : List Item → (begun : Option Text) → List Text
  | [], begun => (begun.map List.reverse).toList
  | .byte c :: rest, begun => fieldsOf rest (some (c :: begun.getD []))
  | .here :: rest, begun => fieldsOf rest (some (begun.getD []))
  | .gap true :: rest, begun => (begun.getD []).reverse :: fieldsOf rest none
  | .gap false :: rest, begun => (begun.map List.reverse).toList ++ fieldsOf rest none

def fields (blanks : Text) (chunks : List Chunk) : List Text :=
  fieldsOf (chunks.flatMap (items blanks)) none

end Chunk

mutual

def expandPart : Part → Step (List Chunk)
  | .text quoted t => pure [.text (if quoted then .quoted else .written) t]
  | .parameter quoted name use => do
    let s ← get
    let value := s.parameter? name
    let filled (emptyToo : Bool) : Bool := value.any fun t => !(emptyToo && t.isEmpty)
    let chunk (t : Text) : List Chunk := [.text (if quoted then .quoted else .parameter) t]
    match use with
    | .value =>
      if quoted && name = "@" then
        pure ((s.arguments.map (Chunk.text .quoted)).intersperse .next)
      else pure (chunk (value.getD []))
    | .length => pure (chunk (Decimal.digits (value.getD []).length))
    | .default emptyToo word =>
      if filled emptyToo then pure (chunk (value.getD [])) else expandWord word
    | .alternative emptyToo word =>
      if filled emptyToo then expandWord word else pure (chunk [])
    | .strip atEnd longest pattern => do
      let pattern := Chunk.pattern (← expandWord pattern)
      pure (chunk (pattern.strip atEnd longest (value.getD [])))
    | .bad => Step.fatal "Bad substitution"

def expandWord : List Part → Step (List Chunk)
  | [] => pure []
  | part :: parts => do
    let chunks ← expandPart part
    pure (chunks ++ (← expandWord parts))

end

def expandText (word : Word) : Step Text := do
  pure (Chunk.plain (← expandWord word))

def expandPattern (word : Word) : Step Pattern := do
  pure (Chunk.pattern (← expandWord word))

def expandFields (words : List Word) : Step (List Text) := do
  let chunks ← words.mapM expandWord
  let blanks := (← get).blanks
  pure (chunks.flatMap (Chunk.fields blanks))

end Foreman.Shell
