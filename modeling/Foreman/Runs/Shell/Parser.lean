import Foreman.Number.Decimal
import Foreman.Runs.Shell.Syntax

namespace Foreman.Shell.Parser

-- Where a piece of a word stands.
inductive Context where
  | bare
  | quotes
  | braces (quoted : Bool)
deriving DecidableEq

def blankBytes : Text := " \t"

def wordEnds : Text := " \t\n;&|<>()"

namespace Context

def quoted : Context → Bool
  | bare => false
  | quotes => true
  | braces quoted => quoted

def ends (context : Context) (c : UInt8) : Bool :=
  match context with
  | bare => wordEnds.contains c
  | quotes => c == 34
  | braces _ => c == '\x7d'

end Context

def marks : Text := [92, 39, 34, '$', 96]

-- What a backslash between double quotes protects.
def protectedInQuotes : Text := [92, 34, '$', 96, 10]

def isNameStart (c : UInt8) : Bool :=
  Text.isLetter c || c == '_'

def isNameByte (c : UInt8) : Bool :=
  isNameStart c || Text.isDigit c

-- Parameters with a name of one byte that is no letter.
def specialNames : Text := "@*#?$!-"

-- The name of a parameter. Several digits are one name only between braces.
def parameterName (inBraces : Bool) (t : Text) : Option (Text × Text) :=
  match t with
  | [] => none
  | c :: rest =>
    if isNameStart c then some (t.takeWhile isNameByte, t.dropWhile isNameByte)
    else if Text.isDigit c then
      if inBraces then some (t.takeWhile Text.isDigit, t.dropWhile Text.isDigit)
      else some ([c], rest)
    else if specialNames.contains c then some ([c], rest)
    else none

def expect (c : UInt8) (t : Text) : Option Text :=
  match t with
  | [] => none
  | d :: rest => if d = c then some rest else none

-- What follows a parameter between braces, up to the word that belongs to it.
inductive Operator where
  | default (emptyToo : Bool)
  | alternative (emptyToo : Bool)
  | strip (atEnd longest : Bool)

def operator (t : Text) : Option (Operator × Text) :=
  let emptyToo : Bool := t.head? = some ':'
  let after := if emptyToo then t.tail else t
  match after with
  | [] => none
  | c :: rest =>
    if c = '-' then some (.default emptyToo, rest)
    else if c = '+' then some (.alternative emptyToo, rest)
    else if !emptyToo && (c == '#' || c == '%') then
      let longest : Bool := rest.head? = some c
      some (.strip (c == '%') longest, if longest then rest.tail else rest)
    else none

-- Blanks and a comment, and line ends as well if `lines` says so. A line end behind a backslash is
-- no line end.
def blanks (lines comment : Bool) : Text → Text
  | [] => []
  | c :: rest =>
    if c = '\n' then if lines then blanks lines false rest else c :: rest
    else if comment || blankBytes.contains c then blanks lines comment rest
    else if c = '#' then blanks lines true rest
    else if c = 92 then
      match rest with
      | [] => [c]
      | d :: rest => if d = '\n' then blanks lines false rest else c :: d :: rest
    else c :: rest

def keyword (word t : Text) : Option Text :=
  if word.isPrefixOf t && ((t.drop word.length).head?.all wordEnds.contains) then
    some (t.drop word.length)
  else none

def closers : List Text :=
  ["then", "do", "done", "else", "elif", "fi", "esac", "\x7d"]

def endsList (t : Text) : Bool :=
  t.isEmpty || t.head? = some ')' || (";;" : Text).isPrefixOf t ||
    closers.any fun word => (keyword word t).isSome

mutual

-- The pieces of a word, up to what ends it.
def pieces : (fuel : Nat) → Context → Text → Option (Word × Text)
  | 0, _, _ => none
  | _, context, [] => if context = .bare then some ([], []) else none
  | fuel + 1, context, c :: rest =>
    if context.ends c then some ([], c :: rest)
    else do
      let (word, rest) ← piece fuel context c rest
      let (more, rest) ← pieces fuel context rest
      pure (word ++ more, rest)

def piece : (fuel : Nat) → Context → UInt8 → Text → Option (Word × Text)
  | 0, _, _, _ => none
  | fuel + 1, context, c, rest =>
    if c = 92 then
      match rest with
      | [] => some ([.text true [c]], [])
      | d :: rest =>
        if d = '\n' then some ([], rest)
        else if context.quoted && !protectedInQuotes.contains d then
          some ([.text true [c, d]], rest)
        else some ([.text true [d]], rest)
    else if c = 39 && !context.quoted then do
      let after ← expect 39 (rest.dropWhile fun d => d != 39)
      pure ([.text true (rest.takeWhile fun d => d != 39)], after)
    else if c = 34 then do
      let (word, rest) ← pieces fuel .quotes rest
      let rest ← expect 34 rest
      pure (if word.isEmpty then [.text true []] else word, rest)
    else if c = 96 then none
    else if c = '$' then parameter fuel context.quoted rest
    else
      let plain (d : UInt8) : Bool := !marks.contains d && !context.ends d
      some ([.text context.quoted (c :: rest.takeWhile plain)], rest.dropWhile plain)

def parameter : (fuel : Nat) → (quoted : Bool) → Text → Option (Word × Text)
  | 0, _, _ => none
  | fuel + 1, quoted, t =>
    match expect '\x7b' t with
    | some inside => bracedParameter fuel quoted inside
    | none =>
      match parameterName false t with
      | some (name, rest) => some ([.parameter quoted name .value], rest)
      | none => if t.head? = some '(' then none else some ([.text quoted "$"], t)

def bracedParameter : (fuel : Nat) → (quoted : Bool) → Text → Option (Word × Text)
  | 0, _, _ => none
  | fuel + 1, quoted, t =>
    let counted : Option (Text × Text) := do
      let (name, rest) ← parameterName true (← expect '#' t)
      pure (name, ← expect '\x7d' rest)
    match counted with
    | some (name, rest) => some ([.parameter quoted name .length], rest)
    | none =>
      match parameterName true t with
      | none => do
        let (_, rest) ← pieces fuel (.braces false) t
        pure ([.parameter quoted [] .bad], ← expect '\x7d' rest)
      | some (name, rest) =>
        match expect '\x7d' rest, operator rest with
        | some rest, _ => some ([.parameter quoted name .value], rest)
        | none, none => do
          let (_, rest) ← pieces fuel (.braces false) rest
          pure ([.parameter quoted name .bad], ← expect '\x7d' rest)
        | none, some (op, rest) => do
          let inside : Bool :=
            match op with
            | .strip _ _ => false
            | _ => quoted
          let (word, rest) ← pieces fuel (.braces inside) rest
          let use : Use :=
            match op with
            | .default emptyToo => .default emptyToo word
            | .alternative emptyToo => .alternative emptyToo word
            | .strip atEnd longest => .strip atEnd longest word
          pure ([.parameter quoted name use], ← expect '\x7d' rest)

end

-- A word, which is there if anything was read.
def word (fuel : Nat) (t : Text) : Option (Word × Text) := do
  let (word, rest) ← pieces fuel .bare t
  if rest.length < t.length then pure (word, rest) else none

-- The text of a word without quotes and parameters.
def plainText (word : Word) : Option Text :=
  match word with
  | [.text false t] => some t
  | _ => none

-- An assignment is a word that starts with a name and an equals sign.
def assignment (word : Word) : Option (Text × Word) :=
  match word with
  | .text false t :: more =>
    let name := t.takeWhile isNameByte
    let rest := t.dropWhile isNameByte
    if (name.head?.any isNameStart) && rest.head? = some '=' then
      some (name, if rest.tail.isEmpty then more else .text false rest.tail :: more)
    else none
  | _ => none

def nullDevice : Text := "/dev/null"

def redirection (fuel : Nat) (t : Text) : Option (Redirection × Text) := do
  let digits := t.takeWhile Text.isDigit
  let after := t.dropWhile Text.isDigit
  let c ← after.head?
  if c != '<' && c != '>' then none
  let descriptor := if digits.isEmpty then if c = '<' then 0 else 1 else Decimal.value digits
  let after := if c = '>' && after.tail.head? = some '>' then after.tail.tail else after.tail
  match expect '&' after with
  | some target =>
    let (target, rest) ← word fuel (blanks false false target)
    let target ← plainText target
    if target = "-" then pure (.close descriptor, rest)
    else if target.all Text.isDigit then pure (.duplicate descriptor (Decimal.value target), rest)
    else none
  | none =>
    let (target, rest) ← word fuel (blanks false false after)
    if (← plainText target) = nullDevice then pure (.nothing descriptor, rest) else none

def redirections : (fuel : Nat) → Text → List Redirection × Text
  | 0, t => ([], t)
  | fuel + 1, t =>
    match redirection fuel (blanks false false t) with
    | none => ([], t)
    | some (r, rest) =>
      let (more, rest) := redirections fuel rest
      (r :: more, rest)

def simple : (fuel : Nat) → List (Text × Word) → List Word → List Redirection → Text →
    Option (Command × Text)
  | 0, _, _, _, _ => none
  | fuel + 1, assignments, words, rs, t =>
    let t := blanks false false t
    match redirection fuel t with
    | some (r, rest) => simple fuel assignments words (rs ++ [r]) rest
    | none =>
      match t.head? with
      | none => some (.simple assignments words rs, t)
      | some c =>
        if c = '<' || c = '>' || c = '(' then none
        else if wordEnds.contains c then some (.simple assignments words rs, t)
        else do
          let (w, rest) ← word fuel t
          match if words.isEmpty then assignment w else none with
          | some a => simple fuel (assignments ++ [a]) words rs rest
          | none => simple fuel assignments (words ++ [w]) rs rest

def words : (fuel : Nat) → Text → Option (List Word × Text)
  | 0, _ => none
  | fuel + 1, t =>
    let t := blanks false false t
    if t.head?.all wordEnds.contains then some ([], t)
    else do
      let (w, rest) ← word fuel t
      let (more, rest) ← words fuel rest
      pure (w :: more, rest)

def alternatives : (fuel : Nat) → Text → Option (List Word × Text)
  | 0, _ => none
  | fuel + 1, t => do
    let (w, rest) ← word fuel (blanks false false t)
    let rest := blanks false false rest
    match expect '|' rest with
    | some rest =>
      let (more, rest) ← alternatives fuel rest
      pure (w :: more, rest)
    | none => pure ([w], ← expect ')' rest)

mutual

-- Commands one after the other.
def list : (fuel : Nat) → Text → Option (Command × Text)
  | 0, _ => none
  | fuel + 1, t =>
    let t := blanks true false t
    if endsList t then some (.skip, t)
    else do
      let (first, t) ← pipeline fuel t
      let (first, t) ← conditionals fuel first t
      match t with
      | [] => pure (first, t)
      | c :: rest =>
        if c = '\n' || (c = ';' && rest.head? != some ';') then
          let (second, t) ← list fuel rest
          pure (.sequence first second, t)
        else pure (first, t)

def conditionals : (fuel : Nat) → Command → Text → Option (Command × Text)
  | 0, _, _ => none
  | fuel + 1, first, t =>
    let t := blanks false false t
    let onSuccess := ("&&" : Text).isPrefixOf t
    if onSuccess || ("||" : Text).isPrefixOf t then do
      let (second, t) ← pipeline fuel (blanks true false (t.drop 2))
      conditionals fuel (.conditional onSuccess first second) t
    else if t.head? = some '&' || t.head? = some '|' then none
    else some (first, t)

def pipeline : (fuel : Nat) → Text → Option (Command × Text)
  | 0, _ => none
  | fuel + 1, t =>
    match keyword "!" t with
    | some rest => do
      let (command, rest) ← pipeline fuel (blanks false false rest)
      pure (.negation command, rest)
    | none => command fuel t

def command : (fuel : Nat) → Text → Option (Command × Text)
  | 0, _ => none
  | fuel + 1, t =>
    if let some rest := keyword "while" t then loop fuel false rest
    else if let some rest := keyword "until" t then loop fuel true rest
    else if let some rest := keyword "if" t then do
      let (c, rest) ← choice fuel rest
      pure (redirected fuel c rest)
    else if let some rest := keyword "case" t then do
      let (w, rest) ← word fuel (blanks false false rest)
      let rest ← keyword "in" (blanks true false rest)
      let (arms, rest) ← arms fuel rest
      pure (redirected fuel (.select w arms) rest)
    else if let some rest := keyword "for" t then each fuel rest
    else if let some rest := keyword "\x7b" t then do
      let (c, rest) ← list fuel rest
      let rest ← keyword "\x7d" rest
      let (rs, rest) := redirections fuel rest
      pure (.group false c rs, rest)
    else if let some rest := expect '(' t then do
      let (c, rest) ← list fuel rest
      let rest ← expect ')' rest
      let (rs, rest) := redirections fuel rest
      pure (.group true c rs, rest)
    else simple fuel [] [] [] t

def redirected (fuel : Nat) (c : Command) (t : Text) : Command × Text :=
  let (rs, rest) := redirections fuel t
  (if rs.isEmpty then c else .group false c rs, rest)

def loop : (fuel : Nat) → (whileFailing : Bool) → Text → Option (Command × Text)
  | 0, _, _ => none
  | fuel + 1, whileFailing, t => do
    let (condition, t) ← list fuel t
    let (body, t) ← list fuel (← keyword "do" t)
    let t ← keyword "done" t
    pure (redirected fuel (.loop whileFailing condition body) t)

def choice : (fuel : Nat) → Text → Option (Command × Text)
  | 0, _ => none
  | fuel + 1, t => do
    let (condition, t) ← list fuel t
    let (yes, t) ← list fuel (← keyword "then" t)
    if let some rest := keyword "elif" t then
      let (no, t) ← choice fuel rest
      pure (.choice condition yes (some no), t)
    else if let some rest := keyword "else" t then
      let (no, t) ← list fuel rest
      pure (.choice condition yes (some no), ← keyword "fi" t)
    else pure (.choice condition yes none, ← keyword "fi" t)

def arms : (fuel : Nat) → Text → Option (List (List Word × Command) × Text)
  | 0, _ => none
  | fuel + 1, t =>
    let t := blanks true false t
    match keyword "esac" t with
    | some rest => some ([], rest)
    | none => do
      let (patterns, t) ← alternatives fuel ((expect '(' t).getD t)
      let (body, t) ← list fuel t
      let (more, t) ← arms fuel (if (";;" : Text).isPrefixOf t then t.drop 2 else t)
      pure ((patterns, body) :: more, t)

def each : (fuel : Nat) → Text → Option (Command × Text)
  | 0, _ => none
  | fuel + 1, t => do
    let t := blanks false false t
    let name := t.takeWhile isNameByte
    let t := blanks true false (t.dropWhile isNameByte)
    let (ws, t) ←
      match keyword "in" t with
      | none => some (none, t)
      | some rest => (words fuel rest).map fun (ws, rest) => (some ws, rest)
    let t := blanks true false ((expect ';' (blanks false false t)).getD t)
    let (body, t) ← list fuel (← keyword "do" t)
    let t ← keyword "done" t
    pure (redirected fuel (.each name ws body) t)

end

end Parser

def Command.ofText? (t : Text) : Option Command :=
  match Parser.list (8 * t.length + 8) t with
  | some (command, []) => some command
  | _ => none

end Foreman.Shell
