import Foreman.System.Source
import Mathlib.Data.List.TakeWhile

namespace Foreman.Source

variable {source : Source} {line rest : Text} {asked size : Nat}

theorem grant_le (source : Source) (asked : Nat) : source.grant asked ≤ asked := by
  unfold grant
  split
  · exact Nat.le_refl asked
  · exact Nat.min_le_left _ _

theorem grant_pos (source : Source) (hasked : asked ≠ 0) : 0 < source.grant asked := by
  unfold grant
  split <;> omega

theorem length_take_le (source : Source) (asked : Nat) : (source.take asked).1.length ≤ asked := by
  unfold take
  split
  · exact Nat.zero_le asked
  · exact Nat.le_trans (List.length_take_le _ _) (source.grant_le asked)

theorem take_eq_nil_iff : (source.take asked).1 = [] ↔ asked = 0 ∨ source.rest = [] := by
  unfold take
  by_cases hasked : asked = 0
  · simp [hasked]
  · have hpos := source.grant_pos hasked
    have hne : source.grant asked ≠ 0 := by omega
    simp [hasked, hne]

theorem take_one (c : UInt8) (rest : Text) (grants : List Nat) :
    (⟨c :: rest, grants⟩ : Source).take 1 = ([c], ⟨rest, grants.tail⟩) := by
  have hgrant : (⟨c :: rest, grants⟩ : Source).grant 1 = 1 := by
    have hle := (⟨c :: rest, grants⟩ : Source).grant_le 1
    have hpos := (⟨c :: rest, grants⟩ : Source).grant_pos Nat.one_ne_zero
    omega
  rw [take, if_neg Nat.one_ne_zero, hgrant]
  rfl

theorem take_one_end (grants : List Nat) :
    (⟨[], grants⟩ : Source).take 1 = ([], ⟨[], grants.tail⟩) := by
  simp [take]

-- The recursion is that of reading: the first call moves a chunk, the others what follows it.
theorem read_append (source : Source) (size : Nat) :
    (source.read size).1 ++ (source.read size).2.rest = source.rest := by
  fun_induction source.read size with
  | case1 source size hdone => exact source.take_append size
  | case2 source size hmore chunk more after hread ih =>
    rw [hread] at ih
    rw [List.append_assoc, ih]
    exact source.take_append size

-- Each chunk is taken off what is asked for, so that a short one does not end the reading.
theorem length_read (source : Source) (size : Nat) :
    (source.read size).1.length = min size source.rest.length := by
  fun_induction source.read size with
  | case1 source size hdone =>
    rw [hdone]
    rcases take_eq_nil_iff.mp hdone with rfl | hrest
    · simp
    · simp [hrest]
  | case2 source size hmore chunk more after hread ih =>
    simp only [hread] at ih
    have hle : chunk.length ≤ size := source.length_take_le size
    have hrest : chunk.length + (source.take size).2.rest.length = source.rest.length := by
      rw [← source.take_append size, List.length_append]
    rw [List.length_append]
    omega

-- There is always room for what a call asks for: when it is used up, it is doubled. So a call that
-- moves nothing has come to the end.
theorem readRest_eq (source : Source) {room count : Nat} (hroom : count < room) :
    (source.readRest room count).1 = source.rest ∧ (source.readRest room count).2.rest = [] := by
  fun_induction source.readRest room count with
  | case1 source room count asked hdone =>
    have hasked : asked ≠ 0 := by omega
    have hend : source.rest = [] := (take_eq_nil_iff.mp hdone).resolve_left hasked
    have happend := source.take_append asked
    rw [hdone, List.nil_append, hend] at happend
    exact ⟨hdone.trans hend.symm, happend⟩
  | case2 source room count asked hmore chunk count' room' more after hread ih =>
    have hasked : asked = room - count := by omega
    have hchunk : chunk.length ≤ room - count := hasked ▸ source.length_take_le asked
    have hroom' : count' < room' := by
      change count + chunk.length < if count + chunk.length < room then room else 2 * room
      split <;> omega
    rw [hread] at ih
    obtain ⟨rfl, hend⟩ := ih hroom'
    exact ⟨source.take_append asked, hend⟩

theorem readAll_eq (source : Source) : source.readAll.1 = source.rest ∧ source.readAll.2.rest = [] :=
  source.readRest_eq (by decide)

theorem readLineAfter_cons {c : UInt8} (hc : c ≠ '\n') (rest : Text) (grants : List Nat)
    (read : Text) :
    readLineAfter ⟨c :: rest, grants⟩ read = readLineAfter ⟨rest, grants.tail⟩ (c :: read) := by
  rw [readLineAfter]
  simp [take_one, hc]

-- The induction is on what is left of the line. What was read of it is in reverse order. Each byte
-- takes a call, and so does the end of the line.
theorem readLineAfter_of_line (hline : ('\n' : UInt8) ∉ line) (rest : Text) (grants : List Nat)
    (read : Text) :
    readLineAfter ⟨line ++ ('\n' : UInt8) :: rest, grants⟩ read =
      (some (read.reverse ++ line), ⟨rest, grants.drop (line.length + 1)⟩) := by
  induction line generalizing grants read with
  | nil =>
    unfold readLineAfter
    simp [take_one]
  | cons c line ih =>
    obtain ⟨hc, hline⟩ := List.ne_and_not_mem_of_not_mem_cons hline
    rw [List.cons_append, readLineAfter_cons (Ne.symm hc), ih hline]
    simp

theorem readLineAfter_of_end (hline : ('\n' : UInt8) ∉ line) (grants : List Nat) (read : Text) :
    readLineAfter ⟨line, grants⟩ read =
      (if read = [] ∧ line = [] then none else some (read.reverse ++ line),
        ⟨[], grants.drop (line.length + 1)⟩) := by
  induction line generalizing grants read with
  | nil =>
    unfold readLineAfter
    simp [take_one_end]
  | cons c line ih =>
    obtain ⟨hc, hline⟩ := List.ne_and_not_mem_of_not_mem_cons hline
    rw [readLineAfter_cons (Ne.symm hc), ih hline]
    simp

theorem readLine_of_line (hline : ('\n' : UInt8) ∉ line) (rest : Text) (grants : List Nat) :
    readLine ⟨line ++ ('\n' : UInt8) :: rest, grants⟩ =
      (some line, ⟨rest, grants.drop (line.length + 1)⟩) :=
  readLineAfter_of_line hline rest grants []

theorem readLine_of_end (hline : ('\n' : UInt8) ∉ line) (grants : List Nat) :
    readLine ⟨line, grants⟩ =
      (if line = [] then none else some line, ⟨[], grants.drop (line.length + 1)⟩) := by
  rw [readLine, readLineAfter_of_end hline]
  simp

inductive Call where
  | line
  | bytes (size : Nat)
  | all
deriving DecidableEq

-- What a call returns, and what it leaves. There may be no line.
def answer (source : Source) : Call → Option Text × Source
  | .line => source.readLine
  | .bytes size => (some (source.read size).1, (source.read size).2)
  | .all => (some source.readAll.1, source.readAll.2)

def ending (source : Source) : Call → Text
  | .line => if ('\n' : UInt8) ∈ source.rest then "\n" else []
  | .bytes _ => []
  | .all => []

def after (source : Source) (calls : List Call) : Source :=
  calls.foldl (fun source call => (source.answer call).2) source

-- All that a row of calls returns, one after the other, with the line feeds of the lines.
def returned (source : Source) : List Call → Text
  | [] => []
  | call :: calls =>
    (source.answer call).1.getD [] ++ source.ending call ++ (source.answer call).2.returned calls

theorem readLine_cases (source : Source) :
    (∃ line rest, source.rest = line ++ ('\n' : UInt8) :: rest ∧ ('\n' : UInt8) ∉ line ∧
      source.readLine.1 = some line ∧ source.readLine.2.rest = rest) ∨
    (('\n' : UInt8) ∉ source.rest ∧
      source.readLine.1 = (if source.rest = [] then none else some source.rest) ∧
      source.readLine.2.rest = []) := by
  obtain ⟨content, grants⟩ := source
  by_cases hmem : ('\n' : UInt8) ∈ content
  · obtain ⟨line, rest, rfl, hline⟩ := List.eq_append_cons_of_mem hmem
    refine .inl ⟨line, rest, rfl, hline, ?_⟩
    rw [readLine_of_line hline]
    exact ⟨rfl, rfl⟩
  · refine .inr ⟨hmem, ?_⟩
    rw [readLine_of_end hmem]
    exact ⟨rfl, rfl⟩

theorem readLine_eq_none_iff : source.readLine.1 = none ↔ source.rest = [] := by
  rcases source.readLine_cases with ⟨line, rest, hrest, -, hline, -⟩ | ⟨-, hline, -⟩
  · simp [hline, hrest]
  · simp [hline]

theorem readLine_eq_takeWhile (h : source.readLine.1 = some line) :
    line = source.rest.takeWhile fun c => c ≠ ('\n' : UInt8) := by
  have hne : ∀ {t : Text}, ('\n' : UInt8) ∉ t → ∀ c ∈ t, decide (c ≠ ('\n' : UInt8)) = true := by
    intro t ht c hc
    exact decide_eq_true fun heq => ht (heq ▸ hc)
  rcases source.readLine_cases with ⟨line', rest, hrest, hmem, hline, -⟩ | ⟨hmem, hline, -⟩
  · obtain rfl : line' = line := Option.some.inj (hline.symm.trans h)
    rw [hrest, List.takeWhile_append_of_pos (hne hmem), List.takeWhile_cons_of_neg (by simp),
      List.append_nil]
  · rw [hline] at h
    split at h <;> cases h
    exact (List.takeWhile_eq_self_iff.mpr (hne hmem)).symm

theorem answer_append (source : Source) (call : Call) :
    (source.answer call).1.getD [] ++ source.ending call ++ (source.answer call).2.rest =
      source.rest := by
  cases call with
  | line =>
    rcases source.readLine_cases with ⟨line, rest, hrest, -, hline, hafter⟩ | ⟨hmem, hline, hafter⟩
    · have hmem : ('\n' : UInt8) ∈ source.rest := by simp [hrest]
      rw [answer, ending, if_pos hmem, hline, hafter, hrest, List.append_assoc]
      rfl
    · rw [answer, ending, if_neg hmem, hline, hafter]
      split <;> simp [*]
  | bytes size =>
    rw [ending, List.append_nil]
    exact source.read_append size
  | all =>
    obtain ⟨hall, hend⟩ := source.readAll_eq
    rw [answer, ending, hend, List.append_nil, List.append_nil]
    exact hall

-- And so does a row of calls, by induction on it.
theorem returned_append (source : Source) (calls : List Call) :
    source.returned calls ++ (source.after calls).rest = source.rest := by
  induction calls generalizing source with
  | nil => rfl
  | cons call calls ih =>
    rw [returned, List.append_assoc]
    exact (congrArg _ (ih (source.answer call).2)).trans (source.answer_append call)

-- Whatever was called for before, and however the bytes arrive, what was returned and what is left
-- are the file. The next call for some bytes returns as many as are asked for, if they are left, one
-- for all bytes returns those that are left, and one for a line returns none exactly if no byte is
-- left, and else all that stands in front of the first line feed.
theorem reading_in_every_run (source : Source) (calls : List Call) :
    source.returned calls ++ (source.after calls).rest = source.rest ∧
    (∀ size,
      ((source.after calls).read size).1.length = min size (source.after calls).rest.length) ∧
    (source.after calls).readAll.1 = (source.after calls).rest ∧
    ((source.after calls).readLine.1 = none ↔ (source.after calls).rest = []) ∧
    ∀ line, (source.after calls).readLine.1 = some line →
      line = (source.after calls).rest.takeWhile fun c => c ≠ ('\n' : UInt8) :=
  ⟨source.returned_append calls, (source.after calls).length_read,
    (source.after calls).readAll_eq.1, readLine_eq_none_iff, fun _ => readLine_eq_takeWhile⟩

end Foreman.Source
