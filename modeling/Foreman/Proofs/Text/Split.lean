import Foreman.Text.Basic

namespace Foreman.Text

variable {sep : UInt8} {t : Text} {pieces : List Text} {pos stop : Nat}

theorem split_eq_splitOn (sep : UInt8) (t : Text) : split sep t = t.splitOn sep := by
  induction t with
  | nil => rfl
  | cons c rest ih =>
    rw [List.splitOn_cons_eq_if_modifyHead, ← ih, split]
    by_cases hsep : c = sep
    · rw [if_pos hsep, if_pos (beq_iff_eq.mpr hsep)]
    · rw [if_neg hsep, if_neg (mt beq_iff_eq.mp hsep)]
      have hne : split sep rest ≠ [] := ih ▸ List.splitOn_ne_nil sep rest
      cases hsplit : split sep rest with
      | nil => exact absurd hsplit hne
      | cons piece pieces => rfl

theorem split_ne_nil (sep : UInt8) (t : Text) : split sep t ≠ [] := by
  rw [split_eq_splitOn]
  exact List.splitOn_ne_nil sep t

theorem join_eq_intercalate (sep : UInt8) (pieces : List Text) :
    join sep pieces = [sep].intercalate pieces := by
  induction pieces with
  | nil => exact List.intercalate_nil.symm
  | cons piece rest ih =>
    cases rest with
    | nil => exact List.intercalate_singleton.symm
    | cons next rest =>
      rw [List.intercalate_cons_cons, ← ih, join, List.append_assoc, List.singleton_append]

theorem join_split (sep : UInt8) (t : Text) : join sep (split sep t) = t := by
  rw [split_eq_splitOn, join_eq_intercalate, List.intercalate_splitOn]

theorem split_append_cons (sep : UInt8) (front back : Text) :
    split sep (front ++ sep :: back) = split sep front ++ split sep back := by
  simp only [split_eq_splitOn, List.splitOn_append_cons_self]

theorem split_of_not_mem (h : sep ∉ t) : split sep t = [t] := by
  rw [split_eq_splitOn, List.splitOn_eq_singleton h]

def stop? (sep : UInt8) (t : Text) (pos : Nat) : Option Nat :=
  ((t.drop pos).idxOf? sep).map (pos + ·)

theorem stop?_eq_none_iff : stop? sep t pos = none ↔ sep ∉ t.drop pos := by
  rw [stop?, Option.map_eq_none_iff, List.idxOf?_eq_none_iff]

theorem bounds_of_stop? (h : stop? sep t pos = some stop) : pos ≤ stop ∧ stop < t.length := by
  obtain ⟨len, hlen, rfl⟩ := Option.map_eq_some_iff.mp h
  obtain ⟨hlt, -⟩ := List.idxOf?_eq_some_iff.mp hlen
  rw [List.length_drop] at hlt
  omega

theorem drop_of_stop? (h : stop? sep t pos = some stop) :
    t.drop pos = t.extract pos stop ++ sep :: t.drop (stop + 1) ∧ sep ∉ t.extract pos stop := by
  obtain ⟨len, hlen, rfl⟩ := Option.map_eq_some_iff.mp h
  obtain ⟨hlt, hsep, hbefore⟩ := List.idxOf?_eq_some_iff.mp hlen
  have hpiece : t.extract pos (pos + len) = (t.drop pos).take len := by
    rw [List.extract_eq_take_drop, Nat.add_sub_cancel_left]
  have hbehind : t.drop (pos + len + 1) = (t.drop pos).drop (len + 1) := by
    rw [List.drop_drop, Nat.add_assoc]
  rw [hpiece, hbehind]
  constructor
  · calc t.drop pos
      _ = (t.drop pos).take len ++ (t.drop pos).drop len := (List.take_append_drop len _).symm
      _ = (t.drop pos).take len ++ sep :: (t.drop pos).drop (len + 1) := by
        rw [List.drop_eq_getElem_cons hlt, hsep]
  · intro hmem
    obtain ⟨i, hi, hat⟩ := List.mem_take_iff_getElem.mp hmem
    exact hbefore i (Nat.lt_of_lt_of_le hi (Nat.min_le_left _ _)) hat

-- The pieces from a position on, found by one search after the other. Each search starts behind
-- the separator that the one before has found, and the last one finds none.
def piecesFrom (sep : UInt8) (t : Text) (pos : Nat) : List Text :=
  match h : stop? sep t pos with
  | none => [t.drop pos]
  | some stop => t.extract pos stop :: piecesFrom sep t (stop + 1)
termination_by t.length - pos
decreasing_by
  have := bounds_of_stop? h
  omega

theorem piecesFrom_eq_split (sep : UInt8) (t : Text) (pos : Nat) :
    piecesFrom sep t pos = split sep (t.drop pos) := by
  fun_induction piecesFrom sep t pos with
  | case1 pos hlast => rw [split_of_not_mem (stop?_eq_none_iff.mp hlast)]
  | case2 pos stop hnext ih =>
    obtain ⟨hdrop, hpiece⟩ := drop_of_stop? hnext
    rw [hdrop, split_append_cons, split_of_not_mem hpiece, ih]
    rfl

theorem split_eq_piecesFrom (sep : UInt8) (t : Text) : split sep t = piecesFrom sep t 0 := by
  rw [piecesFrom_eq_split, List.drop_zero]

-- No search passes over a separator.
theorem not_mem_of_mem_piecesFrom (sep : UInt8) (t : Text) (pos : Nat) :
    ∀ piece ∈ piecesFrom sep t pos, sep ∉ piece := by
  fun_induction piecesFrom sep t pos with
  | case1 pos hlast => exact List.forall_mem_singleton.mpr (stop?_eq_none_iff.mp hlast)
  | case2 pos stop hnext ih => exact List.forall_mem_cons.mpr ⟨(drop_of_stop? hnext).2, ih⟩

theorem not_mem_of_mem_split {piece : Text} (h : piece ∈ split sep t) : sep ∉ piece := by
  rw [split_eq_piecesFrom] at h
  exact not_mem_of_mem_piecesFrom sep t 0 piece h

theorem split_join_eq_flatMap (hne : pieces ≠ []) :
    split sep (join sep pieces) = pieces.flatMap (split sep) := by
  induction pieces with
  | nil => exact absurd rfl hne
  | cons piece rest ih =>
    cases rest with
    | nil => rw [join, List.flatMap_singleton]
    | cons next rest =>
      rw [join, split_append_cons, ih (List.cons_ne_nil next rest), ← List.flatMap_cons]

theorem split_join (hne : pieces ≠ []) (h : ∀ piece ∈ pieces, sep ∉ piece) :
    split sep (join sep pieces) = pieces := by
  rw [split_eq_splitOn, join_eq_intercalate, List.splitOn_intercalate sep h hne]

theorem split_join_eq_iff (hne : pieces ≠ []) :
    split sep (join sep pieces) = pieces ↔ ∀ piece ∈ pieces, sep ∉ piece :=
  ⟨fun h _ hpiece => not_mem_of_mem_split (h ▸ hpiece), split_join hne⟩

-- The pieces of a text, found from one separator to the next, do not hold the separator and give
-- the text when they are joined. No other list with a piece in it does both, so that pieces which
-- do not hold the separator come back from the text that they are joined to.
theorem pieces_of_texts (sep : UInt8) :
    (∀ t : Text, split sep t = piecesFrom sep t 0 ∧ split sep t ≠ [] ∧
      (∀ piece ∈ split sep t, sep ∉ piece) ∧ join sep (split sep t) = t ∧
      ∀ pieces : List Text, pieces ≠ [] → (∀ piece ∈ pieces, sep ∉ piece) →
        join sep pieces = t → pieces = split sep t) ∧
    ∀ pieces : List Text, pieces ≠ [] → (∀ piece ∈ pieces, sep ∉ piece) →
      split sep (join sep pieces) = pieces := by
  refine ⟨fun t => ⟨split_eq_piecesFrom sep t, split_ne_nil sep t,
    fun _ hpiece => not_mem_of_mem_split hpiece, join_split sep t, ?_⟩,
    fun pieces hne hfree => split_join hne hfree⟩
  rintro pieces hne hfree rfl
  exact (split_join hne hfree).symm

-- A separator at the start, one at the end and two in a row have empty pieces beside them.
theorem pieces_of_text_with_gaps :
    let pieces : List Text := ["", "usr", "", "bin", ""]
    pieces ≠ [] ∧ (∀ piece ∈ pieces, ('/' : UInt8) ∉ piece) ∧ join '/' pieces = "/usr//bin/" ∧
      pieces = split '/' "/usr//bin/" ∧ split '/' (join '/' pieces) = pieces := by
  intro pieces
  have hne : pieces ≠ [] := List.cons_ne_nil _ _
  have hfree : ∀ piece ∈ pieces, ('/' : UInt8) ∉ piece := by decide
  have hjoin : join '/' pieces = "/usr//bin/" := by decide
  obtain ⟨htexts, hpieces⟩ := pieces_of_texts '/'
  obtain ⟨-, -, -, -, honly⟩ := htexts "/usr//bin/"
  exact ⟨hne, hfree, hjoin, honly pieces hne hfree hjoin, hpieces pieces hne hfree⟩

-- The empty text is one piece, and not none.
example : split ':' "" = ([""] : List Text) := rfl

end Foreman.Text
