import Foreman.Proofs.System.Source
import Foreman.System.Child

namespace Foreman

namespace Activity

variable {activity later : Activity} {said other : Option Text}

-- The first line of an output, as far as it is known: it is whole, or cut off by the end of the
-- output, or there is none because the output has ended without any.
inductive FirstLine (activity : Activity) : Option Text → Prop where
  | whole {line rest : Text} (hline : ('\n' : UInt8) ∉ line)
      (h : activity.output = line ++ ('\n' : UInt8) :: rest) : FirstLine activity (some line)
  | last (hsilent : activity.silent) (hline : ('\n' : UInt8) ∉ activity.output)
      (hne : activity.output ≠ []) : FirstLine activity (some activity.output)
  | nothing (hsilent : activity.silent) (h : activity.output = []) : FirstLine activity none

theorem exists_firstLine (h : activity.silent ∨ ('\n' : UInt8) ∈ activity.output) :
    ∃ said, activity.FirstLine said := by
  by_cases hmem : ('\n' : UInt8) ∈ activity.output
  · obtain ⟨line, rest, houtput, hline⟩ := List.eq_append_cons_of_mem hmem
    exact ⟨some line, .whole hline houtput⟩
  · have hsilent := h.resolve_right hmem
    by_cases hempty : activity.output = []
    · exact ⟨none, .nothing hsilent hempty⟩
    · exact ⟨some activity.output, .last hsilent hmem hempty⟩

theorem FirstLine.known (h : activity.FirstLine said) :
    activity.silent ∨ ('\n' : UInt8) ∈ activity.output := by
  cases h with
  | whole _ h => exact .inr (h ▸ List.mem_append_right _ List.mem_cons_self)
  | last hsilent _ _ => exact .inl hsilent
  | nothing hsilent _ => exact .inl hsilent

theorem FirstLine.readLine (h : activity.FirstLine said) (grants : List Nat) :
    (Source.readLine ⟨activity.output, grants⟩).1 = said := by
  cases h with
  | whole hline h => rw [h, Source.readLine_of_line hline]
  | last _ hline hne => rw [Source.readLine_of_end hline, if_neg hne]
  | nothing _ h => rw [h, Source.readLine_of_end List.not_mem_nil, if_pos rfl]

theorem FirstLine.unique (h : activity.FirstLine said) (hother : activity.FirstLine other) :
    said = other := by
  rw [← h.readLine [], hother.readLine []]

end Activity

namespace Child

variable {child after : Child} {n patience : Nat} {line : Text} {said : Option Text}

-- More time takes back nothing of what a child has written, and adds nothing to an output that has
-- ended.
structure Steady (child : Child) : Prop where
  output : ∀ m n, m ≤ n →
    (child.later m).activity.output <+: (child.later n).activity.output
  silent : ∀ m n, m ≤ n → (child.later m).activity.silent →
    (child.later n).activity.silent ∧
      (child.later n).activity.output = (child.later m).activity.output

theorem taken_spawn (parent : Parent) (spec : ChildSpec) : (spawn parent spec).taken = 0 := by
  unfold spawn
  dsimp only
  split <;> rfl

theorem later_later (child : Child) (m n : Nat) : (child.later m).later n = child.later (m + n) := by
  simp only [later, Nat.add_assoc]

theorem Steady.later (h : child.Steady) (k : Nat) : (child.later k).Steady := by
  refine ⟨fun m n hmn => ?_, fun m n hmn hsilent => ?_⟩
  · rw [later_later, later_later]
    exact h.output _ _ (Nat.add_le_add_left hmn k)
  · rw [later_later] at hsilent
    rw [later_later, later_later]
    exact h.silent _ _ (Nat.add_le_add_left hmn k) hsilent

theorem Steady.firstLine (hsteady : child.Steady) (h : child.activity.FirstLine said) (n : Nat) :
    (child.later n).activity.FirstLine said := by
  cases h with
  | @whole line rest hline h =>
    obtain ⟨more, hmore⟩ := hsteady.output 0 n n.zero_le
    refine @Activity.FirstLine.whole _ line (rest ++ more) hline ?_
    rw [← hmore]
    change child.activity.output ++ more = _
    rw [h, List.append_assoc, List.cons_append]
  | last hsilent hline hne =>
    obtain ⟨hended, houtput⟩ := hsteady.silent 0 n n.zero_le hsilent
    have hlast : (child.later n).activity.output = child.activity.output := houtput
    rw [← hlast] at hline hne ⊢
    exact .last hended hline hne
  | nothing hsilent h =>
    obtain ⟨hended, houtput⟩ := hsteady.silent 0 n n.zero_le hsilent
    exact .nothing hended (houtput.trans h)

theorem firstLine_of_read (htaken : child.taken = 0)
    (h : child.readLineWithin patience = (some line, after)) :
    ∃ n < patience, (child.later n).activity.FirstLine (some line) := by
  induction patience generalizing child with
  | zero => cases h
  | succ patience ih =>
    unfold readLineWithin at h
    simp only [htaken, List.drop_zero] at h
    split at h
    case isTrue hknown =>
      rw [Bool.or_eq_true, List.contains_iff_mem] at hknown
      obtain ⟨said, hfirst⟩ := Activity.exists_firstLine hknown
      have hsaid : said = some line := (hfirst.readLine []).symm.trans (congrArg Prod.fst h)
      exact ⟨0, Nat.succ_pos patience, hsaid ▸ hfirst⟩
    case isFalse =>
      have htaken' : (child.later 1).taken = 0 := htaken
      obtain ⟨n, hn, hfirst⟩ := ih htaken' h
      rw [later_later] at hfirst
      exact ⟨1 + n, by omega, hfirst⟩

-- A line that becomes known while it is waited for is read, at the first moment at which it is
-- known.
theorem read_of_firstLine (htaken : child.taken = 0) (hsteady : child.Steady)
    (h : (child.later n).activity.FirstLine said) (hn : n < patience) :
    ∃ m ≤ n, ∃ taken, child.readLineWithin patience = (said, { child.later m with taken }) := by
  induction patience generalizing child n with
  | zero => exact absurd hn n.not_lt_zero
  | succ patience ih =>
    unfold readLineWithin
    simp only [htaken, List.drop_zero]
    split
    case isTrue hknown =>
      rw [Bool.or_eq_true, List.contains_iff_mem] at hknown
      obtain ⟨first, hfirst⟩ := Activity.exists_firstLine hknown
      obtain rfl := (hsteady.firstLine hfirst n).unique h
      have hread := hfirst.readLine []
      refine ⟨0, n.zero_le, ?_⟩
      cases hline : Source.readLine ⟨child.activity.output, []⟩ with
      | mk line rest =>
        rw [hline] at hread
        obtain rfl := hread
        exact ⟨_, rfl⟩
    case isFalse hunknown =>
      rw [Bool.or_eq_true, List.contains_iff_mem] at hunknown
      cases n with
      | zero => exact absurd h.known hunknown
      | succ k =>
        rw [Nat.add_comm, ← later_later] at h
        have htaken' : (child.later 1).taken = 0 := htaken
        obtain ⟨m, hm, taken, hread⟩ := ih htaken' (hsteady.later 1) h (Nat.lt_of_succ_lt_succ hn)
        rw [later_later] at hread
        exact ⟨1 + m, by omega, taken, hread⟩

end Child

end Foreman
