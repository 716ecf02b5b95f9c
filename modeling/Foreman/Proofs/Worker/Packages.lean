import Foreman.Proofs.Text.Split
import Foreman.Worker.Isolation
import Mathlib.Computability.RegularExpressions

namespace Foreman.Isolation

variable {name piece : Text} {c : UInt8}

-- A run of letters, digits and underscores that starts with no digit.
structure IsName (piece : Text) : Prop where
  filled : piece ≠ []
  bytes : ∀ c ∈ piece, isNameByte c
  start : ∀ c, piece.head? = some c → ¬Text.isDigit c

structure IsPackage (name : Text) : Prop where
  divided : Text.split '.' name ≠ []
  names : ∀ piece ∈ Text.split '.' name, IsName piece

theorem not_isName_nil : ¬IsName [] := fun h => h.filled rfl

theorem isName_cons_iff :
    IsName (c :: piece) ↔ (isNameByte c ∧ ¬Text.isDigit c) ∧ ∀ b ∈ piece, isNameByte b := by
  constructor
  · rintro ⟨-, hbytes, hstart⟩
    obtain ⟨hhead, hrest⟩ := List.forall_mem_cons.mp hbytes
    exact ⟨⟨hhead, hstart c rfl⟩, hrest⟩
  · rintro ⟨⟨hhead, hstart⟩, hrest⟩
    refine ⟨List.cons_ne_nil c piece, List.forall_mem_cons.mpr ⟨hhead, hrest⟩, ?_⟩
    rintro b ⟨⟩
    exact hstart

-- The induction is on the text. Inside a name the first piece goes on with what was there before,
-- and outside it is a name of its own.
theorem isDotted_split (text : Text) :
    ∃ first rest, Text.split '.' text = first :: rest ∧
      (isDotted true text ↔ (∀ c ∈ first, isNameByte c) ∧ ∀ piece ∈ rest, IsName piece) ∧
      (isDotted false text ↔ IsName first ∧ ∀ piece ∈ rest, IsName piece) := by
  induction text with
  | nil =>
    refine ⟨[], [], rfl, ?_, ?_⟩
    · simp [isDotted]
    · simp [isDotted, not_isName_nil]
  | cons c text ih =>
    obtain ⟨first, rest, hsplit, hinside, houtside⟩ := ih
    by_cases hpoint : c = '.'
    · refine ⟨[], first :: rest, ?_, ?_, ?_⟩
      · rw [Text.split, if_pos hpoint, hsplit]
      · rw [isDotted, if_pos hpoint, Bool.true_and, houtside, List.forall_mem_cons]
        exact (and_iff_right fun _ h => absurd h List.not_mem_nil).symm
      · rw [isDotted, if_pos hpoint, Bool.false_and]
        exact iff_of_false Bool.false_ne_true fun h => not_isName_nil h.1
    · refine ⟨c :: first, rest, ?_, ?_, ?_⟩
      · rw [Text.split, if_neg hpoint, hsplit]
      · rw [isDotted, if_neg hpoint, Bool.true_or, Bool.and_true, Bool.and_eq_true_iff, hinside,
          List.forall_mem_cons, and_assoc]
      · rw [isDotted, if_neg hpoint, Bool.false_or, Bool.and_eq_true_iff, Bool.and_eq_true_iff,
          Bool.not_eq_true', ← Bool.not_eq_true, hinside, isName_cons_iff]
        exact and_assoc.symm

theorem isPackageName_iff : isPackageName name ↔ IsPackage name := by
  obtain ⟨first, rest, hsplit, -, houtside⟩ := isDotted_split name
  rw [isPackageName, houtside, ← List.forall_mem_cons, ← hsplit]
  exact ⟨fun h => ⟨hsplit ▸ List.cons_ne_nil first rest, h⟩, IsPackage.names⟩

section Pattern

open RegularExpression

variable {p : UInt8 → Bool} {text : Text}

def oneOf (p : UInt8 → Bool) : RegularExpression UInt8 :=
  ((((List.range 256).map UInt8.ofNat).filter p).map char).sum

-- A letter or an underscore, and any number of letters, digits and underscores.
def namePattern : RegularExpression UInt8 :=
  oneOf (fun c => Text.isLetter c || c == '_') * (oneOf isNameByte).star

def packagePattern : RegularExpression UInt8 :=
  namePattern * (char ('.' : UInt8) * namePattern).star

theorem mem_sum_char_iff {bytes : List UInt8} :
    text ∈ ((bytes.map char).sum : RegularExpression UInt8).matches' ↔ ∃ c ∈ bytes, text = [c] := by
  induction bytes with
  | nil => simp
  | cons c bytes ih =>
    rw [List.map_cons, List.sum_cons, matches'_add, Language.mem_add, ih, List.exists_mem_cons_iff]
    rfl

theorem mem_oneOf_iff : text ∈ (oneOf p).matches' ↔ ∃ c, p c ∧ text = [c] := by
  have hall (c : UInt8) : c ∈ (List.range 256).map UInt8.ofNat :=
    List.mem_map.mpr ⟨c.toNat, List.mem_range.mpr c.toNat_lt, UInt8.ofNat_toNat⟩
  rw [oneOf, mem_sum_char_iff]
  constructor
  · rintro ⟨c, hc, rfl⟩
    exact ⟨c, (List.mem_filter.mp hc).2, rfl⟩
  · rintro ⟨c, hc, rfl⟩
    exact ⟨c, List.mem_filter.mpr ⟨hall c, hc⟩, rfl⟩

theorem mem_star_oneOf_iff : text ∈ (oneOf p).star.matches' ↔ ∀ c ∈ text, p c := by
  rw [matches'_star, Language.mem_kstar]
  constructor
  · rintro ⟨pieces, rfl, hpieces⟩ c hc
    obtain ⟨piece, hpiece, hmem⟩ := List.mem_flatten.mp hc
    obtain ⟨b, hb, rfl⟩ := mem_oneOf_iff.mp (hpieces piece hpiece)
    exact List.mem_singleton.mp hmem ▸ hb
  · intro h
    refine ⟨text.map ([·]), ?_, fun piece hpiece => ?_⟩
    · rw [← List.flatMap_def, List.flatMap_singleton']
    · obtain ⟨c, hc, rfl⟩ := List.mem_map.mp hpiece
      exact mem_oneOf_iff.mpr ⟨c, h c hc, rfl⟩

theorem not_isDigit_of_isLetter (h : Text.isLetter c) : ¬Text.isDigit c := by
  simp only [Text.isLetter, Text.isUpper, Text.isDigit, Bool.or_eq_true, Bool.and_eq_true,
    decide_eq_true_eq, UInt8.le_iff_toNat_le] at h ⊢
  have hnine : ('9' : UInt8).toNat = 57 := rfl
  have hlarge : ('A' : UInt8).toNat = 65 := rfl
  have hsmall : ('a' : UInt8).toNat = 97 := rfl
  omega

theorem start_iff (c : UInt8) :
    (Text.isLetter c || c == '_') ↔ isNameByte c ∧ ¬Text.isDigit c := by
  have hletter : Text.isLetter c → ¬Text.isDigit c := not_isDigit_of_isLetter
  have hscore : c = '_' → ¬Text.isDigit c := by
    rintro rfl
    decide
  simp only [isNameByte, Bool.or_eq_true, beq_iff_eq]
  tauto

theorem mem_namePattern_iff : text ∈ namePattern.matches' ↔ IsName text := by
  rw [namePattern, matches'_mul, Language.mem_mul]
  constructor
  · rintro ⟨front, hfront, back, hback, rfl⟩
    obtain ⟨c, hc, rfl⟩ := mem_oneOf_iff.mp hfront
    exact isName_cons_iff.mpr ⟨(start_iff c).mp hc, mem_star_oneOf_iff.mp hback⟩
  · intro h
    obtain ⟨c, rest, rfl⟩ := List.exists_cons_of_ne_nil h.filled
    obtain ⟨hhead, hrest⟩ := isName_cons_iff.mp h
    exact ⟨[c], mem_oneOf_iff.mpr ⟨c, (start_iff c).mpr hhead, rfl⟩, rest,
      mem_star_oneOf_iff.mpr hrest, rfl⟩

theorem mem_pointed_iff : text ∈ (char ('.' : UInt8) * namePattern).matches' ↔
    ∃ piece, IsName piece ∧ text = ('.' : UInt8) :: piece := by
  rw [matches'_mul, Language.mem_mul]
  constructor
  · rintro ⟨front, rfl, piece, hpiece, rfl⟩
    exact ⟨piece, mem_namePattern_iff.mp hpiece, rfl⟩
  · rintro ⟨piece, hpiece, rfl⟩
    exact ⟨[('.' : UInt8)], rfl, piece, mem_namePattern_iff.mpr hpiece, rfl⟩

theorem IsName.point_not_mem (h : IsName piece) : ('.' : UInt8) ∉ piece := by
  intro hpoint
  exact absurd (h.bytes _ hpoint) (by decide)

theorem IsName.split_eq (h : IsName piece) : Text.split '.' piece = [piece] :=
  Text.split_of_not_mem h.point_not_mem

-- The induction is on the names behind the first one, each of which ends the piece in front of it.
theorem isName_of_mem_split {behind : List Text}
    (hbehind : ∀ text ∈ behind, ∃ piece, IsName piece ∧ text = ('.' : UInt8) :: piece)
    {first : Text} (hfirst : IsName first) :
    ∀ piece ∈ Text.split '.' (first ++ behind.flatten), IsName piece := by
  induction behind generalizing first with
  | nil =>
    rw [List.flatten_nil, List.append_nil, hfirst.split_eq]
    exact List.forall_mem_singleton.mpr hfirst
  | cons text behind ih =>
    obtain ⟨⟨next, hnext, rfl⟩, hrest⟩ := List.forall_mem_cons.mp hbehind
    rw [List.flatten_cons, List.cons_append, Text.split_append_cons, hfirst.split_eq]
    exact List.forall_mem_cons.mpr ⟨hfirst, ih hrest hnext⟩

theorem join_cons (first : Text) (rest : List Text) :
    Text.join '.' (first :: rest) = first ++ (rest.map (('.' : UInt8) :: ·)).flatten := by
  induction rest generalizing first with
  | nil => exact (List.append_nil first).symm
  | cons next rest ih => rw [Text.join, ih, List.map_cons, List.flatten_cons, List.cons_append]

theorem mem_packagePattern_iff : name ∈ packagePattern.matches' ↔ IsPackage name := by
  have hne : Text.split '.' name ≠ [] := Text.split_ne_nil '.' name
  rw [packagePattern, matches'_mul, Language.mem_mul, matches'_star]
  constructor
  · rintro ⟨first, hfirst, back, hback, rfl⟩
    obtain ⟨behind, rfl, hbehind⟩ := Language.mem_kstar.mp hback
    exact ⟨hne, isName_of_mem_split (fun text htext => mem_pointed_iff.mp (hbehind text htext))
      (mem_namePattern_iff.mp hfirst)⟩
  · rintro ⟨-, hnames⟩
    obtain ⟨first, rest, hsplit⟩ := List.exists_cons_of_ne_nil hne
    rw [hsplit] at hnames
    obtain ⟨hfirst, hrest⟩ := List.forall_mem_cons.mp hnames
    have hbehind : ∀ text ∈ rest.map (('.' : UInt8) :: ·),
        text ∈ (char ('.' : UInt8) * namePattern).matches' := by
      intro text htext
      obtain ⟨piece, hpiece, rfl⟩ := List.mem_map.mp htext
      exact mem_pointed_iff.mpr ⟨piece, hrest piece hpiece, rfl⟩
    have hname : first ++ (rest.map (('.' : UInt8) :: ·)).flatten = name := by
      rw [← join_cons, ← hsplit, Text.join_split]
    exact ⟨first, mem_namePattern_iff.mpr hfirst, _, Language.join_mem_kstar hbehind, hname⟩

end Pattern

end Foreman.Isolation
