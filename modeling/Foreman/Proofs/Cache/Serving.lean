import Foreman.Proofs.Cache.Registering

namespace Foreman.Registry

structure Serves (registry : Registry) (tag : CacheTag) (i : Nat) (r : Registration) : Prop where
  here : registry[i]? = some r
  isA : tag.isA r.tag
  earliest : ∀ {j : Nat} {s : Registration}, registry[j]? = some s → tag.isA s.tag → i ≤ j

variable {registry : Registry} {tag sub : CacheTag} {i : Nat} {r : Registration}

theorem find?_eq_some_iff : registry.find? tag = some r ↔ ∃ i, registry.Serves tag i r := by
  unfold find?
  rw [List.find?_eq_some_iff_getElem]
  constructor
  · rintro ⟨hisA, i, hi, rfl, hbefore⟩
    refine ⟨i, List.getElem?_eq_getElem hi, hisA, fun {j s} hj hs => ?_⟩
    -- an earlier one of the type would have been found
    refine Nat.le_of_not_lt fun hlt => ?_
    obtain ⟨_, rfl⟩ := List.getElem?_eq_some_iff.mp hj
    have hnot := hbefore j hlt
    rw [hs] at hnot
    cases hnot
  · rintro ⟨i, hhere, hisA, hearliest⟩
    obtain ⟨hi, hget⟩ := List.getElem?_eq_some_iff.mp hhere
    refine ⟨hisA, i, hi, hget, fun j hj => ?_⟩
    cases hs : tag.isA registry[j].tag with
    | false => rfl
    | true =>
      have hle := hearliest (List.getElem?_eq_getElem (Nat.lt_trans hj hi)) hs
      omega

theorem find?_eq_none_iff : registry.find? tag = none ↔ ∀ r ∈ registry, ¬tag.isA r.tag :=
  List.find?_eq_none

-- What serves a type would also do for the types below it, unless they have one even earlier.
theorem Serves.of_isA (h : registry.Serves tag i r) (hsub : sub.isA tag) :
    ∃ j s, j ≤ i ∧ registry.Serves sub j s := by
  have hisA : sub.isA r.tag := CacheTag.isA_trans hsub h.isA
  cases hfind : registry.find? sub with
  | none => exact absurd hisA (find?_eq_none_iff.mp hfind r (List.mem_of_getElem? h.here))
  | some s =>
    obtain ⟨j, hs⟩ := find?_eq_some_iff.mp hfind
    exact ⟨j, s, hs.earliest h.here hisA, hs⟩

theorem resolve_of_find?_eq_none {σ : Type} (h : registry.find? tag = none) (s : σ) :
    (registry.resolve tag s).result = .error (notFound tag) := by
  simp only [resolve, Act.within, h]
  rfl

theorem resolve_eq_ok_iff {σ : Type} {name : Text} (s : σ) :
    (registry.resolve tag s).result = .ok name ↔
      ∃ i r, registry.Serves tag i r ∧ r.factory = name := by
  cases hfind : registry.find? tag with
  | none =>
    rw [resolve_of_find?_eq_none hfind]
    constructor
    · intro h
      cases h
    · rintro ⟨i, r, hserves, -⟩
      rw [find?_eq_some_iff.mpr ⟨i, hserves⟩] at hfind
      cases hfind
  | some r =>
    rw [resolve_of_find? hfind]
    constructor
    · intro h
      obtain ⟨i, hserves⟩ := find?_eq_some_iff.mp hfind
      exact ⟨i, r, hserves, Except.ok.inj h⟩
    · rintro ⟨i, r', hserves, rfl⟩
      rw [find?_eq_some_iff.mpr ⟨i, hserves⟩] at hfind
      cases hfind
      rfl

theorem resolve_eq_error_iff {σ : Type} (s : σ) :
    (registry.resolve tag s).result = .error (notFound tag) ↔ ∀ r ∈ registry, ¬tag.isA r.tag := by
  rw [← find?_eq_none_iff]
  constructor
  · intro h
    cases hfind : registry.find? tag with
    | none => rfl
    | some r =>
      rw [resolve_of_find? hfind] at h
      cases h
  · exact fun hfind => resolve_of_find?_eq_none hfind s

theorem register_cases (registry : Registry) (tag : CacheTag) (factory : Text) :
    (∃ e, (register tag factory registry).result = .error e ∧
        (register tag factory registry).state = registry) ∨
      (register tag factory registry).result = .ok () ∧
        (register tag factory registry).state = registry ++ [⟨tag, factory⟩] := by
  simp only [register, Act.within, Act.ite_apply]
  split
  · exact .inl ⟨_, rfl, rfl⟩
  · split
    · exact .inl ⟨_, rfl, rfl⟩
    · exact .inr ⟨rfl, rfl⟩

theorem after_append (registry : Registry) (calls more : List Registration) :
    registry.after (calls ++ more) = (registry.after calls).after more :=
  List.foldl_append

-- The induction is on the registrations that are still to come.
theorem state_ofList {registrations : List Registration}
    (h : (ofList registrations registry).result = .ok ()) :
    (ofList registrations registry).state = registry ++ registrations := by
  induction registrations generalizing registry with
  | nil => exact (List.append_nil registry).symm
  | cons r registrations ih =>
    have hcons : ofList (r :: registrations) =
        (register r.tag r.factory >>= fun _ => ofList registrations) := List.forM_cons
    rw [hcons] at h ⊢
    cases hregister : register r.tag r.factory registry with
    | mk result state events =>
      rcases register_cases registry r.tag r.factory with ⟨e, hresult, -⟩ | ⟨hresult, hstate⟩
      · rw [hregister] at hresult
        cases hresult
        rw [Act.bind_of_error hregister] at h
        cases h
      · rw [hregister] at hresult hstate
        cases hresult
        cases hstate
        rw [Act.bind_of_ok hregister] at h ⊢
        exact (ih h).trans (List.append_assoc registry [r] registrations)

-- A registry over its whole life, from the registrations that it is made with and through any calls
-- that add to it, the refused ones included. It only grows at its end. A type resolves to the
-- factory of the earliest registration that is of the type or of one above it, and to none if there
-- is no such registration. It keeps resolving to this factory whatever is registered later. A more
-- special type is served as well, and not by a later registration.
theorem resolution_in_every_history {σ : Type} (s : σ) {registrations : List Registration}
    (haccepted : (ofList registrations []).result = .ok ()) (calls : List Registration) :
    let initial := (ofList registrations []).state
    let registry := initial.after calls
    initial = registrations ∧
    (∀ more, registry <+: initial.after (calls ++ more)) ∧
    (∀ tag factory,
      (∃ e, (register tag factory registry).result = .error e ∧
          (register tag factory registry).state = registry) ∨
        (register tag factory registry).result = .ok () ∧
          (register tag factory registry).state = registry ++ [⟨tag, factory⟩]) ∧
    (∀ tag name, (registry.resolve tag s).result = .ok name ↔
      ∃ i r, registry.Serves tag i r ∧ r.factory = name) ∧
    (∀ tag, (registry.resolve tag s).result = .error (.ofKind .backendNotFound
        ("no build cache factory for configuration type '" ++ tag.name ++ "' could be found")) ↔
      ∀ r ∈ registry, ¬tag.isA r.tag) ∧
    (∀ tag name more, (registry.resolve tag s).result = .ok name →
      ((initial.after (calls ++ more)).resolve tag s).result = .ok name) ∧
    (∀ tag sub i r, sub.isA tag → registry.Serves tag i r →
      ∃ j r', j ≤ i ∧ registry.Serves sub j r') := by
  refine ⟨state_ofList haccepted, ?_, register_cases _, fun _ _ => resolve_eq_ok_iff s,
    fun _ => resolve_eq_error_iff s, ?_, fun _ _ _ _ hsub hserves => hserves.of_isA hsub⟩
  · intro more
    rw [after_append]
    exact after_extends _ more
  · intro tag name more h
    obtain ⟨i, r, hserves, rfl⟩ := (resolve_eq_ok_iff s).mp h
    rw [after_append]
    exact resolve_of_find? (find?_of_extension (after_extends _ more)
      (find?_eq_some_iff.mpr ⟨i, hserves⟩)) s

-- Shared directories come first here. A later registration of the unset type is refused, and one of
-- the root of all types is too late to serve them.
theorem resolution_of_shared_dir :
    (ofList [⟨.sharedDir, "shared"⟩, ⟨.dir, "plain"⟩] []).result = .ok () ∧
      ((after [⟨.sharedDir, "shared"⟩, ⟨.dir, "plain"⟩]
        [⟨.none, "never"⟩, ⟨.any, "late"⟩]).resolve .sharedDir ()).result = .ok "shared" := by
  have haccepted : (ofList [⟨.sharedDir, "shared"⟩, ⟨.dir, "plain"⟩] []).result = .ok () := rfl
  have hhistory := resolution_in_every_history () haccepted []
  exact ⟨haccepted, hhistory.2.2.2.2.2.1 .sharedDir "shared"
    [⟨.none, "never"⟩, ⟨.any, "late"⟩] rfl⟩

end Foreman.Registry
