import Foreman.Proofs.Cache.Fields
import Foreman.Proofs.Text.Table

namespace Foreman.CacheConf

variable {conf : CacheConf} {field : Field}

def rejection? (conf : CacheConf) (e : Text × Text) : Option Failure :=
  match conf.meaning e.1 e.2 with
  | .writes _ _ | .affirms => none
  | .unknownKey => some (wrongKey conf.tag e.1)
  | .badValue why => some (wrongValue e.1 e.2 why)

def written? (conf : CacheConf) (field : Field) (e : Text × Text) : Option Setting :=
  match conf.meaning e.1 e.2 with
  | .writes f setting => if field = f then some setting else none
  | .affirms | .unknownKey | .badValue _ => none

-- What entries leave in a field, the first one that is turned down being the last one to be seen.
def left? (conf : CacheConf) (field : Field) : List (Text × Text) → Option Setting
  | [] => none
  | e :: rest =>
    if (conf.rejection? e).isSome then none
    else (conf.left? field rest).or (conf.written? field e)

theorem written?_of_rejection? {e : Text × Text} {why : Failure} {field : Field}
    (h : conf.rejection? e = some why) : conf.written? field e = none := by
  unfold rejection? at h
  unfold written?
  cases hmeaning : conf.meaning e.1 e.2 with
  | writes f setting =>
    rw [hmeaning] at h
    cases h
  | affirms | unknownKey | badValue => rfl

theorem rejection?_eq_of_kind_eq {a b : CacheConf} (h : a.kind = b.kind) :
    a.rejection? = b.rejection? := by
  funext e
  simp only [rejection?, meaning_eq_of_kind_eq h, tag_eq_of_kind_eq h]

theorem left?_eq_of_kind_eq {a b : CacheConf} (h : a.kind = b.kind) (field : Field) :
    a.left? field = b.left? field := by
  funext entries
  induction entries with
  | nil => rfl
  | cons e rest ih =>
    simp only [left?, ih, rejection?_eq_of_kind_eq h, written?, meaning_eq_of_kind_eq h]

theorem applyEntry_apply (key value : Text) (conf : CacheConf) :
    (applyEntry key value conf).result = (conf.rejection? (key, value)).elim (.ok ()) .error ∧
      ∀ field, (applyEntry key value conf).state.get field =
        (conf.written? field (key, value)).or (conf.get field) := by
  have henters := conf.enters key value
  unfold applyEntry rejection? written?
  rw [Act.get_bind]
  dsimp only
  generalize conf.meaning key value = meaning at henters ⊢
  generalize conf.entry key value = outcome at henters ⊢
  cases henters with
  | @writes f setting after h =>
    refine ⟨rfl, fun field => ?_⟩
    change after.get field = (if field = f then some setting else none).or (conf.get field)
    rw [h field]
    split <;> rfl
  | affirms | unknownKey | badValue => exact ⟨rfl, fun field => rfl⟩

-- A list of entries, as it is seen in each of the fields. The induction is on the entries: what is
-- written later covers what was written before, and the class that decides on the meaning of an
-- entry stays.
theorem applyAll_apply (entries : List (Text × Text)) (conf : CacheConf) :
    (applyAll entries conf).result = (entries.findSome? conf.rejection?).elim (.ok ()) .error ∧
      ∀ field, (applyAll entries conf).state.get field =
        (conf.left? field entries).or (conf.get field) := by
  induction entries generalizing conf with
  | nil => exact ⟨rfl, fun field => rfl⟩
  | cons e rest ih =>
    have hcons : applyAll (e :: rest) = (applyEntry e.1 e.2 >>= fun _ => applyAll rest) :=
      List.forM_cons
    obtain ⟨hresult, hfields⟩ := applyEntry_apply e.1 e.2 conf
    have hkind := kind_applyEntry e.1 e.2 conf
    rw [hcons, List.findSome?_cons]
    unfold left?
    cases hstep : applyEntry e.1 e.2 conf with
    | mk result after events =>
      rw [hstep] at hresult hfields hkind
      cases hrejection : conf.rejection? e with
      | some why =>
        rw [hrejection] at hresult
        cases hresult
        rw [Act.bind_of_error hstep]
        refine ⟨rfl, fun field => ?_⟩
        rw [Option.isSome_some, if_pos rfl, hfields field, written?_of_rejection? hrejection]
      | none =>
        rw [hrejection] at hresult
        cases hresult
        rw [Act.bind_of_ok hstep]
        obtain ⟨hrest, hleft⟩ := ih after
        refine ⟨?_, fun field => ?_⟩
        · rw [hrest, rejection?_eq_of_kind_eq hkind]
        · rw [hleft field, left?_eq_of_kind_eq hkind, hfields field, Option.isSome_none,
            if_neg Bool.false_ne_true, Option.or_assoc]

-- A list that comes a second time finds everything as it leaves it.
theorem applyAll_again (entries : List (Text × Text)) (conf : CacheConf) :
    (applyAll entries (applyAll entries conf).state).result = (applyAll entries conf).result ∧
      (applyAll entries (applyAll entries conf).state).state = (applyAll entries conf).state := by
  have hkind := kind_applyAll entries conf
  obtain ⟨hfirst, hfields⟩ := applyAll_apply entries conf
  obtain ⟨hsecond, hfields'⟩ := applyAll_apply entries (applyAll entries conf).state
  refine ⟨?_, ext_get (kind_applyAll entries _) fun field => ?_⟩
  · rw [hsecond, hfirst, rejection?_eq_of_kind_eq hkind]
  · rw [hfields', left?_eq_of_kind_eq hkind, hfields, ← Option.or_assoc, Option.or_self]

theorem configure_again (entries : List (Text × Text)) (conf : CacheConf) :
    (configure entries (configure entries conf).state).result =
        (configure entries conf).result ∧
      (configure entries (configure entries conf).state).state =
        (configure entries conf).state := by
  obtain ⟨hstate, hresult⟩ := configure_apply entries conf
  obtain ⟨hstate', hresult'⟩ := configure_apply entries (configure entries conf).state
  obtain ⟨hagain, hsame⟩ := applyAll_again entries conf
  rw [hstate', hresult', hstate, hresult, hagain, hsame]
  exact ⟨rfl, rfl⟩

theorem written?_of_key_ne {e : Text × Text} (h : e.1 ≠ field.key) :
    conf.written? field e = none := by
  unfold written?
  cases hmeaning : conf.meaning e.1 e.2 with
  | writes f setting =>
    have hf : field ≠ f := by
      rintro rfl
      exact h (key_of_writes hmeaning)
    exact if_neg hf
  | affirms | unknownKey | badValue => rfl

theorem accepted_of_key {value : Text} (h : conf.rejection? (field.key, value) = none) :
    field ∈ conf.fields ∧ ∃ setting, field.read value = .ok setting ∧
      conf.written? field (field.key, value) = some setting := by
  unfold rejection? at h
  unfold written?
  dsimp only at h ⊢
  rw [meaning_of_key] at h ⊢
  by_cases hfield : field ∈ conf.fields
  · rw [if_pos hfield] at h ⊢
    unfold Field.meaning at h ⊢
    cases hread : field.read value with
    | error why =>
      rw [hread] at h
      cases h
    | ok setting => exact ⟨hfield, setting, rfl, if_pos rfl⟩
  · rw [if_neg hfield] at h
    cases h

theorem key_of_accepted {e : Text × Text} (h : conf.rejection? e = none) :
    e.1 = "tag" ∨ ∃ field ∈ conf.fields, e.1 = field.key := by
  rcases conf.meaning_cases e.1 e.2 with ⟨field, hfield, hkey, -⟩ | ⟨-, hmeaning⟩
  · exact .inr ⟨field, hfield, hkey⟩
  · by_cases htag : e.1 = "tag"
    · exact .inl htag
    · rw [tagMeaning_of_ne conf e.2 htag] at hmeaning
      unfold rejection? at h
      rw [hmeaning] at h
      cases h

-- Where no key comes twice, what is left in a field is the one entry about it.
theorem left?_of_accepted {entries : List (Text × Text)}
    (hkeys : entries.Pairwise fun a b => a.1 ≠ b.1) (h : ∀ e ∈ entries, conf.rejection? e = none)
    (field : Field) :
    conf.left? field entries =
      (entries.lookup field.key).bind fun value => (field.read value).toOption := by
  induction entries with
  | nil => rfl
  | cons e rest ih =>
    obtain ⟨hhead, hrest⟩ := List.pairwise_cons.mp hkeys
    have haccepted := h e List.mem_cons_self
    have hleft := ih hrest fun e he => h e (List.mem_cons_of_mem _ he)
    unfold left?
    rw [haccepted, Option.isSome_none, if_neg Bool.false_ne_true, hleft, Table.lookup_cons_ite]
    by_cases hkey : field.key = e.1
    · have hnone : rest.lookup field.key = none :=
        Table.lookup_eq_none_of_keys fun a ha hsame => hhead a ha (hkey.symm.trans hsame.symm)
      have he : e = (field.key, e.2) := by rw [hkey]
      rw [he] at haccepted
      obtain ⟨-, setting, hread, hwritten⟩ := accepted_of_key haccepted
      rw [if_pos hkey, hnone, he, hwritten, Option.bind_some, hread]
      rfl
    · rw [if_neg hkey, written?_of_key_ne (Ne.symm hkey), Option.or_none]

theorem left?_of_key_ne {entries : List (Text × Text)} (h : ∀ e ∈ entries, e.1 ≠ field.key) :
    conf.left? field entries = none := by
  induction entries with
  | nil => rfl
  | cons e rest ih =>
    obtain ⟨hhead, hrest⟩ := List.forall_mem_cons.mp h
    rw [left?, ih hrest, Option.none_or, written?_of_key_ne hhead, ite_self]

theorem left?_of_last {before after : List (Text × Text)} {value : Text}
    (haccepted : ∀ e ∈ before ++ (field.key, value) :: after, conf.rejection? e = none)
    (hafter : ∀ e ∈ after, e.1 ≠ field.key) :
    conf.left? field (before ++ (field.key, value) :: after) =
      conf.written? field (field.key, value) := by
  obtain ⟨hbefore, hlast⟩ := List.forall_mem_append.mp haccepted
  have hentry := hlast _ List.mem_cons_self
  obtain ⟨-, setting, -, hwritten⟩ := accepted_of_key hentry
  clear haccepted hlast
  induction before with
  | nil =>
    rw [List.nil_append, left?, hentry, Option.isSome_none, if_neg Bool.false_ne_true,
      left?_of_key_ne hafter, Option.none_or]
  | cons e rest ih =>
    obtain ⟨hhead, hrest⟩ := List.forall_mem_cons.mp hbefore
    rw [List.cons_append, left?, hhead, Option.isSome_none, if_neg Bool.false_ne_true, ih hrest,
      hwritten, Option.some_or]

theorem result_applyAll_eq_ok_iff (entries : List (Text × Text)) (conf : CacheConf) :
    (applyAll entries conf).result = .ok () ↔ ∀ e ∈ entries, conf.rejection? e = none := by
  rw [(applyAll_apply entries conf).1, ← List.findSome?_eq_none_iff]
  cases entries.findSome? conf.rejection? with
  | none => exact iff_of_true rfl rfl
  | some why => exact iff_of_false nofun nofun

theorem result_configure_eq_ok_iff (entries : List (Text × Text)) (conf : CacheConf) :
    (configure entries conf).result = .ok () ↔
      (applyAll entries conf).result = .ok () ∧ (applyAll entries conf).state.check = .ok () := by
  rw [(configure_apply entries conf).2]
  cases (applyAll entries conf).result with
  | error why => exact iff_of_false nofun fun h => nomatch h.1
  | ok =>
    cases (applyAll entries conf).state.check with
    | error why => exact iff_of_false nofun fun h => nomatch h.2
    | ok => exact iff_of_true rfl ⟨rfl, rfl⟩

theorem accepted_of_configure {entries : List (Text × Text)}
    (h : (configure entries conf).result = .ok ()) : ∀ e ∈ entries, conf.rejection? e = none :=
  (result_applyAll_eq_ok_iff entries conf).mp ((result_configure_eq_ok_iff entries conf).mp h).1

theorem get_of_last_accepted {before after : List (Text × Text)} {value : Text} {setting : Setting}
    (hread : field.read value = .ok setting) (hafter : ∀ e ∈ after, e.1 ≠ field.key)
    (haccepted : ∀ e ∈ before ++ (field.key, value) :: after, conf.rejection? e = none) :
    (configure (before ++ (field.key, value) :: after) conf).state.get field = some setting := by
  obtain ⟨-, setting', hread', hwritten⟩ :=
    accepted_of_key (haccepted _ (List.mem_append_right before List.mem_cons_self))
  rw [hread] at hread'
  cases hread'
  rw [(configure_apply _ conf).1, (applyAll_apply _ conf).2, left?_of_last haccepted hafter,
    hwritten, Option.some_or]

theorem get_of_last {before after : List (Text × Text)} {value : Text} {setting : Setting}
    (hread : field.read value = .ok setting) (hafter : ∀ e ∈ after, e.1 ≠ field.key)
    (h : (configure (before ++ (field.key, value) :: after) conf).result = .ok ()) :
    (configure (before ++ (field.key, value) :: after) conf).state.get field = some setting :=
  get_of_last_accepted hread hafter (accepted_of_configure h)

section Distinct

variable {entries : List (Text × Text)} (hkeys : entries.Pairwise fun a b => a.1 ≠ b.1)

include hkeys

theorem get_of_configure (h : (configure entries conf).result = .ok ()) (field : Field) :
    (configure entries conf).state.get field =
      ((entries.lookup field.key).bind fun value => (field.read value).toOption).or
        (conf.get field) := by
  rw [(configure_apply entries conf).1, (applyAll_apply entries conf).2,
    left?_of_accepted hkeys (accepted_of_configure h)]

theorem configure_perm {entries' : List (Text × Text)} (hperm : entries.Perm entries')
    (h : ∀ e ∈ entries, conf.rejection? e = none) :
    (configure entries' conf).result = (configure entries conf).result ∧
      (configure entries' conf).state = (configure entries conf).state := by
  have h' : ∀ e ∈ entries', conf.rejection? e = none := fun e he => h e (hperm.mem_iff.mpr he)
  have hkeys' : entries'.Pairwise fun a b => a.1 ≠ b.1 :=
    (hperm.pairwise_iff fun h => Ne.symm h).mp hkeys
  have hall := (result_applyAll_eq_ok_iff entries conf).mpr h
  have hall' := (result_applyAll_eq_ok_iff entries' conf).mpr h'
  have hstate : (applyAll entries' conf).state = (applyAll entries conf).state := by
    refine ext_get ?_ fun field => ?_
    · rw [kind_applyAll, kind_applyAll]
    · rw [(applyAll_apply entries' conf).2, (applyAll_apply entries conf).2,
        left?_of_accepted hkeys' h', left?_of_accepted hkeys h, Table.lookup_perm hkeys hperm]
  obtain ⟨hleft, hresult⟩ := configure_apply entries conf
  obtain ⟨hleft', hresult'⟩ := configure_apply entries' conf
  rw [hleft, hleft', hresult, hresult', hall, hall', hstate]
  exact ⟨rfl, rfl⟩

end Distinct

end Foreman.CacheConf
