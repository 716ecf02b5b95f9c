import Foreman.Proofs.Config.Reading
import Foreman.Proofs.Session.Act
import Foreman.Proofs.Text.Strip
import Foreman.Proofs.Text.Table

namespace Foreman

-- The two directions between a build and its caches.
inductive CacheFlow where
  | pull
  | push
deriving DecidableEq

namespace CacheFlow

def globalName : CacheFlow → Text
  | pull => "cache_pull"
  | push => "cache_push"

def key : CacheFlow → Text
  | pull => CachePolicy.pullKey
  | push => CachePolicy.pushKey

end CacheFlow

namespace Config

open Script (Entries)

def flagText (value : Script.Value) : Text :=
  if value.isTrue then "true" else "false"

theorem find?_property (globals : Entries) (name key : Text) (table : Table Text) (k : Text) :
    (property globals name key table).find? k =
      if k = key then ((globals.find? name).map flagText).or (table.find? k)
      else table.find? k := by
  unfold property
  cases globals.find? name with
  | none => simp
  | some value =>
    rw [Table.find?_insert]
    by_cases h : k = key
    · rw [if_pos h, if_pos h]
      rfl
    · rw [if_neg h, if_neg h]

theorem find?_propertiesOf (globals : Entries) (flow : CacheFlow) :
    (propertiesOf globals).find? flow.key = (globals.find? flow.globalName).map flagText := by
  have hkeys : CachePolicy.pullKey ≠ CachePolicy.pushKey := by decide
  have hempty (key : Text) : (∅ : Table Text).find? key = none := rfl
  unfold propertiesOf
  rw [find?_property, find?_property, hempty, Option.or_none]
  cases flow with
  | pull =>
    have hneg : CacheFlow.pull.key ≠ CachePolicy.pushKey := hkeys
    have hpos : CacheFlow.pull.key = CachePolicy.pullKey := rfl
    rw [if_neg hneg, if_pos hpos]
    rfl
  | push =>
    have hneg : CacheFlow.push.key ≠ CachePolicy.pullKey := hkeys.symm
    have hpos : CacheFlow.push.key = CachePolicy.pushKey := rfl
    rw [if_pos hpos, if_neg hneg, Option.or_none]
    rfl

theorem properties_of_ofGlobals {globals : Entries} {config : Config}
    (h : ofGlobals globals = .ok config) : config.properties = propertiesOf globals := by
  obtain ⟨caches, level, worker, trace, -, -, -, -, rfl⟩ := ofGlobals_eq_ok_iff.mp h
  rfl

end Config

namespace CachePolicy

open Script (Entries)

def disabled (policy : CachePolicy) : CacheFlow → Bool
  | .pull => policy.pullDisabled
  | .push => policy.pushDisabled

def SaysFalse (value : Text) : Prop :=
  ∃ front word back : Text, value = front ++ word ++ back ∧
    (∀ c ∈ front, Text.isBlank c) ∧ (∀ c ∈ back, Text.isBlank c) ∧ Text.lower word = "false"

theorem lower_strip_eq_false_iff (value : Text) :
    Text.lower (Text.strip value) = "false" ↔ SaysFalse value := by
  constructor
  · intro h
    obtain ⟨front, back, hvalue, hfront, hback⟩ := Text.exists_around_strip value
    exact ⟨front, Text.strip value, back, hvalue, hfront, hback, h⟩
  · rintro ⟨front, word, back, rfl, hfront, hback, hword⟩
    -- A blank would still be there in small letters, where the word holds none.
    have hletters : ∀ c ∈ word, ¬Text.isBlank c := by
      intro c hc hblank
      have hmem : Text.lowerByte c ∈ Text.lower word := List.mem_map_of_mem hc
      rw [Text.lowerByte_of_isBlank hblank, hword] at hmem
      have hnone : ∀ c ∈ ("false" : Text), ¬Text.isBlank c := by decide +kernel
      exact hnone c hmem hblank
    have hne : word ≠ [] := by
      rintro rfl
      exact absurd hword (by decide)
    rw [Text.strip_of_around hfront hback hletters hne, hword]

theorem disables_iff (value : Option Text) :
    disables value ↔ ∃ text, value = some text ∧ SaysFalse text := by
  cases value with
  | none => simp [disables]
  | some text => simp [disables, lower_strip_eq_false_iff]

-- The texts that globals are turned into mean what the globals meant.
theorem disables_of_isTrue (value : Script.Value) :
    disables (some (Config.flagText value)) = !value.isTrue := by
  unfold Config.flagText
  cases value.isTrue <;> decide

def warnings (key : Text) (value : Option Text) : List Event :=
  if value.isSome then [.reported .warn (deprecated key)] else []

theorem decide_apply {σ : Type} (key : Text) (explicit ambient : Option Text) (s : σ) :
    decide key explicit ambient s =
      ⟨.ok (disables (explicit.or ambient)), s, warnings key (explicit.or ambient)⟩ := by
  unfold decide warnings
  dsimp only
  by_cases h : (explicit.or ambient).isSome
  · rw [if_pos h, if_pos h]
    rfl
  · rw [if_neg h, if_neg h]
    rfl

-- What is said about a direction, explicitly or by the surroundings.
def setting (params : StartParams) (ambient : Table Text) (flow : CacheFlow) : Option Text :=
  (params.property? flow.key).or (ambient.find? flow.key)

theorem make_apply {σ : Type} (params : StartParams) (ambient : Table Text) (s : σ) :
    (make params ambient s).result =
        .ok ⟨disables (setting params ambient .pull), disables (setting params ambient .push)⟩ ∧
      (make params ambient s).reports =
        ([CacheFlow.pull, .push].filter fun flow => (setting params ambient flow).isSome).map
          fun flow => (.warn, deprecated flow.key) := by
  have hpull := decide_apply pullKey (params.property? pullKey) (ambient.find? pullKey) s
  have hpush := decide_apply pushKey (params.property? pushKey) (ambient.find? pushKey) s
  unfold make Act.within
  rw [Act.bind_of_ok hpull, Act.bind_of_ok hpush]
  refine ⟨rfl, ?_⟩
  change List.filterMap Event.report? (_ :: (warnings pullKey (setting params ambient .pull) ++
    (warnings pushKey (setting params ambient .push) ++ [.noted _])) ++ [.closed]) = _
  cases hp : setting params ambient .pull <;> cases hq : setting params ambient .push <;>
    simp only [List.filter_cons, hp, hq] <;> rfl

theorem disabled_of_result {σ : Type} {params : StartParams} {ambient : Table Text} {s : σ}
    {policy : CachePolicy} (h : (make params ambient s).result = .ok policy) (flow : CacheFlow) :
    policy.disabled flow = disables (setting params ambient flow) := by
  rw [(make_apply params ambient s).1] at h
  cases h
  cases flow <;> rfl

theorem setting_of_globals {globals : Entries} {config : Config}
    (h : Config.ofGlobals globals = .ok config) (ambient : Table Text) (flow : CacheFlow) :
    setting config.startParams ambient flow =
      ((globals.find? flow.globalName).map Config.flagText).or (ambient.find? flow.key) := by
  have hproperty : config.startParams.property? flow.key =
      (globals.find? flow.globalName).map Config.flagText := by
    unfold StartParams.property? Config.startParams
    rw [Config.properties_of_ofGlobals h, Config.find?_propertiesOf]
  rw [setting, hproperty]

-- A global decides, and where there is none the surroundings do. Neither direction looks at what is
-- said about the other one.
theorem policy_of_globals {globals : Entries} {config : Config}
    (h : Config.ofGlobals globals = .ok config) {σ : Type} (ambient : Table Text) (s : σ) :
    ∃ policy, (make config.startParams ambient s).result = .ok policy ∧
      (∀ flow value, globals.find? flow.globalName = some value →
        policy.disabled flow = !value.isTrue) ∧
      (∀ flow, globals.find? flow.globalName = none →
        (policy.disabled flow ↔ ∃ text, ambient.find? flow.key = some text ∧ SaysFalse text)) ∧
      (∀ (globals' : Entries) (config' : Config) (ambient' : Table Text) (policy' : CachePolicy)
        (flow : CacheFlow),
        Config.ofGlobals globals' = .ok config' →
        (make config'.startParams ambient' s).result = .ok policy' →
        globals'.find? flow.globalName = globals.find? flow.globalName →
        ambient'.find? flow.key = ambient.find? flow.key →
        policy'.disabled flow = policy.disabled flow) ∧
      (make config.startParams ambient s).reports =
        ([CacheFlow.pull, .push].filter fun flow =>
          (globals.find? flow.globalName).isSome || (ambient.find? flow.key).isSome).map fun flow =>
            (LogLevel.warn, flow.key ++
              (" is deprecated, use the caches entry of the configuration instead" : Text)) := by
  obtain ⟨hresult, hreports⟩ := make_apply config.startParams ambient s
  have hsetting := setting_of_globals h ambient
  have hdisabled := disabled_of_result hresult
  refine ⟨_, hresult, ?given, ?silent, ?apart, ?warned⟩
  case given =>
    intro flow value hvalue
    rw [hdisabled, hsetting, hvalue]
    exact disables_of_isTrue value
  case silent =>
    intro flow hnone
    rw [hdisabled, hsetting, hnone]
    exact disables_iff _
  case apart =>
    intro globals' config' ambient' policy' flow h' hresult' hglobal hambient
    rw [disabled_of_result hresult', hdisabled, setting_of_globals h', hsetting, hglobal, hambient]
  case warned =>
    rw [hreports]
    congr 2
    funext flow
    rw [hsetting, Option.isSome_or, Option.isSome_map]

-- The global of pull masks what the surroundings say, which are asked about push only.
theorem policy_of_masked_pull :
    ∃ policy, (make { properties := (∅ : Table Text).insert pullKey "false" }
        (((∅ : Table Text).insert pullKey "true").insert pushKey " FALSE\n") ()).result =
          .ok policy ∧ policy.disabled .pull ∧ policy.disabled .push ∧
      (make { properties := (∅ : Table Text).insert pullKey "false" }
        (((∅ : Table Text).insert pullKey "true").insert pushKey " FALSE\n") ()).reports =
          [(.warn, deprecated pullKey), (.warn, deprecated pushKey)] := by
  have hglobals : Config.ofGlobals [(.str "cache_pull", .bool false)] =
      .ok { properties := (∅ : Table Text).insert pullKey "false" } := rfl
  obtain ⟨policy, hresult, hgiven, hsilent, -, hreports⟩ := policy_of_globals hglobals
    (((∅ : Table Text).insert pullKey "true").insert pushKey " FALSE\n") ()
  have hpush : SaysFalse " FALSE\n" :=
    ⟨" ", "FALSE", "\n", rfl, by decide +kernel, by decide +kernel, rfl⟩
  exact ⟨policy, hresult, hgiven .pull (.bool false) rfl, (hsilent .push rfl).mpr ⟨_, rfl, hpush⟩,
    hreports⟩

end CachePolicy

end Foreman
