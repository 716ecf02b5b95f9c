import Foreman.Cache.Policy
import Foreman.Runs.Checks.Basic
import Foreman.System.Environment

namespace Foreman.Checks

open Check CachePolicy

def policyShown (level : LogLevel) (properties ambient : List (Text × Text)) :
    Act Unit (CachePolicy × Text) :=
  showing level
    (CachePolicy.make { properties := Table.ofList properties } (Table.ofList ambient))

def policyChecks : List Check :=
  [ ⟨"literal_false_disables", do
      expect !(disables none)
      expect (["false", " FALSE ", "False"].all fun t => disables (some (Text.ofString t)))
      expect !(["true", "0", "no", ""].any fun t => disables (some (Text.ofString t)))⟩,
    ⟨"no_override", do
      let (policy, text) ← policyShown default [] []
      expect (policy == {})
      expect text.isEmpty⟩,
    ⟨"ambient_override", do
      let (policy, text) ← policyShown default [] [(pullKey, "false")]
      expect (policy == { pullDisabled := true })
      expect (occurs "Warning : cache.tasks.pull is deprecated" text)
      expect !(occurs pushKey text)⟩,
    ⟨"explicit_takes_precedence", do
      let explicit : List (Text × Text) := [(pushKey, "true"), (pullKey, "false")]
      let ambient : List (Text × Text) := [(pushKey, "false"), (pullKey, "true")]
      let (policy, text) ← policyShown default explicit ambient
      expect (policy == { pullDisabled := true })
      expect (occurs pullKey text && occurs pushKey text)⟩,
    ⟨"warnings_follow_log_level", do
      let (policy, text) ← policyShown .error [] [(pushKey, "false")]
      expect policy.pushDisabled
      expect text.isEmpty⟩,
    ⟨"environment_is_ambient", do
      let env : Environment := Environment.set ∅ pushKey " false"
      let (policy, _) ← policyShown default [] env.entries
      expect (policy == { pushDisabled := true })⟩ ]

def policy : Suite := { checks := policyChecks }

end Foreman.Checks
