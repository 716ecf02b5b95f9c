import Foreman.Runs.Checks.Isolation
import Foreman.Runs.Checks.Launching
import Foreman.Runs.Checks.Policy
import Foreman.Runs.Checks.Registry
import Foreman.Runs.Checks.Tiers

namespace Foreman.Suite

def named (name : Text) : Option Suite :=
  ([("backend_registry", Checks.registry), ("cache_policy", Checks.policy),
    ("cache_tiers", Checks.tiers), ("daemon_launcher", Checks.launching),
    ("isolation", Checks.isolation)] : List (Text × Suite)).lookup name

def errors (name : Text) : Text :=
  if name = "daemon_launcher" then Checks.launchingErrors else []

end Foreman.Suite
