import Foreman.Text.Basic
import Foreman.Text.Layout
import Foreman.Text.Path
import Foreman.Text.Shown
import Foreman.Text.Table
import Foreman.Number.Bits
import Foreman.Number.Decimal
import Foreman.Number.Double
import Foreman.Number.FixedPoint
import Foreman.Number.IntType
import Foreman.Number.Integer
import Foreman.Number.Size
import Foreman.Enumeration.Basic
import Foreman.Enumeration.Flags
import Foreman.Failure
import Foreman.Time.Date
import Foreman.Time.Delay
import Foreman.Session.Act
import Foreman.Session.Basic
import Foreman.Session.Event
import Foreman.Session.LogLevel
import Foreman.Session.TraceLog
import Foreman.Script.Access
import Foreman.Script.Value
import Foreman.System.Child
import Foreman.System.Crash
import Foreman.System.Descriptor
import Foreman.System.Ending
import Foreman.System.Environment
import Foreman.System.FileTree
import Foreman.System.Program
import Foreman.System.Search
import Foreman.System.Source
import Foreman.Cache.Conf
import Foreman.Cache.Instantiators
import Foreman.Cache.Policy
import Foreman.Cache.Registry
import Foreman.Cache.Tag
import Foreman.Cache.Tiers
import Foreman.Cache.Typed
import Foreman.Config.Basic
import Foreman.Config.Globals
import Foreman.Config.Session
import Foreman.Worker.ChildWorker
import Foreman.Worker.Client
import Foreman.Worker.Isolation
import Foreman.Worker.Launch
import Foreman.Worker.Rehearsal
import Foreman.Proofs.Text.Path
import Foreman.Proofs.Text.Split
import Foreman.Proofs.Text.Strip
import Foreman.Proofs.Text.Table
import Foreman.Proofs.Text.Terminated
import Foreman.Proofs.Number.Decimal
import Foreman.Proofs.Number.Double
import Foreman.Proofs.Number.Fixed
import Foreman.Proofs.Number.Integer
import Foreman.Proofs.Number.Numeral
import Foreman.Proofs.Number.Outcome
import Foreman.Proofs.Number.Range
import Foreman.Proofs.Number.Reading
import Foreman.Proofs.Number.Size
import Foreman.Proofs.Number.Writing
import Foreman.Proofs.Enumeration.Flags
import Foreman.Proofs.Enumeration.Names
import Foreman.Proofs.Time.Calendar
import Foreman.Proofs.Time.Date
import Foreman.Proofs.Time.Delay
import Foreman.Proofs.Time.Short
import Foreman.Proofs.Session.Act
import Foreman.Proofs.Session.Messages
import Foreman.Proofs.Session.Twin
import Foreman.Proofs.Trace.Bound
import Foreman.Proofs.Trace.Calls
import Foreman.Proofs.Trace.Files
import Foreman.Proofs.Trace.Lines
import Foreman.Proofs.Trace.Marks
import Foreman.Proofs.Trace.Restart
import Foreman.Proofs.Trace.Starting
import Foreman.Proofs.Script.Dictionary
import Foreman.Proofs.System.Child
import Foreman.Proofs.System.Environment
import Foreman.Proofs.System.Search
import Foreman.Proofs.System.Source
import Foreman.Proofs.Cache.Addresses
import Foreman.Proofs.Cache.Calls
import Foreman.Proofs.Cache.Descriptions
import Foreman.Proofs.Cache.Directories
import Foreman.Proofs.Cache.Entries
import Foreman.Proofs.Cache.Failing
import Foreman.Proofs.Cache.Fields
import Foreman.Proofs.Cache.Filling
import Foreman.Proofs.Cache.History
import Foreman.Proofs.Cache.Independence
import Foreman.Proofs.Cache.Passwords
import Foreman.Proofs.Cache.Registering
import Foreman.Proofs.Cache.Replacing
import Foreman.Proofs.Cache.Resolving
import Foreman.Proofs.Cache.Secrecy
import Foreman.Proofs.Cache.Sequences
import Foreman.Proofs.Cache.Services
import Foreman.Proofs.Cache.Serving
import Foreman.Proofs.Cache.Sizes
import Foreman.Proofs.Cache.Slot
import Foreman.Proofs.Cache.Typed
import Foreman.Proofs.Config.Blame
import Foreman.Proofs.Config.Disclosure
import Foreman.Proofs.Config.Effect
import Foreman.Proofs.Config.Policy
import Foreman.Proofs.Config.Reading
import Foreman.Proofs.Config.Reordering
import Foreman.Proofs.Config.Repetition
import Foreman.Proofs.Config.Requests
import Foreman.Proofs.Worker.Attribution
import Foreman.Proofs.Worker.Checking
import Foreman.Proofs.Worker.Environment
import Foreman.Proofs.Worker.Executing
import Foreman.Proofs.Worker.Interchange
import Foreman.Proofs.Worker.Launching
import Foreman.Proofs.Worker.Overwriting
import Foreman.Proofs.Worker.Ownership
import Foreman.Proofs.Worker.Packages
import Foreman.Proofs.Worker.Phases
import Foreman.Proofs.Worker.Readiness
import Foreman.Proofs.Worker.Receiving
import Foreman.Proofs.Worker.Recording
import Foreman.Proofs.Worker.Starting
import Foreman.Proofs.Worker.Visibility
import Foreman.Runs.Checks.Basic
import Foreman.Runs.Checks.Isolation
import Foreman.Runs.Checks.Launching
import Foreman.Runs.Checks.Policy
import Foreman.Runs.Checks.Registry
import Foreman.Runs.Checks.Suites
import Foreman.Runs.Checks.Tiers
import Foreman.Runs.Comparable
import Foreman.Runs.Echo
import Foreman.Runs.Execution
import Foreman.Runs.Installed
import Foreman.Runs.Machine
import Foreman.Runs.Shell.Builtins
import Foreman.Runs.Shell.Escape
import Foreman.Runs.Shell.Expansion
import Foreman.Runs.Shell.Parser
import Foreman.Runs.Shell.Pattern
import Foreman.Runs.Shell.Run
import Foreman.Runs.Shell.State
import Foreman.Runs.Shell.Syntax
import Foreman.Runs.Shell.Tools
