import Foreman.Cache.Tiers

namespace Foreman.Instantiator

def nothing : Instantiator := fun _ => .ok none

def alwaysHttp : Instantiator := fun _ => standard .http

def specializing : Instantiator := fun tag =>
  standard (if tag = .dir || tag = .any then .sharedDir else if tag = .remote then .daemon else tag)

def noMemory : Failure := .plain "no memory"

def failing : Instantiator := fun _ => .error noMemory

def failingAtTimes : Instantiator := fun tag =>
  match tag with
  | .http => .error noMemory
  | .daemon => .error (.invalidArgument "refused")
  | tag => standard tag

def nothingForHttp : Instantiator := fun tag =>
  if tag = .http then .ok none else standard tag

def plain : Instantiator := fun tag => .ok (some { settings := .plain tag })

end Foreman.Instantiator
