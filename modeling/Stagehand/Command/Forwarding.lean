import Stagehand.Config.Run

/-!
# Forwarded variables

Only variables whose names start with an allowed stem reach the execution image: those of the host,
and over them those of the command.
-/

namespace Stagehand

/-- The variable that carries AWS credentials. -/
def awsKeyVariable : String := "AWS_ACCESS_KEY_ID"

/-- Allowed stems, with the host's variables that they let through. -/
structure EnvForwarder where
  stems : List String
  forwarded : NameMap String

namespace EnvForwarder

/-- A name starts with one of the stems. -/
def allows (stems : List String) (name : String) : Bool :=
  stems.any fun stem => Text.startsWith stem.toList name.toList

/-- The forwarder of some stems and the host's variables, the last of a name counting. -/
def ofVariables (stems : List String) (vars : List (String × String)) : EnvForwarder where
  stems
  forwarded := NameMap.ofList (vars.filter fun v => allows stems v.1)

/-- A variable of this name may travel. -/
def isAllowed (f : EnvForwarder) (name : String) : Bool := allows f.stems name

/-- The host's variables with the allowed ones of a command over them. -/
def merged (f : EnvForwarder) (overlay : NameMap String) : NameMap String :=
  f.forwarded.insertAll (overlay.toList.filter fun v => f.isAllowed v.1)

/-- The host's value of a variable that may travel. -/
def get? (f : EnvForwarder) (name : String) : Option String := f.forwarded.get? name

/-- AWS credentials travel as variables. -/
def hasAwsCredentials (f : EnvForwarder) : Bool :=
  match f.get? awsKeyVariable with
  | some v => !v.isEmpty
  | none => false

def size (f : EnvForwarder) : Nat := f.forwarded.size

end EnvForwarder

end Stagehand
