import Permit.Keyed
import Permit.Settings.Basic
import Permit.Settings.EnvFile

namespace Permit.Settings

/-- What the names of variables begin with. -/
def variablePrefix : String := "field_policy_"

def lowered (name : String) : String := String.ofList (name.toList.map Text.toLower)

/-- The value of a setting among arguments: that of its very name, or of its name in
another case. -/
def argument? (args : List (String × Value)) (name : String) : Option Value :=
  (((args.find? (·.1 == name)).or (args.find? fun a => lowered a.1 == name))).map (·.2)

/-- The text that variables bind to a name, in any case. A variable that is set twice
keeps its place; of several that differ in case only, the last one counts. -/
def namedVariable? (bindings : List (String × Option String)) (name : String) : Option String :=
  let inOrder := Keyed.ofList bindings
  (inOrder.reverse.find? fun v => lowered v.1 == variablePrefix ++ name).bind (·.2)

/-- The settings from arguments, variables and the contents of a file. -/
def load (args : List (String × Value)) (environment : List (String × String))
    (file : Option String) : Reading Settings :=
  let outside := environment.map fun v => (v.1, some v.2)
  let find (name : String) : Option String := Keyed.find? (Keyed.ofList environment) name
  let bindings := (EnvFile.read find (file.getD "")).map fun b => (b.name, b.value)
  read fun name =>
    (argument? args name).or
      (((namedVariable? outside name).or (namedVariable? bindings name)).map .text)

end Permit.Settings
