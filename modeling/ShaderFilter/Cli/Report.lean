import ShaderFilter.Document
import ShaderFilter.Play
import ShaderFilter.Text.Column

/-!
# Reports

What the command line writes about a filter.
-/

namespace ShaderFilter.Cli

open Text (padRight)

/-- A line of a report. -/
def line (s : String) : String := s ++ "\n"

/-- The lines about a parameter: its declaration, what its slots do to the default, and its keys. -/
def parameterReport (p : Parameter) : String :=
  let declaration := s!"  param {padRight 16 p.name} {padRight 5 p.kind.name} " ++
    s!"location {padRight 3 p.location.text} default {p.default.text} " ++
    s!"[{p.min.text}, {p.max.text}]"
  let slots := [Slot.onAdd, Slot.onSubtract].filterMap fun s =>
    (p.fire? (.slot s) p.default).map fun next =>
      s!"    {s.name}: {p.default.text} -> {next.text}"
  let keys := if p.keys = [] then []
    else ["    keys: " ++ ", ".intercalate (p.keys.map Key.name)]
  String.join ((declaration :: slots ++ keys).map line)

/-- The lines about a filter. -/
def summary (d : Definition) : String :=
  let heading := d.name :: if d.description = "" then [] else ["  " ++ d.description]
  let flags := s!"  separable: {Value.boolText d.separable}, " ++
    s!"single invocation: {Value.boolText d.singleInvocation}"
  let textures := d.textureBindings.map fun t =>
    s!"  texture {padRight 14 t.name} binding {t.binding.text}"
  String.join ((heading ++ [flags]).map line) ++ String.join (d.parameters.map parameterReport) ++
    String.join (textures.map line)

/-- The line about a parameter after pressing keys; nothing if none of them has an action on it. -/
def pressLine (keys : List Key) (p : Parameter) : String :=
  match p.afterKeys? keys with
  | some v => line s!"  {p.name} = {v.text}"
  | none => ""

/-- The lines about all parameters after pressing keys. -/
def pressReport (keys : List Key) (d : Definition) : String :=
  String.join (d.parameters.map (pressLine keys))

end ShaderFilter.Cli
