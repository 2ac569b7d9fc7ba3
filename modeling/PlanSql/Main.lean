import PlanSql.Tool

namespace PlanSql

instance : Server Empty where
  connect := nofun
  declare _ _ := nofun
  execute _ _ _ _ := nofun
  run _ := nofun

namespace Tool

/-- What is under a path, if there is anything. -/
def readEntry? (path : String) : IO (Option Entry) := do
  try return some (.text (← IO.FS.readFile path))
  catch _ =>
    try
      let _ ← IO.FS.realPath path
      return some .other
    catch _ => return none

/-- The variables that a run looks at. -/
def variableNames : List String :=
  ["HOME", "XDG_CONFIG_HOME", "RUST_LOG", "CLICOLOR_FORCE", "PGPLAN_DATABASE_URL"]

/-- Looks around for a run with these arguments. -/
def lookAround (args : List String) : IO Surroundings := do
  let held ← variableNames.mapM fun name => return (name, ← IO.getEnv name)
  let environment? (name : String) : Option String := (held.lookup name).join
  let paths := (settingsPath? environment?).toList ++ filesNamed args
  let entries ← paths.mapM fun path => return (path, ← readEntry? path)
  return ⟨fun path => (entries.lookup path).join, environment?⟩

end Tool

end PlanSql

open PlanSql in
def main (args : List String) : IO UInt32 := do
  let around ← Tool.lookAround args
  let (ending, _) := Tool.run around (fun _ => (none : Option Empty)) args
  (← IO.getStdout).putStr (String.ofList ending.output)
  (← IO.getStderr).putStr (String.ofList ending.notes)
  return ending.code.toUInt32
