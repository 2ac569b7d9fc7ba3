import PlanSql.Fault
import PlanSql.Toml

namespace PlanSql

structure Settings where
  databaseUrl : Option String := none
  logFilter : String := "warn"
  deriving DecidableEq

namespace Settings

/-- The text of a setting that may be left out. -/
def text? (cs : Toml.Children) (name : String) : Except PlanError (Option String) :=
  match cs.lookup name with
  | none => .ok none
  | some (.leaf (.string s)) => .ok (some s)
  | some _ => .error .config

/-- Reads the text of a settings file. Other keys are left out. -/
def read (s : String) : Except PlanError Settings := do
  match Toml.read? s with
  | none => .error .config
  | some cs =>
    let url ← text? cs "database_url"
    let filter ← text? cs "log_filter"
    return ⟨url, filter.getD "warn"⟩

/-- Reads a settings file, if it is there. -/
def ofFile (contents : Option String) : Except PlanError Settings :=
  match contents with
  | none => .error .io
  | some s => read s

/-- Another database takes the place of the one in the file, unless its URL is empty. -/
def withDatabaseUrl (s : Settings) (url : Option String) : Settings :=
  match url.filter fun u => !u.isEmpty with
  | none => s
  | some u => ⟨some u, s.logFilter⟩

end Settings

end PlanSql
