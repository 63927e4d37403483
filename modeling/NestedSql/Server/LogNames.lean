/-!
# Names of log formats and outputs

Unknown names stand for the first of each.
-/

namespace NestedSql.Server

inductive LogFormat where
  | pretty
  | json
  | compact
deriving DecidableEq, Repr

def LogFormat.ofName (name : String) : LogFormat :=
  if name = "json" then json else if name = "compact" then compact else pretty

inductive LogOutput where
  | stdout
  | file
  | both
deriving DecidableEq, Repr

def LogOutput.ofName (name : String) : LogOutput :=
  if name = "file" then file else if name = "both" then both else stdout

end NestedSql.Server
