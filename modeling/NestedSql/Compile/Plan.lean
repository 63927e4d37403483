import NestedSql.Compile.Node
import NestedSql.Digest.Sha256
import NestedSql.Sql.Render
import NestedSql.Wire.Writer

/-!
# Plans

The statements of a request for one set of variables, each returning a document as text. A request
has one plan per set of variables, and one without any when it names no sets; the first set that
fails is the answer for all. Fingerprints are digests of canonical texts.
-/

namespace NestedSql

/-- The statements for one set of variables. -/
structure Plan where
  rows : Option Statement
  aggregates : Option Statement
  groups : Option Statement
deriving DecidableEq

namespace Plan

/-- The statements of a node, each as the root of a document. -/
def ofNode (node : Compile.Node) : Plan where
  rows := node.rows.map Sql.Select.renderRoot
  aggregates := node.aggregates.map Sql.Select.renderRoot
  groups := node.groups.map Sql.Select.renderRoot

/-- The plan as a document. -/
def json (plan : Plan) : Json :=
  .present [("rows", plan.rows.map Statement.json),
    ("aggregates", plan.aggregates.map Statement.json), ("groups", plan.groups.map Statement.json)]

/-- The digest of the plan's text. -/
def fingerprint (plan : Plan) : String := Sha256.hex plan.json.text

end Plan

namespace Request

/-- The digest of the request's canonical text. -/
def fingerprint (request : Request) : String := Sha256.hex request.json.text

/-- The plan for one set of variables. -/
def compile (schema : Schema) (request : Request) (bindings : VariableSet) :
    Except CompileError Plan := do
  return .ofNode (← Compile.root ⟨schema, request.relationships, bindings⟩ request.collection
    request.query)

/-- The sets of variables to answer for. -/
def variableSets (request : Request) : List VariableSet := request.bindings.getD [[]]

/-- The plans for all sets of variables. -/
def plans (schema : Schema) (request : Request) : Except CompileError (List Plan) :=
  request.variableSets.mapM (request.compile schema)

end Request

end NestedSql
