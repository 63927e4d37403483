import NestedSql.Server.MediaType
import NestedSql.Service

/-!
# Routes

Four resources: health and schema are read, and requests are posted to be answered or explained. A
request has to come as JSON, to be well formed, and to be of the right shape, in this order; only
then is it compiled, and the answer is a document or a failure.
-/

namespace NestedSql.Server

/-- A request of the protocol, with the text of its body. -/
structure Call where
  method : String
  path : String
  contentType : Option String
  body : String
deriving DecidableEq, Repr

/-- A response. A body is there if it is JSON, and the methods allowed if the method was wrong. -/
structure Response where
  status : Nat
  allow : Option String
  body : Option String
deriving DecidableEq, Repr

namespace Response

/-- A response without a document. -/
def bare (status : Nat) : Response := ⟨status, none, none⟩

def json (status : Nat) (document : Json) : Response := ⟨status, none, some document.text⟩

def ofFailure (failure : Failure) : Response := json failure.reason.status failure.json

def notAllowed (methods : String) : Response := ⟨405, some methods, none⟩

end Response

/-- The resources. -/
inductive Resource where
  | health
  | schema
  | query
  | explain
deriving DecidableEq, Repr

/-- The path without a query string or a fragment. -/
def barePath (path : String) : String :=
  String.ofList (path.toList.takeWhile fun c => c ≠ '?' ∧ c ≠ '#')

def Resource.ofPath? (path : String) : Option Resource :=
  let path := barePath path
  if path = "/health" then some health
  else if path = "/schema" then some schema
  else if path = "/query" then some query
  else if path = "/query/explain" then some explain
  else none

/-- The request in a body. -/
def readRequest (call : Call) : Except Response Request :=
  if isJsonContent call.contentType then
    match Wire.fromHead (.named .request) call.body with
    | .ok request => return request
    | .error .malformed => throw (.bare 400)
    | .error (.mismatch _) => throw (.bare 422)
  else throw (.bare 415)

/-- The plans of a request and its fingerprint. -/
def explainJson (request : Request) (plans : List Plan) : Json :=
  .object [("fingerprint", .string request.fingerprint), ("plans", .ofList Plan.json plans)]

/-- The document or the failure as a response. -/
def respondWith (result : Except Failure Json) : Response :=
  match result with
  | .ok document => .json 200 document
  | .error failure => .ofFailure failure

/-- A resource that is only read. -/
def serveReading (call : Call) (document : Json) : Response :=
  if call.method = "GET" then .json 200 document
  else if call.method = "HEAD" then ⟨200, none, some ""⟩
  else .notAllowed "GET,HEAD"

/-- A resource that requests are posted to. -/
def servePosting (call : Call) (result : Request → Except Failure Json) : Response :=
  if call.method = "POST" then
    match readRequest call with
    | .ok request => respondWith (result request)
    | .error response => response
  else .notAllowed "POST"

/-- The response to a call. -/
def respond (service : Service) (call : Call) : Response :=
  match Resource.ofPath? call.path with
  | none => .bare 404
  | some .health => serveReading call (.object [("status", .string "ok")])
  | some .schema => serveReading call service.schema.json
  | some .query => servePosting call fun request => do
    return .ofList RowSet.json (← service.answer request)
  | some .explain => servePosting call fun request => do
    return explainJson request (← service.plans request)

end NestedSql.Server
