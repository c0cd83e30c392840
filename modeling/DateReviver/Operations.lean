import DateReviver.Emission
import DateReviver.OpenApi.MediaRange

/-!
# Operations and their responses

Which responses of a document are converted: for each operation, by path and then by method, the
JSON body of its preferred success status. Every operation has a name of its own, also if its
response is not converted.
-/

namespace DateReviver

open DateReviver.OpenApi DateReviver.TypeScript DateReviver.Text

/-- The success statuses, the most preferred first. -/
def successStatuses : List String :=
  ["200", "201", "202", "203", "206", "207", "default", "2XX"]

/-- The schema of the first JSON body that has one. -/
def jsonSchema? (content : List (String × MediaType)) : Option Schema :=
  content.findSome? fun entry => if isJsonMediaType entry.1 then entry.2.schema else none

/-- The schema of the preferred success response among statuses. A shared response is not
followed: to meet one before a JSON body is an error. -/
def successSchemaAmong (operation : Operation) :
    List String → Except GenerationError (Option Schema)
  | [] => .ok none
  | status :: rest =>
      match operation.responses.get? status with
      | none => successSchemaAmong operation rest
      | some response =>
          match response.reference with
          | some reference => .error (.unsupportedReference reference)
          | none =>
              match jsonSchema? ((response.content.map OrderedMap.entries).getD []) with
              | some schema => .ok (some schema)
              | none => successSchemaAmong operation rest

/-- The schema of the preferred success response of an operation, if that has a JSON body. -/
def successSchema (operation : Operation) : Except GenerationError (Option Schema) :=
  successSchemaAmong operation successStatuses

/-- The segments of a path that are not parameters. -/
def staticSegments (path : String) : List (List Char) :=
  (path.toList.splitOn '/').filter fun segment =>
    match segment with
    | [] => false
    | c :: _ => c != '\x7b'

/-- The name of an operation: the identifier of its id or, without one, of its method and the
static segments of its path. -/
def operationName (path : String) (method : HttpMethod) (operation : Operation) : String :=
  match operation.operationId with
  | some id => identifier id
  | none =>
      identifier
        (String.ofList (List.intercalate ['-'] (method.key.toList :: staticSegments path)))

/-- The type of a response: a named type, an array of one, or anything. -/
def responseType : Schema → Ty
  | .boolean _ => .any
  | .object k =>
      match k.reference.bind referencedName? with
      | some name => .named name
      | none =>
          if k.primaryType = some "array" then
            match k.items with
            | some (.object items) =>
                match items.reference.bind referencedName? with
                | some name => .array (.named name)
                | none => .any
            | _ => .any
          else .any

structure OperationPlan where
  name : String
  path : String
  method : HttpMethod
  responseType : Ty
  plan : Plan

/-- An operation of a document with its path and method. -/
structure Endpoint where
  path : String
  method : HttpMethod
  operation : Operation

/-- The operations of a document, by path and then by method. -/
def endpoints (doc : Document) : List Endpoint :=
  (doc.paths.entries.mergeSort fun a b => a.1 ≤ b.1).flatMap fun (path, item) =>
    HttpMethod.all.filterMap fun method =>
      (item.operation? method).map fun operation => ⟨path, method, operation⟩

/-- Plan operations in their order, with the names that are taken. -/
def planEndpoints (doc : Document) (taken : List String) :
    List Endpoint → Generation (List OperationPlan)
  | [] => pure []
  | ⟨path, method, operation⟩ :: rest => do
      let name := operationName path method operation
      if taken.contains name then throw (.duplicateOperation name)
      match ← MonadExcept.ofExcept (successSchema operation) with
      | none =>
          Generation.note (.noJsonResponse path method)
          planEndpoints doc (name :: taken) rest
      | some schema =>
          let plan ← Generation.plan doc schema
          Generation.note (.operationPlanned name path)
          let others ← planEndpoints doc (name :: taken) rest
          pure (⟨name, path, method, responseType schema, plan⟩ :: others)

/-- Plan every operation of a document that has a JSON success response. -/
def planOperations (doc : Document) : Generation (List OperationPlan) :=
  planEndpoints doc [] (endpoints doc)

/-- The exported function that converts the response of an operation and returns it. -/
def operationFunction (policy : GuardPolicy) (operation : OperationPlan) :
    Generation (Option Function) := do
  let response := Expr.ident "response"
  let body ← emit policy operation.plan response
  if body.isEmpty then return none
  return some
    ⟨"transform" ++ capitalize operation.name ++ "OperationResponse",
      [⟨"response", some operation.responseType⟩], body ++ [.ret response], true⟩

def operationFunctions (policy : GuardPolicy) :
    List OperationPlan → Generation (List Function)
  | [] => pure []
  | operation :: rest => do
      let own ← operationFunction policy operation
      let others ← operationFunctions policy rest
      pure (own.toList ++ others)

end DateReviver
