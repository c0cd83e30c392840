import DateReviver.OrderedMap
import DateReviver.OpenApi.Schema

/-!
# OpenAPI documents

The part of a document that response conversion depends on: named component schemas, and of each
operation its identifier and its responses.
-/

namespace DateReviver.OpenApi

structure MediaType where
  schema : Option Schema

/-- A response: bodies by media type, or a reference to a shared response. -/
structure Response where
  reference : Option String
  content : Option (OrderedMap MediaType)

structure Operation where
  operationId : Option String
  responses : OrderedMap Response

inductive HttpMethod where
  | get
  | post
  | put
  | patch
  | delete
deriving DecidableEq

namespace HttpMethod

/-- All methods, in the order in which operations of one path are visited. -/
def all : List HttpMethod :=
  [.get, .post, .put, .patch, .delete]

def name : HttpMethod → String
  | .get => "GET"
  | .post => "POST"
  | .put => "PUT"
  | .patch => "PATCH"
  | .delete => "DELETE"

/-- The key of the method's operation in a path item. -/
def key : HttpMethod → String
  | .get => "get"
  | .post => "post"
  | .put => "put"
  | .patch => "patch"
  | .delete => "delete"

end HttpMethod

structure PathItem where
  get : Option Operation
  post : Option Operation
  put : Option Operation
  patch : Option Operation
  delete : Option Operation

def PathItem.operation? (item : PathItem) : HttpMethod → Option Operation
  | .get => item.get
  | .post => item.post
  | .put => item.put
  | .patch => item.patch
  | .delete => item.delete

structure Components where
  schemas : Option (OrderedMap Schema)

structure Document where
  paths : OrderedMap PathItem
  components : Option Components

namespace Document

/-- The component schemas; none where the document has no table of them. -/
def schemas (doc : Document) : OrderedMap Schema :=
  (doc.components.bind Components.schemas).getD .empty

def schema? (doc : Document) (name : String) : Option Schema :=
  doc.schemas.get? name

/-- The names of the component schemas, in the order of the document. -/
def typeNames (doc : Document) : List String :=
  doc.schemas.keys

end Document

end DateReviver.OpenApi
