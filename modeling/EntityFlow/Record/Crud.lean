import EntityFlow.Record.Entity

/-!
# Methods of services that declare none

A service without methods of its own reads, lists, creates, updates and deletes each of its
entities. The methods of a service in the present style also say by which request on which
resource they are called.
-/

namespace EntityFlow.Crud

/-- The path of all resources of an entity. -/
def collectionPath (entity : String) : String :=
  "/" ++ Name.kebab (Name.plural (Name.small entity))

/-- The path of one resource of an entity. -/
def itemPath (entity : String) : String :=
  collectionPath entity ++ "/\x7b" ++ Name.lowerCamel entity ++ "Id\x7d"

/-- The service and the request of a method, if it has a service. -/
def routed (service : Option String) (request path : String) (m : Method) : Method :=
  match service with
  | some name => { m with serviceName := some name }.addOption request (.string path)
  | none => m

/-- The five methods for an entity. -/
def methods (entity : String) (service : Option String) : List Method :=
  let collection := collectionPath entity
  let item := itemPath entity
  let get := routed service "get" item (.named ("get" ++ entity))
  let list := routed service "get" collection (.named ("list" ++ Name.plural entity))
  let create := routed service "post" collection (.named ("create" ++ entity))
  let update := routed service "put" item (.named ("update" ++ entity))
  let delete := routed service "delete" item (.named ("delete" ++ entity))
  [{ get with idParameter := some "id", returnType := some entity, returnsOptional := true },
    { list with returnType := some entity, returnsArray := true, paginated := true },
    { create with parameter := some entity, returnType := some entity },
    { update with
      idParameter := some "id", parameter := some entity, returnType := some entity,
      returnsOptional := true },
    { delete with idParameter := some "id" }]

end EntityFlow.Crud
