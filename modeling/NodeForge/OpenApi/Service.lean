import NodeForge.Node.Wire
import NodeForge.Naming.Words

/-!
# What a description says about its service

The name, the address and the way of authentication of a service. A description may hold a value
of any kind in these places, so they are read as values and checked when the service is put
together.
-/

namespace NodeForge.OpenApi

/-! ### Address -/

/-- The first server with an address. -/
def serverUrl? : List Value → Option Value
  | [] => none
  | .map server :: rest =>
    let url := Fields.get "url" server
    if url.truthy then some url else serverUrl? rest
  | _ :: rest => serverUrl? rest

/-- The address made of scheme, host and base path, or the empty text where there is no host. -/
def hostUrl (document : Value) : Except Fault Value := do
  let host ← document.field "host"
  if host.truthy then
    let schemes := (← document.field "schemes").orElse (Value.texts ["https"])
    let scheme ← schemes.first
    let basePath := (← document.field? "basePath").getD (.str "")
    return .str ((← scheme.shown) ++ "://" ++ (← host.shown) ++ (← basePath.shown))
  else return .str ""

/-- The address of a service. -/
def apiUrl (document : Value) : Except Fault Value := do
  match ← document.field "servers" with
  | .list servers =>
    match serverUrl? servers with
    | some url => return url
    | none => hostUrl document
  | _ => hostUrl document

/-! ### Authentication -/

/-- The types of the security schemes of a document. -/
def schemeTypes (document : Value) : Except Fault (List Scalar) := do
  let components := (← document.field "components").orElse (.map [])
  let newer ← components.field "securitySchemes"
  let schemes :=
    newer.orElse ((← document.field "securityDefinitions").orElse (.map []))
  let found := (← schemes.fields).filterMap fun e => e.2.fields?
  let types ← found.mapM fun scheme => (Fields.get "type" scheme).asMember
  return types.filterMap id

/-- The way of authentication of a service. -/
def authType (document : Value) : Except Fault AuthType := do
  let types ← schemeTypes document
  if types.contains (.str "oauth2") then return .oauth2
  else if (["apiKey", "http", "basic"] : List Text).any fun t => types.contains (.str t) then
    return .apiKey
  else return .anonymous

/-! ### Name -/

/-- The text without `.json` at its end. -/
def withoutFileEnding (name : Text) : Text :=
  Rows.dropEnding (Text.ofString ".json") name

/-- The name of a service: the given one with its words capitalized, or the title of the
document. -/
def serviceName (given : Option Text) (document : Value) : Except Fault Value := do
  match given.filter fun name => !name.isEmpty with
  | some name =>
    let title := Naming.capital (withoutFileEnding name)
    return .str (if title.isEmpty then name else title)
  | none =>
    let info := (← document.field "info").orElse (.map [])
    return (← info.field "title").orElse (.str "Service")

/-! ### Staging -/

/-- The service that a document describes. -/
def stageService (given : Option Text) (nodeColor : Text) (document : Value) :
    Except Failure Service := do
  let name ← serviceName given document
  let auth ← authType document
  let url ← apiUrl document
  Checked.toExcept <|
    Service.mk <$> (Wire.checkText name).under "service_name" <*> .good auth <*> .good nodeColor
      <*> (Wire.checkText url).under "api_url"

end NodeForge.OpenApi
