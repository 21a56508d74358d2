import NodeForge.Document.Access
import NodeForge.Store.Fault

/-!
# What can go wrong

A run fails for one of five reasons: the description is not one that can be staged, an operation
that is asked for is not there, a value does not fit the node model, a value inside the description
cannot be used as its place asks, or a file cannot be made. The first two have a message; it is
written here and nowhere else.
-/

namespace NodeForge

/-- Why a description cannot be staged. -/
inductive SpecCause where
  | noPaths
  | emptyPaths
  | pathNotMapping (path : Scalar)
  | noMethods (path : Scalar)
  | entryNotMapping (method : Text) (path : Scalar)
  | tagNotText (tag : Value) (path : Scalar)
  | nameClash (first second folded : Text)
  | externalReference (reference : Text)
  | unresolvableReference (reference : Text)
  | unreadableFile (file : Text)
  | fileNotMapping (file : Text)
  | unknownFormat (file : Text)
  | noResources
  | noServiceName
  | incompleteOperation (key : Text) (operation : Value)
  | noRouteParameter (method endpoint : Value)
  | operationWithout (resource : Scalar) (key : Text)
  | bundlerNotFound (program : Text)
  | bundlerFailed (source output : Text)

/-- What is told about a description that cannot be staged. -/
def SpecCause.message : SpecCause → Text
  | .noPaths => "Document has no 'paths'"
  | .emptyPaths => "Document has empty 'paths'"
  | .pathNotMapping path => "Path " ++ path.text ++ " is not a mapping"
  | .noMethods path => "Path " ++ path.text ++ " has no method entries"
  | .entryNotMapping method path => method ++ " " ++ path.text ++ " is not a mapping"
  | .tagNotText tag path => "Tag " ++ tag.quoted ++ " of " ++ path.text ++ " is not a string"
  | .nameClash first second folded =>
    "Properties " ++ Quoted.ofText first ++ " and " ++ Quoted.ofText second ++ " both map to " ++
      Quoted.ofText folded
  | .externalReference reference => "External references are not supported: " ++ reference
  | .unresolvableReference reference => "Unresolvable reference: " ++ reference
  | .unreadableFile file => "Cannot parse " ++ file
  | .fileNotMapping file => "Expected " ++ file ++ " to contain a mapping"
  | .unknownFormat file => file ++ " is neither an OpenAPI document nor a custom schema"
  | .noResources => "Custom schema has no 'mainParams' mapping"
  | .noServiceName => "Custom schema has no 'metaParams.serviceName'"
  | .incompleteOperation key operation =>
    "Operation is missing '" ++ key ++ "': " ++ operation.text
  | .noRouteParameter method endpoint =>
    "Operation is missing required route param: " ++ method.text ++ " " ++ endpoint.text
  | .operationWithout resource key =>
    "Operation under " ++ resource.quoted ++ " is missing " ++ Quoted.ofText key
  | .bundlerNotFound program => "Bundler not found: " ++ program
  | .bundlerFailed source output => "Bundler failed for " ++ source ++ ": " ++ output

/-- The values of the description that are shown in the message. -/
def SpecCause.shownValues : SpecCause → List Value
  | .pathNotMapping path | .noMethods path | .entryNotMapping _ path => [.scalar path]
  | .tagNotText tag path => [tag, .scalar path]
  | .incompleteOperation _ operation => [operation]
  | .noRouteParameter method endpoint => [method, endpoint]
  | .operationWithout resource _ => [.scalar resource]
  | _ => []

/-- How a value fails to fit its place in the node model. -/
inductive Misfit where
  | missing
  | notText
  /-- Bytes that are the UTF-8 form of no text. -/
  | notUnicode
  | notAllowed
  | notTruthValue
  | unreadableTruthValue
  | notMapping
  | notList
  | notModel
  | notInteger
  | notNumber
deriving Repr, DecidableEq

/-- A value that does not fit, with the way to it. -/
structure Problem where
  path : List Text
  misfit : Misfit
deriving Repr, DecidableEq

/-- Why a run fails. -/
inductive Failure where
  | spec (cause : SpecCause)
  | missingOperation (resource operation : Text)
  | refused (problems : List Problem)
  | fault (fault : Fault)
  | store (fault : StoreFault)

/-- What is told about an operation that is not there. -/
def Failure.missingMessage (resource operation : Text) : Text :=
  "Expected value is missing: " ++ resource ++ "." ++ operation

/-- A fault in a value makes the run fail. -/
instance : MonadLift (Except Fault) (Except Failure) :=
  ⟨fun r => r.mapError Failure.fault⟩

/-- A run that fails because of the description. If that cannot be told, since a value in the
message cannot be shown, this is the fault. -/
def failSpec {α : Type} (cause : SpecCause) : Except Failure α :=
  if cause.shownValues.all Value.isShowable then .error (.spec cause)
  else .error (.fault .badContent)

end NodeForge
