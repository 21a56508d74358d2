import NodeForge.Document.Value

/-!
# Warnings

What is worth telling about a description that can be staged all the same.
-/

namespace NodeForge

/-- Something in a description that was set right or left out. -/
inductive Warning where
  /-- An operation id was taken, so a number was added to it. -/
  | renamed (wanted given : Text)
  /-- A path parameter has no placeholder in its endpoint. -/
  | parameterDropped (name : Value) (endpoint : Text)

/-- What is told about it. -/
def Warning.message : Warning → Text
  | .renamed wanted given =>
    "Operation id " ++ Quoted.ofText wanted ++ " is ambiguous, renamed to " ++ Quoted.ofText given
  | .parameterDropped name endpoint =>
    "Dropping path parameter " ++ name.quoted ++ " absent from " ++ endpoint

end NodeForge
