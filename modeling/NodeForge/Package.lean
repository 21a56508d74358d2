import NodeForge.Json.Writer
import NodeForge.Node.Basic
import NodeForge.Source.Title

/-!
# The package manifest

The manifest of the package that a node is shipped in: its name, what it is built with, and the
files of its node and of its credentials, if it needs any.
-/

namespace NodeForge.Package

/-- The version that a generated package starts with. -/
def version : Text := "0.1.0"

/-- The credentials files of a service. -/
def credentialFiles (s : Service) : List Text :=
  if s.authType = .anonymous then []
  else
    let name := Naming.pascal (Source.credentialsName s.serviceName s.authType.text)
    ["dist/credentials/" ++ name ++ ".credentials.js"]

/-- The manifest of the package for a service. -/
def manifest (s : Service) : Value :=
  let slug := Naming.kebab s.serviceName
  let node := Naming.pascal s.serviceName
  .record
    [("name", .str ("n8n-nodes-" ++ slug)), ("version", .str version),
      ("description", .str ("n8n node for the " ++ s.serviceName ++ " API")),
      ("keywords", Value.texts ["n8n-community-node-package", slug]), ("license", .str "MIT"),
      ("main", .str "index.js"),
      ("scripts", .record
        [("build", .str "tsc && gulp build:icons"), ("dev", .str "tsc --watch"),
          ("lint", .str "eslint nodes credentials package.json")]),
      ("files", Value.texts ["dist"]),
      ("n8n", .record
        [("n8nNodesApiVersion", .int 1), ("credentials", Value.texts (credentialFiles s)),
          ("nodes", Value.texts ["dist/nodes/" ++ node ++ "/" ++ node ++ ".node.js"])]),
      ("devDependencies", .record
        [("gulp", .str "^4.0.2"), ("n8n-core", .str "*"), ("n8n-workflow", .str "*"),
          ("typescript", .str "~4.8.4")])]

/-- The text of the manifest file. -/
def text (s : Service) : Except Fault Text := (· ++ "\n") <$> Json.writeAscii (manifest s)

end NodeForge.Package
