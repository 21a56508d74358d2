import NodeForge.Text.Basic

/-!
# Free text in generated code

Descriptions and summaries are free text, and they end up between single quotes in generated code.
`oneLine` makes one line of a text and escapes its quotes; `forTemplate` keeps line ends as markup
and takes typographic quotes; `openLinksApart` makes the first link in a text open in a new tab.
-/

namespace NodeForge.Prose

/-- White space collapsed, single quotes escaped, and no white space at either end. -/
def oneLine (text : Text) : Text :=
  Text.trim (Text.replace "'" "\\'" (Text.collapseBlanks text))

/-- The text as one line, if there is anything in it. -/
def oneLine? (text : Text) : Option Text :=
  let line := oneLine text
  if line.isEmpty then none else some line

/-- The tag of a line break. -/
def lineBreak : Text := "<br>"

/-- Every line end as a line-break tag. -/
def breakLines : Text → Text
  | .char '\r' :: .char '\n' :: cs => lineBreak ++ breakLines cs
  | .char '\n' :: cs => lineBreak ++ breakLines cs
  | c :: cs => c :: breakLines cs
  | [] => []

/-- Line ends as tags, escaped quotes without their backslash, and all single quotes curved. -/
def forTemplate (text : Text) : Text :=
  Text.replace "'" "’" (Text.replace "\\'" "'" (breakLines text))

/-- The start of a link. -/
def linkStart : Text := "<a href="

/-- The first link of a text made to open in a new tab. -/
def openLinksApart (text : Text) : Text :=
  if Text.contains linkStart text then Text.replaceFirst "\">" "\" target=\"_blank\">" text
  else text

end NodeForge.Prose
