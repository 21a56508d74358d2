import NodeForge.Naming.Words

/-!
# Singular and plural

Resources are named in the singular. `singular` turns the last word of a name into its singular by
a table of irregular words and by the ending of the word; `pluralForms` lists the plurals under
which a resource may occur in an identifier.
-/

namespace NodeForge.Naming

/-- The words that the endings say nothing about. -/
def irregularSingulars : List (Text × Text) :=
  [("people", "person"), ("children", "child"), ("men", "man"), ("women", "woman"),
    ("data", "data"), ("media", "media"), ("news", "news"), ("series", "series"),
    ("status", "status"), ("address", "address"), ("analysis", "analysis")]

/-- Whether a word ends in one of the given ways. -/
def endsInAny (endings : List Text) (word : Text) : Bool :=
  endings.any fun e => Text.endsWith e word

/-- The word without its last `count` letters. -/
def shortenedBy (count : Nat) (word : Text) : Text := word.take (word.length - count)

/-- The singular of one word in small letters. -/
def singularOf (word : Text) : Text :=
  match irregularSingulars.lookup word with
  | some single => single
  | none =>
    if endsInAny ["ies"] word && word.length > 3 then shortenedBy 3 word ++ "y"
    else if endsInAny ["sses", "shes", "ches", "xes", "zzes", "uses"] word then shortenedBy 2 word
    else if endsInAny ["ses"] word && word.length > 4 then shortenedBy 1 word
    else if endsInAny ["s"] word && !endsInAny ["ss", "us", "is"] word then shortenedBy 1 word
    else word

/-- The name with its last word in the singular. That word comes in small letters, with a capital
in front if it had one; what stands before it stays. -/
def singular (name : Text) : Text :=
  let (head, last) := Rows.cutAtLast (Sign.char ' ') name
  let single := singularOf (Text.lower last)
  head ++ if Text.firstMeets Letter.isCapital last then Text.upperFirst single else single

/-- Whether a name differs from its singular. -/
def isPlural (name : Text) : Bool := Text.lower (singular name) != Text.lower name

/-- The plurals of a word, the longer endings first. -/
def pluralForms (word : Text) : List Text :=
  let regular := [word ++ "es", word ++ "s"]
  if Text.endsWith "y" word then (word.dropLast ++ "ies") :: regular else regular

end NodeForge.Naming
