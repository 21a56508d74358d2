import NodeForge.Text.Sign

/-!
# Operations on texts

Cutting, trimming, replacing and changing case. Half a pair is no white space, has no case and is
never part of what is looked for in the text, so it stays where it is.
-/

namespace NodeForge.Text

/-! ### Cutting and trimming -/

/-- White space. -/
def isBlank (s : Sign) : Bool := s.meets Letter.isBlank

/-- The words of a text: its pieces between white space, without empty ones. -/
def words (text : Text) : List Text := Rows.piecesBetween isBlank text

/-- The text without white space at its end. -/
def trimEnd (text : Text) : Text := Rows.trimEndWhere isBlank text

/-- The text without white space at either end. -/
def trim (text : Text) : Text := Rows.trimWhere isBlank text

/-- Every stretch of white space as one space. The flag says whether the sign before was white
space. -/
def collapseFrom : Bool → Text → Text
  | _, [] => []
  | inBlank, c :: cs =>
    if isBlank c then
      if inBlank then collapseFrom true cs else .char ' ' :: collapseFrom true cs
    else c :: collapseFrom false cs

/-- Every stretch of white space as one space. -/
def collapseBlanks (text : Text) : Text := collapseFrom false text

/-- The pieces of the text between the occurrences of `mark`, empty ones included. -/
def splitAt (mark : Char) (text : Text) : List Text := Rows.splitAt (Sign.char mark) text

/-- The lines of a text; a text that ends with a line end has an empty last line. -/
def lines (text : Text) : List Text := splitAt '\n' text

/-- The texts as one, with `mark` between them. -/
def joined (mark : Text) (texts : List Text) : Text := List.intercalate mark texts

/-- The lines as one text. -/
def unlines (lines : List Text) : Text := joined "\n" lines

/-! ### Searching and replacing -/

/-- Replaces every occurrence of a non-empty pattern. -/
def replace (pattern new text : Text) : Text := Rows.replace pattern new text

/-- Replaces the first occurrence of a pattern. -/
def replaceFirst (pattern new text : Text) : Text := Rows.replaceFirst pattern new text

/-- Whether `part` occurs in the text. -/
def contains (part text : Text) : Bool := Rows.contains part text

/-- Whether the text begins with `start`. -/
def startsWith (start text : Text) : Bool := start.isPrefixOf text

/-- Whether the text ends with `ending`. -/
def endsWith (ending text : Text) : Bool := ending.isSuffixOf text

/-- A number of copies of a character. -/
def repeated (c : Char) (count : Nat) : Text := List.replicate count (.char c)

/-! ### Case -/

/-- Whether a sigma between the reversed text `before` and the text `after` ends a word: the
nearest sign before it that counts has a case, and the nearest after it has none. -/
def sigmaEndsWord (before after : Text) : Bool :=
  (match before.dropWhile (Sign.meets Letter.isCaseIgnorable) with
    | c :: _ => c.meets Letter.isCased
    | [] => false) &&
  (match after.dropWhile (Sign.meets Letter.isCaseIgnorable) with
    | c :: _ => !c.meets Letter.isCased
    | [] => true)

/-- Small letters, where the reversed text `before` stands in front. -/
def lowerAfter : Text → Text → Text
  | _, [] => []
  | before, c :: cs =>
    (if c = 'Σ' then [.char (if sigmaEndsWord before cs then 'ς' else 'σ')]
      else c.expand Letter.toSmall) ++ lowerAfter (c :: before) cs

/-- The text in small letters. -/
def lower (text : Text) : Text := lowerAfter [] text

/-- The text in capital letters. -/
def upper (text : Text) : Text := text.flatMap (Sign.expand Letter.toCapital)

/-- The text with its first sign in capital letters. -/
def upperFirst : Text → Text
  | [] => []
  | c :: cs => c.expand Letter.toCapital ++ cs

/-- The text with its first sign in small letters. -/
def lowerFirst : Text → Text
  | [] => []
  | c :: cs => lower [c] ++ cs

/-- Whether the first sign of a text is a character with a property. -/
def firstMeets (p : Char → Bool) : Text → Bool
  | c :: _ => c.meets p
  | [] => false

end NodeForge.Text
