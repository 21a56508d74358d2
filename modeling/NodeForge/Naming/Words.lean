import NodeForge.Text.Basic

/-!
# Words of identifiers

Names come as camel case, snake case, kebab case or plain text. `words` cuts a name into its words
and the case functions join them again. A word is a stretch of ASCII letters and digits; within
such a stretch a new word begins at a capital after a small letter or digit, and at the last
capital of a run of capitals that a small letter follows (`parseHTTPBody` is `parse HTTP Body`).
-/

namespace NodeForge.Naming

/-! ### Cutting -/

/-- An ASCII letter or digit. -/
def isWordSign (s : Sign) : Bool := s.meets Letter.isAsciiAlnum

/-- Whether the text goes on with a small ASCII letter. -/
def startsSmall (text : Text) : Bool := Text.firstMeets Letter.isAsciiSmall text

/-- Whether a new word begins between the letter or digit `c` and the text `next`. -/
def isBoundary (c : Sign) : Text → Bool
  | [] => true
  | d :: rest =>
    !isWordSign d ||
      ((c.meets Letter.isAsciiSmall || c.meets Char.isDigit) && d.meets Letter.isAsciiCapital) ||
      (c.meets Letter.isAsciiCapital && d.meets Letter.isAsciiCapital && startsSmall rest)

/-- The words of a name. -/
def words : Text → List Text
  | [] => []
  | c :: cs =>
    if !isWordSign c then words cs
    else if isBoundary c cs then [c] :: words cs
    else
      match words cs with
      | [] => [[c]]
      | word :: rest => (c :: word) :: rest

/-- A word with a capital first letter and small letters after it. -/
def capitalize : Text → Text
  | [] => []
  | c :: cs => c.mapChar Char.toUpper :: cs.map (Sign.mapChar Char.toLower)

/-- A word in small letters. -/
def small (word : Text) : Text := word.map (Sign.mapChar Char.toLower)

/-! ### Joining -/

/-- The words as camel case: `firstName`. -/
def camelOf : List Text → Text
  | [] => []
  | head :: rest => small head ++ (rest.map capitalize).flatten

/-- The name in camel case: `firstName`. -/
def camel (name : Text) : Text := camelOf (words name)

/-- The name in Pascal case: `FirstName`. -/
def pascal (name : Text) : Text := ((words name).map capitalize).flatten

/-- The name with spaced capitalized words: `First Name`. -/
def capital (name : Text) : Text := Text.joined " " ((words name).map capitalize)

/-- The name in snake case: `first_name`. -/
def snake (name : Text) : Text := Text.joined "_" ((words name).map small)

/-- The name in kebab case: `first-name`. -/
def kebab (name : Text) : Text := Text.joined "-" ((words name).map small)

/-- The name of a field: the name in camel case, or the name itself if it has no words. -/
def field (name : Text) : Text :=
  let folded := camel name
  if folded.isEmpty then name else folded

/-! ### Laws -/

@[simp] theorem words_nil : words [] = [] := rfl

theorem words_cons_of_not {c : Sign} {cs : Text} (h : isWordSign c = false) :
    words (c :: cs) = words cs := by
  simp [words, h]

/-- No word is empty. -/
theorem ne_nil_of_mem_words {text word : Text} (h : word ∈ words text) : word ≠ [] := by
  induction text generalizing word with
  | nil => simp at h
  | cons c cs ih =>
    unfold words at h
    split at h
    · exact ih h
    · split at h
      · rcases List.mem_cons.1 h with rfl | h
        · simp
        · exact ih h
      · split at h
        · simp only [List.mem_singleton] at h
          simp [h]
        · next w rest hw =>
          rcases List.mem_cons.1 h with rfl | h
          · simp
          · exact ih (hw ▸ List.mem_cons_of_mem _ h)

end NodeForge.Naming
