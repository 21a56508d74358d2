import NodeForge.Text.Letter

/-!
# Texts and their signs

A text is a row of signs. A sign is a character, or one half of a pair of code units whose other
half is missing: escapes of four hexadecimal digits name code units, in which a character beyond
U+FFFF takes two, so an escape can leave half of such a pair alone. Half a pair is no character and
has no properties, but it counts as a sign, has a code and keeps its place in a text.

A string of characters is a text: there is a coercion, and `Text.string?` is its inverse.
-/

namespace NodeForge

/-- What a text is made of: a character, or the half `U+D800 + k` of a pair. -/
inductive Sign where
  | char (c : Char)
  | half (k : Fin 0x800)
deriving Repr, DecidableEq

namespace Sign

instance : Coe Char Sign := ⟨char⟩

instance : Inhabited Sign := ⟨char ' '⟩

/-- The code of the first half of a pair. -/
def firstHalf : Nat := 0xD800

/-- The code of a sign. -/
def code : Sign → Nat
  | char c => c.toNat
  | half k => firstHalf + k.val

/-- The sign with a code. -/
def ofCode (n : Nat) : Sign :=
  if h : firstHalf ≤ n ∧ n - firstHalf < 0x800 then half ⟨n - firstHalf, h.2⟩
  else char (Char.ofNat n)

/-- The character, if the sign is one. -/
def char? : Sign → Option Char
  | char c => some c
  | half _ => none

/-- Whether a sign is half a pair. -/
def isHalf : Sign → Bool
  | char _ => false
  | half _ => true

/-- Whether a sign is a character with a property. -/
def meets (p : Char → Bool) : Sign → Bool
  | char c => p c
  | half _ => false

/-- Changes a character into another one; half a pair stays. -/
def mapChar (f : Char → Char) : Sign → Sign
  | char c => char (f c)
  | half k => half k

/-- Changes a character into a row of characters; half a pair stays. -/
def expand (f : Char → List Char) : Sign → List Sign
  | char c => (f c).map char
  | half k => [half k]

theorem ofCode_code (s : Sign) : ofCode s.code = s := by
  cases s with
  | char c =>
    have h := c.valid
    have hn : ¬(firstHalf ≤ c.toNat ∧ c.toNat - firstHalf < 0x800) := by
      simp only [UInt32.isValidChar, Nat.isValidChar] at h
      simp only [firstHalf, Char.toNat]
      omega
    simp [code, ofCode, hn]
  | half k => simp [code, ofCode, firstHalf, k.isLt]

end Sign

/-- A text: a row of signs. -/
abbrev Text := List Sign

namespace Text

/-- The text of a row of characters. -/
def ofChars (cs : List Char) : Text := cs.map Sign.char

/-- The text of a string. -/
def ofString (s : String) : Text := ofChars s.toList

instance : Coe String Text := ⟨ofString⟩

/-- The characters of a text, if all its signs are characters. -/
def chars? (text : Text) : Option (List Char) := text.mapM Sign.char?

/-- The text as a string, if all its signs are characters. -/
def string? (text : Text) : Option String := text.chars?.map String.ofList

/-- The text as characters, where the replacement character stands for half a pair. -/
def shown (text : Text) : List Char := text.map fun s => s.char?.getD '\ufffd'

/-- Whether a text holds half a pair. -/
def hasHalf (text : Text) : Bool := text.any Sign.isHalf

/-- Whether `a` comes before `b` or is `b`, by the codes of their signs. -/
def atMost : Text → Text → Bool
  | [], _ => true
  | _ :: _, [] => false
  | a :: as, b :: bs => a.code < b.code || (a.code == b.code && atMost as bs)

/-- The texts by the codes of their signs; equal ones keep their order. -/
def sorted (texts : List Text) : List Text := texts.mergeSort atMost

/-! ### Pairs of halves -/

/-- The signs of a row of code units, in which two halves that belong together are one
character. -/
def ofUnits : List Nat → Text
  | [] => []
  | [n] => [Sign.ofCode n]
  | n :: m :: rest =>
    if 0xD800 ≤ n ∧ n < 0xDC00 ∧ 0xDC00 ≤ m ∧ m < 0xE000 then
      Sign.ofCode (0x10000 + (n - 0xD800) * 0x400 + (m - 0xDC00)) :: ofUnits rest
    else Sign.ofCode n :: ofUnits (m :: rest)

/-- The two code units of a character beyond U+FFFF. -/
def unitsOf (n : Nat) : Nat × Nat :=
  (0xD800 + (n - 0x10000) / 0x400, 0xDC00 + (n - 0x10000) % 0x400)

/-! ### Laws -/

@[simp] theorem ofChars_nil : ofChars [] = [] := rfl

@[simp] theorem ofChars_cons (c : Char) (cs : List Char) :
    ofChars (c :: cs) = .char c :: ofChars cs := rfl

theorem chars?_ofChars (cs : List Char) : chars? (ofChars cs) = some cs := by
  induction cs with
  | nil => rfl
  | cons c cs ih =>
    simp only [chars?, ofChars_cons, List.mapM_cons, Sign.char?] at ih ⊢
    simp [ih]

/-- Reading a string back from its text. -/
theorem string?_ofString (s : String) : string? (ofString s) = some s := by
  simp [string?, ofString, chars?_ofChars]

end Text

end NodeForge
