import Mathlib.Algebra.Group.Nat.Defs
import NodeForge.Proofs.Document.Spelling
import NodeForge.Proofs.Outcome
import NodeForge.Proofs.Text.Rows
import NodeForge.Reference.Pointer

/-!
# Written ways

A way to a node takes a key of a mapping or a place in a list at each step. It is written as a
reference by joining its steps with slashes, once every tilde in a key is written `~0` and every
slash `~1`, and places in decimal. Following that reference leads to the node that the way leads to
(`target_written`).

A written key has no slash and is not empty, so the reference is cut where the steps were joined
(`steps_written`); and `unescape` undoes the two replacements (`unescape_token`), as it takes `~1`
first, and a `~0` that stood for the tilde before a `1` holds none.
-/

namespace NodeForge.Reference

/-! ### Ways -/

/-- A step on a way: to the value under a key of a mapping, or to a place in a list. -/
inductive Step where
  | key (k : Text)
  | place (n : Nat)
deriving Repr, DecidableEq

/-- Whether a way leads from a value to a node, where `enter` prepares a node for the parts of it
that are gone into. -/
inductive Leads (enter : Value → Value) : Value → List Step → Value → Prop
  | here (node : Value) : Leads enter node [] node
  | key {v : Value} {es : Fields} {k : Text} {next node : Value} {way : List Step} :
      enter v = .map es → k ≠ [] → Fields.get? k es = some next → Leads enter next way node →
      Leads enter v (.key k :: way) node
  | place {v : Value} {items : List Value} {n : Nat} {next node : Value} {way : List Step} :
      enter v = .list items → items[n]? = some next → Leads enter next way node →
      Leads enter v (.place n :: way) node

namespace Step

/-- A step as it is written in a reference. -/
def token : Step → Text
  | key k => Text.replace "/" "~1" (Text.replace "~" "~0" k)
  | place n => Numeral.ofNat n

/-- A step as the text that a token stands for. -/
def text : Step → Text
  | key k => k
  | place n => Numeral.ofNat n

/-- Whether a step can be read back: numbers of too many digits are not read. -/
def isReadable : Step → Bool
  | key _ => true
  | place n => n < 10 ^ Digits.longest

end Step

/-- The reference that a way is written as. -/
def written (way : List Step) : Text := ("#/" : Text) ++ Text.joined "/" (way.map Step.token)

/-! ### Keys -/

/-- The key with its tildes written out and its slashes as they are. -/
def tildesEscaped (key : Text) : Text :=
  key.flatMap fun (c : Sign) => if c = '~' then ("~0" : Text) else [c]

theorem replace_tilde (key : Text) : Text.replace "~" "~0" key = tildesEscaped key := by
  refine (Rows.replace_singleton key).trans ?_
  simp only [beq_iff_eq]
  rfl

theorem replace_slash_tildesEscaped (key : Text) :
    Text.replace "/" "~1" (tildesEscaped key) = escape key := by
  refine (Rows.replace_singleton _).trans ?_
  rw [tildesEscaped, List.flatMap_assoc]
  refine List.flatMap_congr fun c _ => ?_
  by_cases hc : c = '~'
  · rw [if_pos hc, if_pos hc]
    rfl
  · rw [if_neg hc, if_neg hc, List.flatMap_singleton]
    simp only [beq_iff_eq]
    rfl

/-- Both replacements together take one sign of a key after the other. -/
theorem token_key (key : Text) : (Step.key key).token = escape key := by
  rw [Step.token, replace_tilde, replace_slash_tildesEscaped]

/-- Undoing either replacement passes over a sign that is no tilde. -/
theorem replace_cons_of_ne {c : Sign} (hc : c ≠ '~') (d : Char) (new cs : Text) :
    Text.replace [.char '~', .char d] new (c :: cs) =
      c :: Text.replace [.char '~', .char d] new cs :=
  Rows.replaceFrom_of_notMem (fun h => hc (List.mem_singleton.1 h).symm) cs

theorem replace_escape (key : Text) : Text.replace "~1" "/" (escape key) = tildesEscaped key := by
  induction key with
  | nil => rfl
  | cons c cs ih =>
    rw [escape, tildesEscaped, List.flatMap_cons, List.flatMap_cons, ← escape, ← tildesEscaped,
      ← ih]
    by_cases htilde : c = '~'
    · -- what follows the tilde is no `1`
      subst htilde
      rfl
    · rw [if_neg htilde, if_neg htilde]
      by_cases hslash : c = '/'
      · rw [if_pos hslash, hslash]
        exact @Rows.replaceFrom_pattern Sign _ '~' ['1'] "/" _ (escape cs)
      · rw [if_neg hslash]
        exact replace_cons_of_ne htilde '1' "/" (escape cs)

theorem replace_tildesEscaped (key : Text) : Text.replace "~0" "~" (tildesEscaped key) = key := by
  induction key with
  | nil => rfl
  | cons c cs ih =>
    rw [tildesEscaped, List.flatMap_cons, ← tildesEscaped]
    by_cases htilde : c = '~'
    · rw [if_pos htilde, htilde]
      exact (@Rows.replaceFrom_pattern Sign _ '~' ['0'] "~" _ (tildesEscaped cs)).trans
        (congrArg _ ih)
    · rw [if_neg htilde]
      exact (replace_cons_of_ne htilde '0' "~" (tildesEscaped cs)).trans (congrArg _ ih)

/-- Escaping loses nothing. -/
theorem unescape_escape (key : Text) : unescape (escape key) = key := by
  rw [unescape, replace_escape, replace_tildesEscaped]

theorem slash_notMem_escape (key : Text) : Sign.char '/' ∉ escape key := by
  intro h
  obtain ⟨c, -, hc⟩ := List.mem_flatMap.1 h
  split at hc
  · exact absurd hc (by decide)
  · split at hc
    · exact absurd hc (by decide)
    · next hslash => exact hslash (List.mem_singleton.1 hc).symm

theorem escape_ne_nil {key : Text} (h : key ≠ []) : escape key ≠ [] := by
  intro hnil
  apply h
  rw [← unescape_escape key, hnil]
  rfl

/-! ### Places -/

theorem notMem_ofNat {c : Char} (hc : c.isDigit = false) (n : Nat) :
    Sign.char c ∉ Numeral.ofNat n := by
  intro h
  obtain ⟨d, hd, heq⟩ := Numeral.isDigit_of_mem_ofNat h
  rw [Sign.char.inj heq, hd] at hc
  cases hc

theorem decimalValue?_of_isDigit {c : Char} (h : c.isDigit = true) :
    Letter.decimalValue? c = some (c.toNat - 48) := by
  have hsmall : c.toNat < 0x80 := by
    have hbounds := h
    rw [Char.isDigit, Bool.and_eq_true, decide_eq_true_iff, decide_eq_true_iff] at hbounds
    have hlast : c.toNat ≤ 57 := hbounds.2
    omega
  rw [Letter.decimalValue?, if_pos hsmall, if_pos h]

/-- A written place is a numeral. -/
theorem isNumeral_ofNat (n : Nat) : isNumeral (Numeral.ofNat n) = true := by
  rw [isNumeral, Bool.and_eq_true, List.all_eq_true]
  constructor
  · rw [Numeral.ofNat_eq_map]
    simp
  · intro s hs
    obtain ⟨c, hc, rfl⟩ := Numeral.isDigit_of_mem_ofNat hs
    rw [Sign.meets, Letter.isDigit, decimalValue?_of_isDigit hc]
    rfl

theorem mapM_decimalValue? {cs : List Char} (h : ∀ c ∈ cs, c.isDigit = true) :
    (cs.map Sign.char).mapM (fun s => orFault .badContent (s.char?.bind Letter.decimalValue?)) =
      .ok (cs.map fun c => c.toNat - 48) := by
  rw [Outcome.mapM_eq_ok, List.forall₂_map_left_iff, List.forall₂_map_right_iff, List.forall₂_same]
  intro c hc
  rw [Outcome.orFault_eq_ok]
  exact decimalValue?_of_isDigit (h c hc)

/-- A written place is read back, unless it has too many digits. -/
theorem placeOf_ofNat (n : Nat) :
    placeOf (Numeral.ofNat n) =
      if n < 10 ^ Digits.longest then .ok n else .error .badContent := by
  have hlength : (Numeral.ofNat n).length ≤ Digits.longest ↔ n < 10 ^ Digits.longest := by
    rw [Numeral.ofNat_eq_map, List.length_map]
    exact Nat.length_toDigits_le_iff (by decide) (by decide)
  unfold placeOf
  by_cases hn : n < 10 ^ Digits.longest
  · have hshort : ¬ Digits.longest < (Numeral.ofNat n).length := Nat.not_lt.2 (hlength.2 hn)
    have hdigits : ∀ c ∈ Nat.toDigits 10 n, c.isDigit = true :=
      fun c hc => Nat.isDigit_of_mem_toDigits (by decide) (by decide) hc
    rw [if_neg hshort, if_pos hn, Numeral.ofNat_eq_map, mapM_decimalValue? hdigits]
    refine congrArg Except.ok ?_
    rw [List.foldl_map]
    exact Nat.ofDigitChars_ten_toDigits
  · have hlong : Digits.longest < (Numeral.ofNat n).length := Nat.not_le.1 (mt hlength.1 hn)
    rw [if_pos hlong, if_neg hn]
    rfl

/-! ### Tokens -/

theorem slash_notMem_token (s : Step) : Sign.char '/' ∉ s.token := by
  cases s with
  | key k =>
    rw [token_key]
    exact slash_notMem_escape k
  | place n => exact notMem_ofNat (by decide) n

theorem unescape_of_notMem {text : Text} (h : Sign.char '~' ∉ text) : unescape text = text := by
  have hnone (d : Char) (new : Text) : Text.replace [.char '~', .char d] new text = text := by
    have hrest : Rows.replaceFrom [Sign.char '~', .char d] new 0 (text ++ []) =
        text ++ Rows.replaceFrom [Sign.char '~', .char d] new 0 [] :=
      Rows.replaceFrom_of_notMem h []
    rwa [List.append_nil, Rows.replaceFrom, List.append_nil] at hrest
  exact (congrArg _ (hnone '1' "/")).trans (hnone '0' "~")

theorem unescape_token (s : Step) : unescape s.token = s.text := by
  cases s with
  | key k => rw [token_key, unescape_escape, Step.text]
  | place n => exact unescape_of_notMem (notMem_ofNat (by decide) n)

/-- Whether a step takes a key that is not empty. -/
def Step.isNamed : Step → Bool
  | key k => !k.isEmpty
  | place _ => true

theorem token_ne_nil {s : Step} (h : s.isNamed = true) : s.token ≠ [] := by
  cases s with
  | key k =>
    rw [token_key]
    refine escape_ne_nil fun hnil => ?_
    rw [Step.isNamed, hnil] at h
    cases h
  | place n =>
    rw [Step.token, Numeral.ofNat_eq_map]
    simp

theorem Leads.isNamed {enter : Value → Value} {v node : Value} {way : List Step}
    (h : Leads enter v way node) : ∀ s ∈ way, s.isNamed = true := by
  induction h with
  | here => simp
  | key _ hne _ _ ih => simpa [Step.isNamed, hne] using ih
  | place _ _ _ ih => simpa [Step.isNamed] using ih

/-! ### Following -/

/-- What was joined with slashes is cut there. -/
theorem filter_splitAt_joined {tokens : List Text}
    (h : ∀ token ∈ tokens, token ≠ [] ∧ Sign.char '/' ∉ token) :
    (Rows.splitAt (Sign.char '/') (Text.joined "/" tokens)).filter (!·.isEmpty) = tokens := by
  cases tokens with
  | nil => rfl
  | cons token rest =>
    have hcut : Rows.splitAt (Sign.char '/') (Text.joined "/" (token :: rest)) = token :: rest :=
      Rows.splitAt_intercalate (List.cons_ne_nil _ _) fun piece hpiece => (h piece hpiece).2
    rw [hcut, List.filter_eq_self]
    intro piece hpiece
    simpa using (h piece hpiece).1

/-- The steps of a written way are read back one by one. -/
theorem steps_written {way : List Step} (h : ∀ s ∈ way, s.isNamed = true) :
    steps (written way) = way.map Step.text := by
  have hpath : (written way).dropWhile (· == Sign.char '#') =
      .char '/' :: Text.joined "/" (way.map Step.token) := rfl
  have htokens : ∀ token ∈ way.map Step.token, token ≠ [] ∧ Sign.char '/' ∉ token := by
    intro token htoken
    obtain ⟨s, hs, rfl⟩ := List.mem_map.1 htoken
    exact ⟨token_ne_nil (h s hs), slash_notMem_token s⟩
  have hpieces : (Rows.splitAt (Sign.char '/')
      (.char '/' :: Text.joined "/" (way.map Step.token))).filter (!·.isEmpty) =
        way.map Step.token := by
    -- the slash in front only cuts off an empty piece
    rw [Rows.splitAt, if_pos rfl, List.filter_cons_of_neg (by decide)]
    exact filter_splitAt_joined htokens
  rw [steps, hpath, Text.splitAt, Rows.filter_splitAt_trimWhere, hpieces, List.map_map]
  exact List.map_congr_left fun s _ => unescape_token s

/-- A written place is taken in a list, if it is read back. -/
theorem step_list_ofNat (items : List Value) (n : Nat) :
    step (.list items) (Numeral.ofNat n) =
      if n < 10 ^ Digits.longest then .ok items[n]? else .error .badContent := by
  rw [step, if_pos (isNumeral_ofNat n), placeOf_ofNat]
  by_cases hn : n < 10 ^ Digits.longest
  · rw [if_pos hn, if_pos hn]
    rfl
  · rw [if_neg hn, if_neg hn]
    rfl

theorem follow_text {enter : Value → Value} {v node : Value} {way : List Step}
    (h : Leads enter v way node) (reference : Text) :
    follow enter reference v (way.map Step.text) =
      if way.all Step.isReadable then .ok node else .error (.fault .badContent) := by
  induction h with
  | here => rfl
  | key hmap _ hnext _ ih =>
    rw [List.map_cons, follow, hmap, Step.text, step, hnext]
    exact ih
  | @place v items n next node way hlist hnext _ ih =>
    rw [List.map_cons, follow, hlist, Step.text, step_list_ofNat, List.all_cons, Step.isReadable]
    by_cases hn : n < 10 ^ Digits.longest
    · rw [if_pos hn, decide_eq_true hn, Bool.true_and, hnext]
      exact ih
    · rw [if_neg hn, decide_eq_false hn]
      rfl

/-- **Following a written way.** A reference that is written from a way names the node that the way
leads to, whatever signs its keys have. Only a place with more digits than are read as a number is
not found, and no list is that long. -/
theorem target_written {enter : Value → Value} {document node : Value} {way : List Step}
    (h : Leads enter document way node) :
    target enter document (written way) =
      if way.all Step.isReadable then .ok node else .error (.fault .badContent) := by
  have hlocal : Text.startsWith "#" (written way) = true := rfl
  rw [target, if_pos hlocal, steps_written h.isNamed]
  exact follow_text h (written way)

/-- A document whose keys have the signs that references are written with. -/
def thornyDocument : Value :=
  .record [
    ("#/~1", .record [
      ("\x7bid\x7d/~", .list [
        .null,
        .record [("07", .str "found")]])])]

/-- The way to a value in this document. -/
def thornyWay : List Step := [.key "#/~1", .key "\x7bid\x7d/~", .place 1, .key "07"]

theorem target_thornyWay :
    written thornyWay = "#/#~1~01/\x7bid\x7d~1~0/1/07" ∧
      Leads id thornyDocument thornyWay (.str "found") ∧
      target id thornyDocument (written thornyWay) = .ok (.str "found") := by
  have hleads : Leads id thornyDocument thornyWay (.str "found") :=
    .key rfl (by decide) rfl (.key rfl (by decide) rfl (.place rfl rfl
      (.key rfl (by decide) rfl (.here _))))
  have hone : 1 < 10 ^ Digits.longest := Nat.one_lt_pow (by decide) (by decide)
  have hreadable : thornyWay.all Step.isReadable = true := by
    simp [thornyWay, Step.isReadable, hone]
  exact ⟨by decide, hleads, (target_written hleads).trans (if_pos hreadable)⟩

end NodeForge.Reference
