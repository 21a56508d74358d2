import Mathlib.Data.List.TakeWhile
import NodeForge.Outline.Staging
import NodeForge.Proofs.Naming.Refolding
import NodeForge.Proofs.Source.Chains
import NodeForge.Proofs.Source.Exports
import NodeForge.Proofs.Source.Reach
import NodeForge.Proofs.Source.Tokens
import NodeForge.Proofs.Text.Rows
import NodeForge.Store.Path

/-!
# Names that keep within bounds

The names of a service, its resources and their operations are free text, and they come up in the
paths of the files and in the literals that the generated code tests and offers. All of them are
folded before: a word is made of ASCII letters and digits, and putting it in capitals or small
letters keeps it so. Hence a path leads into the folder that it is joined to
(`IsPath.exists_names`), a literal that is tested is made of letters and digits, and so is the
value of an option.

The descriptions of the options are not folded. The code gives the values of the options and
whatever a description gives that cannot stand between quotes (`givesValue_optionsLines_iff`), and
the description of an operation may be made from its id.
-/

namespace NodeForge.Source

/-! ### ASCII letters and digits -/

/-- Whether a text is made of ASCII letters and digits alone. -/
def IsAlphanumeric (text : Text) : Prop :=
  ∀ s ∈ text, (0x30 ≤ s.code ∧ s.code ≤ 0x39) ∨ (0x41 ≤ s.code ∧ s.code ≤ 0x5A) ∨
    (0x61 ≤ s.code ∧ s.code ≤ 0x7A)

theorem IsWordText.isAlphanumeric {text : Text} (h : IsWordText text) : IsAlphanumeric text := by
  intro s hs
  exact Naming.forall_wordSign (P := fun s => Naming.isWordSign s = true →
    (0x30 ≤ s.code ∧ s.code ≤ 0x39) ∨ (0x41 ≤ s.code ∧ s.code ≤ 0x5A) ∨
      (0x61 ≤ s.code ∧ s.code ≤ 0x7A)) (by decide) (h s hs) (h s hs)

theorem isAlphanumeric_literal (name : Text) : IsAlphanumeric (literal name) :=
  (isWordText_camel name).isAlphanumeric

theorem IsAlphanumeric.notMem {text : Text} (h : IsAlphanumeric text) {s : Sign}
    (hs : s.code < 0x30) : s ∉ text := by
  intro hmem
  have hcode := h s hmem
  omega

/-! ### Paths -/

/-- The forms that the path of a generated file can have. -/
inductive IsPath : Text → Prop
  | imports {name : Text} (hname : IsAlphanumeric name) : IsPath (name ++ ".imports.ts")
  | dispatch {name : Text} (hname : IsAlphanumeric name) : IsPath (name ++ ".execute.ts")
  | index : IsPath "descriptions/index.ts"
  | description {name : Text} (hname : IsAlphanumeric name) :
    IsPath ("descriptions/" ++ name ++ "Description.ts")

/-- A text that does not start with a slash leads from wherever it is joined. -/
theorem rootOf_cons {c : Sign} (hc : c ≠ .char '/') (cs : Text) : Path.rootOf (c :: cs) = [] := by
  have hfront : (c == Sign.char '/') = false := beq_eq_false_iff_ne.2 hc
  simp [Path.rootOf, hfront, Text.ofString]

/-- A text without slashes and with more than two signs is a single name on a path. -/
theorem ofText_of_notMem {text : Text} (h : Sign.char '/' ∉ text) (hlength : 2 < text.length) :
    Path.ofText text = ⟨[], [text]⟩ := by
  have hne : text ≠ [] := by
    rintro rfl
    simp at hlength
  have hpoint : text ≠ Text.ofString "." := by
    intro heq
    rw [heq] at hlength
    exact absurd hlength (by decide)
  obtain ⟨c, cs, rfl⟩ := List.exists_cons_of_ne_nil hne
  have hc : c ≠ .char '/' := fun heq => h (heq ▸ List.mem_cons_self)
  have hroot : Path.rootOf (c :: cs) = [] := rootOf_cons hc cs
  rw [Path.ofText, hroot, Text.splitAt, Rows.splitAt_of_notMem h]
  simp [hpoint]

/-- A path of two names. -/
theorem ofText_append {folder file : Text} (hfolder : Path.ofText folder = ⟨[], [folder]⟩)
    (hfile : Path.ofText file = ⟨[], [file]⟩) (hslash : Sign.char '/' ∉ folder)
    (hne : folder ≠ []) : Path.ofText (folder ++ .char '/' :: file) = ⟨[], [folder, file]⟩ := by
  obtain ⟨c, cs, rfl⟩ := List.exists_cons_of_ne_nil hne
  have hc : c ≠ .char '/' := fun heq => hslash (heq ▸ List.mem_cons_self)
  have hroot : Path.rootOf (c :: cs ++ .char '/' :: file) = [] := rootOf_cons hc _
  have hnames (text : Text) : (Path.ofText text).names =
      (Text.splitAt '/' text).filter fun n : Text => !n.isEmpty && n != Text.ofString "." := rfl
  have hfront := hnames (c :: cs)
  have hbehind := hnames file
  rw [hfolder, Text.splitAt, Rows.splitAt_of_notMem hslash] at hfront
  rw [hfile] at hbehind
  rw [Path.ofText, hroot, Text.splitAt, Rows.splitAt_append_mark hslash, ← Text.splitAt,
    ← List.singleton_append, List.filter_append, ← hfront, ← hbehind]
  rfl

/-- **Paths.** The path of a generated file consists of one or two names, none of which leads
back. -/
theorem IsPath.exists_names {path : Text} (h : IsPath path) :
    ∃ names : List Text, Path.ofText path = ⟨[], names⟩ ∧ names ≠ [] ∧
      Text.ofString ".." ∉ names := by
  have hsingle {name : Text} (hname : IsAlphanumeric name) (ending : Text)
      (hslash : Sign.char '/' ∉ ending) (hlength : 2 < ending.length) :
      Path.ofText (name ++ ending) = ⟨[], [name ++ ending]⟩ ∧
        Text.ofString ".." ≠ name ++ ending := by
    have hboth : 2 < (name ++ ending).length := by
      rw [List.length_append]
      omega
    refine ⟨ofText_of_notMem ?_ hboth, fun heq => ?_⟩
    · rw [List.mem_append, not_or]
      exact ⟨hname.notMem (by decide), hslash⟩
    · rw [← heq] at hboth
      exact absurd hboth (by decide)
  cases h with
  | imports hname =>
    obtain ⟨htext, hback⟩ := hsingle hname ".imports.ts" (by decide) (by decide)
    exact ⟨_, htext, by simp, by simpa using hback⟩
  | dispatch hname =>
    obtain ⟨htext, hback⟩ := hsingle hname ".execute.ts" (by decide) (by decide)
    exact ⟨_, htext, by simp, by simpa using hback⟩
  | index => exact ⟨["descriptions", "index.ts"], by decide, by decide, by decide⟩
  | @description name hname =>
    obtain ⟨htext, hback⟩ := hsingle hname "Description.ts" (by decide) (by decide)
    have hfolder : Path.ofText "descriptions" = ⟨[], ["descriptions"]⟩ := by decide
    have hwhole : ("descriptions/" ++ name ++ "Description.ts" : Text) = Text.ofString
        "descriptions" ++ Sign.char '/' :: (name ++ Text.ofString "Description.ts") := by
      simp [Text.ofString]
    rw [hwhole]
    refine ⟨_, ofText_append hfolder htext (by decide) (by decide), by simp, ?_⟩
    rw [List.mem_cons, List.mem_singleton, not_or]
    exact ⟨by decide, hback⟩

theorem isPath_of_mem_mainFiles {m : NodeModel} {dispatch : Lines} {file : File}
    (h : file ∈ mainFiles m dispatch) : IsPath file.1 := by
  have hname : IsAlphanumeric (Naming.pascal m.service.serviceName) :=
    (isWordText_pascal _).isAlphanumeric
  simp only [mainFiles, List.mem_cons, List.not_mem_nil, or_false] at h
  rcases h with rfl | rfl | rfl
  · exact .imports hname
  · exact .dispatch hname
  · exact .index

theorem isPath_descriptionPath (resource : Text) : IsPath (descriptionPath resource) := by
  have hpath : descriptionPath resource =
      "descriptions/" ++ Naming.pascal resource ++ "Description.ts" := by
    simp [descriptionPath, descriptionModule, Text.ofString]
  rw [hpath]
  exact .description (isWordText_pascal resource).isAlphanumeric

theorem isPath_of_mem_filesOf {m : NodeModel} {files : List File} (h : filesOf m = .ok files)
    {file : File} (hfile : file ∈ files) : IsPath file.1 := by
  obtain ⟨dispatch, descriptions, -, hdescriptions, rfl⟩ := filesOf_eq_ok.1 h
  have hmem := Entries.mem_of_mem_ofList hfile
  rcases List.mem_append.1 hmem with hmain | hdescription
  · exact isPath_of_mem_mainFiles hmain
  · obtain ⟨r, -, hr⟩ := Outcome.exists_left_of_mem (Outcome.mapM_eq_ok.1 hdescriptions)
      hdescription
    obtain ⟨lines, -, hr⟩ := Outcome.bind_eq_ok.1 hr
    rw [Outcome.pure_eq_ok] at hr
    rw [← hr]
    exact isPath_descriptionPath r.1

/-! ### Tests -/

/-- A branch is one line with one test in it. -/
theorem lines_of_tested {f : Fragment} {subject : Subject} {value : Text}
    (h : f.tested = some (subject, value)) : ∃ front : Text, (front = [] ∨ front = "\x7d else ") ∧
      f.lines = [Fragment.indentOf subject ++ front ++ "if (" ++ Fragment.variableOf subject ++
        " === '" ++ value ++ "') \x7b"] := by
  cases f with
  | close _ _ => cases h
  | branch subject' literal first =>
    obtain ⟨rfl, rfl⟩ : subject' = subject ∧ literal = value := by simpa [Fragment.tested] using h
    cases first with
    | true => exact ⟨[], Or.inl rfl, rfl⟩
    | false => exact ⟨"\x7d else ", Or.inr rfl, rfl⟩

/-- Every branch of a dispatch tests the literal of a name. -/
theorem exists_literal_of_tested {withErrors : Bool} {resources : List (Text × List Operation)}
    {f : Fragment} (hf : f ∈ dispatchFragments withErrors resources) {subject : Subject}
    {value : Text} (h : f.tested = some (subject, value)) : ∃ name, value = literal name := by
  have hclose {end? : Option Fragment} (hmem : f ∈ end?.toList)
      (hend : ∀ g, end? = some g → g.tested = none) : False := by
    have hnone := hend f (Option.mem_toList.1 hmem)
    rw [h] at hnone
    cases hnone
  obtain ⟨r, -, hf⟩ := List.mem_flatMap.1 hf
  rw [List.cons_append, List.mem_cons, List.mem_append] at hf
  rcases hf with rfl | hf | hf
  · refine ⟨r.1, ?_⟩
    simp only [resourceBranch, Fragment.tested, Option.some.injEq, Prod.mk.injEq] at h
    exact h.2.symm
  · obtain ⟨o, -, hf⟩ := List.mem_flatMap.1 hf
    rcases List.mem_cons.1 hf with rfl | hf
    · refine ⟨o.operationId, ?_⟩
      simp only [operationBranch, Fragment.tested, Option.some.injEq, Prod.mk.injEq] at h
      exact h.2.symm
    · refine (hclose hf fun g hg => ?_).elim
      unfold operationEnd? at hg
      split at hg <;> cases hg
      rfl
  · refine (hclose hf fun g hg => ?_).elim
    unfold resourceEnd? at hg
    split at hg <;> cases hg
    rfl

/-! ### Options -/

section Options

variable {o : Operation} {text value : Text}

/-- A text without quotes, backslashes and line ends can stand between quotes. -/
theorem isQuotable_of_notMem (hquote : Sign.char '\'' ∉ text) (hslash : Sign.char '\\' ∉ text)
    (hreturn : Sign.char '\r' ∉ text) (hfeed : Sign.char '\n' ∉ text) : IsQuotable text where
  quotes before behind heq := absurd (heq ▸ by simp) hquote
  ending := by
    have hnone : text.reverse.takeWhile (· == Sign.char '\\') = [] := by
      rw [List.eq_nil_iff_forall_not_mem]
      intro s hs
      have hmem := List.mem_reverse.1 ((List.takeWhile_sublist _).mem hs)
      have hs : (s == Sign.char '\\') = true := List.mem_takeWhile_imp (p := (· == _)) hs
      exact hslash (beq_iff_eq.1 hs ▸ hmem)
    rw [backslashesAtEnd, hnone]
    rfl
  noReturn := hreturn
  noFeed := hfeed

theorem mem_joined {mark : Text} {texts : List Text} {s : Sign} (h : s ∈ Text.joined mark texts) :
    s ∈ mark ∨ ∃ text ∈ texts, s ∈ text := by
  induction texts with
  | nil => cases h
  | cons text rest ih =>
    cases rest with
    | nil =>
      rw [Text.joined, List.intercalate_singleton] at h
      exact Or.inr ⟨text, List.mem_cons_self, h⟩
    | cons next rest =>
      rw [Text.joined, List.intercalate_cons_cons, List.mem_append, List.mem_append] at h
      rcases h with (h | h) | h
      · exact Or.inr ⟨text, List.mem_cons_self, h⟩
      · exact Or.inl h
      · obtain hmark | ⟨own, hown, hs⟩ := ih h
        · exact Or.inl hmark
        · exact Or.inr ⟨own, List.mem_cons_of_mem _ hown, hs⟩

/-- The titles of the operations are letters, digits and blanks. -/
theorem isQuotable_capital (name : Text) : IsQuotable (Naming.capital name) := by
  have hsigns : ∀ s ∈ Naming.capital name, Naming.isWordSign s = true ∨ s = .char ' ' := by
    intro s hs
    rcases mem_joined hs with hblank | ⟨word, hword, hs⟩
    · exact Or.inr (List.mem_singleton.1 hblank)
    · obtain ⟨own, hown, rfl⟩ := List.mem_map.1 hword
      rw [← Naming.capitalize_small (Naming.isWordSign_of_mem_words hown)] at hs
      exact Or.inl (Naming.isWordSign_of_mem_capitalize (Naming.isSmallWord_small hown) hs)
  have hother {s : Sign} (hword : Naming.isWordSign s = false) (hblank : s ≠ .char ' ') :
      s ∉ Naming.capital name := by
    intro hs
    rcases hsigns s hs with h | h
    · exact Bool.false_ne_true (hword.symm.trans h)
    · exact hblank h
  exact isQuotable_of_notMem (hother (by decide) (by decide)) (hother (by decide) (by decide))
    (hother (by decide) (by decide)) (hother (by decide) (by decide))

theorem IsWordText.isQuotable (h : IsWordText text) : IsQuotable text :=
  isQuotable_of_notMem (h.not_mem (by decide)) (h.not_mem (by decide)) (h.not_mem (by decide))
    (h.not_mem (by decide))

/-- The lines of an option that hold free text. -/
def freeLines (o : Operation) : Lines :=
  textLines "description" o.description ++ textLines "action" o.summary

/-- The free texts of an operation. -/
def IsFreeText (o : Operation) (text : Text) : Prop :=
  o.description = some text ∨ o.summary = some text

/-- The tokens of an option in front of its last mark. -/
def optionTokens (o : Operation) : List Token :=
  [] ++ .mark (.char '\x7b') :: (keyTokens "name" (Naming.capital o.operationId) ++
    .mark (.char ',') :: (keyTokens "value" (literal o.operationId) ++
    .mark (.char ',') :: ((freeLines o).flatMap tokens ++ .mark (.char '\x7d') :: [])))

theorem flatMap_tokens_optionLines (o : Operation) :
    (optionLines o).flatMap tokens = optionTokens o ++ [.mark (.char ',')] := by
  have hname := tokens_quotedLine (by decide : IsWordText "name") (by decide)
    (isQuotable_capital o.operationId)
  have hvalue := tokens_quotedLine (by decide : IsWordText "value") (by decide)
    (isWordText_camel o.operationId).isQuotable
  have hopen : tokens "\x7b" = [.mark (.char '\x7b')] := by decide
  have hclose : tokens "\x7d," = [.mark (.char '\x7d'), .mark (.char ',')] := by decide
  rw [optionLines_eq]
  simp only [code, List.flatten_cons, List.flatten_nil, List.append_nil, List.flatMap_append,
    List.flatMap_cons, List.flatMap_nil, hopen, hclose, hname, hvalue, literal]
  simp [optionTokens, freeLines, literal]

/-- An option gives the literal of its id and whatever its free texts give. -/
theorem keyTokens_isInfix_optionTokens : keyTokens "value" value <:+: optionTokens o ↔
    value = literal o.operationId ∨ GivesValue (Text.unlines (freeLines o)) value := by
  have hkey : Text.ofString "value" ≠ "name" := by decide
  rw [optionTokens, keyTokens_isInfix_append (by decide), keyTokens_isInfix_append (by decide),
    keyTokens_isInfix_append (by decide), keyTokens_isInfix_append (by decide),
    keyTokens_isInfix_iff, keyTokens_isInfix_iff, GivesValue, tokens_unlines]
  simp [hkey]

theorem givesValue_optionsLines_iff {operations : List Operation} :
    GivesValue (Text.unlines (optionsLines operations)) value ↔ ∃ o ∈ operations,
      value = literal o.operationId ∨ GivesValue (Text.unlines (freeLines o)) value := by
  have hrow (row : List Operation) :
      keyTokens "value" value <:+: (row.flatMap optionLines).flatMap tokens ↔
        ∃ o ∈ row, keyTokens "value" value <:+: optionTokens o := by
    induction row with
    | nil => simp
    | cons o rest ih =>
      rw [List.flatMap_cons, List.flatMap_append, flatMap_tokens_optionLines, List.append_assoc,
        List.singleton_append, keyTokens_isInfix_append (by decide), ih]
      simp
  have hsorted : (∃ o ∈ Operation.sortedById operations,
      keyTokens "value" value <:+: optionTokens o) ↔
      ∃ o ∈ operations, keyTokens "value" value <:+: optionTokens o := by
    simp only [Operation.sortedById, (List.mergeSort_perm _ _).mem_iff]
  simp only [← keyTokens_isInfix_optionTokens]
  rw [GivesValue, tokens_unlines, ← hsorted, ← hrow]
  unfold optionsLines
  split
  · next hnil =>
    rw [hnil]
    rfl
  · rfl

/-- A text that can stand between quotes gives no value, whatever lines come behind its own. -/
theorem keyTokens_isInfix_textLines {key : Text} {text? : Option Text} (hkey : IsWordText key)
    (hne : key ≠ []) (hvalue : Text.ofString "value" ≠ key)
    (h : ∀ text, text? = some text → IsQuotable text) (behind : List Token) :
    keyTokens "value" value <:+: (textLines key text?).flatMap tokens ++ behind ↔
      keyTokens "value" value <:+: behind := by
  cases text? with
  | none => rfl
  | some text =>
    unfold textLines
    dsimp only
    split
    · rfl
    · rw [List.flatMap_singleton, tokens_quotedLine hkey hne (h text rfl), List.append_assoc,
        List.singleton_append, keyTokens_isInfix_append (by decide), keyTokens_isInfix_iff]
      simp [hvalue]

/-- A free text that can stand between quotes gives no value. -/
theorem not_givesValue_freeLines (h : ∀ text, IsFreeText o text → IsQuotable text) :
    ¬ GivesValue (Text.unlines (freeLines o)) value := by
  rw [GivesValue, tokens_unlines, freeLines, List.flatMap_append,
    keyTokens_isInfix_textLines (by decide) (by decide) (by decide)
      fun text htext => h text (Or.inl htext)]
  rw [← List.append_nil (List.flatMap tokens _),
    keyTokens_isInfix_textLines (by decide) (by decide) (by decide)
      fun text htext => h text (Or.inr htext)]
  simp

end Options

/-! ### All names -/

/-- Whether the names of a model keep within bounds in the code that is generated for it. -/
structure IsConfined (m : NodeModel) : Prop where
  /-- Every file has a path of a known form, which leads from any folder into that folder. -/
  paths : ∀ files, filesOf m = .ok files → ∀ file ∈ files, IsPath file.1 ∧
    ∀ output : Path, ∃ names : List Text,
      output.join (.ofText file.1) = ⟨output.root, output.names ++ names⟩ ∧ names ≠ [] ∧
        Text.ofString ".." ∉ names
  /-- The dispatch is written by its fragments, and each of them that tests anything is one line in
  which it tests a literal of letters and digits. -/
  tests : ∀ helper withErrors lines, dispatchLines helper withErrors m.resources = .ok lines →
    IsWritten helper lines (dispatchFragments withErrors m.resources) ∧
    ∀ f ∈ dispatchFragments withErrors m.resources,
    ∀ subject value, f.tested = some (subject, value) → IsAlphanumeric value ∧
      ∃ front : Text, (front = [] ∨ front = "\x7d else ") ∧
        f.lines = [Fragment.indentOf subject ++ front ++ "if (" ++ Fragment.variableOf subject ++
          " === '" ++ value ++ "') \x7b"]
  /-- The branches of a resource and of an operation, wherever they are in their chains, test
  literals of letters and digits. -/
  branches : ∀ r ∈ m.resources, (∃ value first, IsAlphanumeric value ∧
      resourceBranch (Entries.keys m.resources) r.1 = .branch .resource value first) ∧
    ∀ o ∈ r.2, ∃ value first, IsAlphanumeric value ∧
      operationBranch r.2 o = .branch .operation value first
  /-- The options of a resource give the literals of its operations, and beside them what their free
  texts give where these are read as code. -/
  values_iff : ∀ r ∈ m.resources, ∀ value,
    GivesValue (Text.unlines (optionsLines r.2)) value ↔ ∃ o ∈ r.2,
      value = literal o.operationId ∨ GivesValue (Text.unlines (freeLines o)) value
  /-- So they give nothing but letters and digits if the free texts can stand between quotes. -/
  values : ∀ r ∈ m.resources, (∀ o ∈ r.2, ∀ text, IsFreeText o text → IsQuotable text) →
    ∀ value, GivesValue (Text.unlines (optionsLines r.2)) value → IsAlphanumeric value

/-- **Names within bounds.** Whatever the names of a model are, the paths of its files and the
literals in its code are made of ASCII letters and digits where the names come in. Only a free text
that does not end where its literal should can add other values. -/
theorem isConfined_of_model (m : NodeModel) : IsConfined m where
  paths files h file hfile := by
    have hpath := isPath_of_mem_filesOf h hfile
    obtain ⟨names, hnames, hne, hback⟩ := hpath.exists_names
    exact ⟨hpath, fun output => ⟨names, by rw [hnames]; rfl, hne, hback⟩⟩
  tests helper withErrors lines h := by
    refine ⟨isWritten_dispatchLines h, fun f hf subject value htested => ?_⟩
    obtain ⟨name, rfl⟩ := exists_literal_of_tested hf htested
    exact ⟨isAlphanumeric_literal name, lines_of_tested htested⟩
  branches r _ :=
    ⟨⟨literal r.1, _, isAlphanumeric_literal r.1, rfl⟩,
      fun o _ => ⟨literal o.operationId, _, isAlphanumeric_literal o.operationId, rfl⟩⟩
  values_iff _ _ _ := givesValue_optionsLines_iff
  values r _ htexts value hvalue := by
    obtain ⟨o, ho, rfl | hfree⟩ := givesValue_optionsLines_iff.1 hvalue
    · exact isAlphanumeric_literal o.operationId
    · exact absurd hfree (not_givesValue_freeLines (htexts o ho))

/-- Points, slashes and quotes in a name do not come up in the paths. -/
example : (filesOf ⟨⟨"../shop's", .anonymous, [], []⟩,
      [("../../étc/pass'wd", [])]⟩).toOption.map (List.map Prod.fst) =
    some [Text.ofString "ShopS.imports.ts", Text.ofString "ShopS.execute.ts",
      Text.ofString "descriptions/index.ts",
      Text.ofString "descriptions/TcPassWdDescription.ts"] := by
  decide +kernel

/-- A schema with an operation id that has quotes in it. -/
def quotedShop : Value :=
  .record [("metaParams", .record [("serviceName", .str "Shop")]),
    ("mainParams", .record [("pet", .list [.record [("endpoint", .str "/pets"),
      ("requestMethod", .str "POST"),
      ("operationId", .str "add', value: '../../evil', action: 'go")]])])]

theorem not_isAlphanumeric_quotedShop : ∃ m, Outline.stage id true quotedShop = .ok m ∧
    ∃ r ∈ m.resources, ∃ value, GivesValue (Text.unlines (optionsLines r.2)) value ∧
      ¬ IsAlphanumeric value := by
  obtain ⟨m, hm, hvalue⟩ := Outcome.exists_ok_of_any (by decide +kernel :
    (Outline.stage id true quotedShop).toOption.any (fun m => decide (∃ r ∈ m.resources,
      GivesValue (Text.unlines (optionsLines r.2)) "../../evil")) = true)
  obtain ⟨r, hr, hgives⟩ := of_decide_eq_true hvalue
  refine ⟨m, hm, r, hr, "../../evil", hgives, fun h => ?_⟩
  exact h.notMem (s := .char '.') (by decide) (by decide)

end NodeForge.Source
