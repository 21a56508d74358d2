import NodeForge.Proofs.Naming.Stems
import NodeForge.Proofs.Source.Fields
import NodeForge.Proofs.Text.Lines
import NodeForge.Source.Files

/-!
# What a file takes and what it offers

The generated code says in its lines which names it takes from a module, which names it exports and
which modules it exports again. `importedFrom`, `exported?` and `reexported?` read this off the
lines of the text of a file, whatever they were written from. The names are folded ones, made of
word signs, so they end where the line says so. Nothing else that is written begins like an export:
what a block of a field holds from outside always stands behind a key of the block
(`isSilent_of_operationFieldLines`). But such a text may hold line ends, and what stands behind them
are lines of the file too. So a description file exports the names of its resource, and what these
stray lines export (`mem_exportedIn_descriptionFile_iff`).
-/

namespace NodeForge.Source

/-! ### Reading lines -/

/-- What stands in a line between `start`, with which it has to begin, and the next `mark`. -/
def between? (start : Text) (mark : Char) (line : Text) : Option Text :=
  if start.isPrefixOf line then
    some ((line.drop start.length).takeWhile fun s => decide (s ≠ .char mark))
  else none

theorem between?_append {start name rest : Text} {mark : Char} (hname : .char mark ∉ name) :
    between? start mark (start ++ (name ++ .char mark :: rest)) = some name := by
  have hprefix : start.isPrefixOf (start ++ (name ++ .char mark :: rest)) = true :=
    List.isPrefixOf_iff_prefix.2 (List.prefix_append ..)
  have hall : ∀ s ∈ name, decide (s ≠ .char mark) = true := by
    intro s hs
    rw [decide_eq_true_iff]
    intro heq
    exact hname (heq ▸ hs)
  rw [between?, if_pos hprefix, List.drop_left, List.takeWhile_append_of_pos hall]
  simp

/-- A line does not begin with `start` if its first sign is another one. -/
theorem between?_eq_none {start front rest : Text} {mark : Char}
    (h : front.head?.isSome ∧ front.head? ≠ start.head? ∧ start.head?.isSome) :
    between? start mark (front ++ rest) = none := by
  obtain ⟨hfront, hne, hstart⟩ := h
  obtain ⟨c, hc⟩ := Option.isSome_iff_exists.1 hfront
  obtain ⟨d, hd⟩ := Option.isSome_iff_exists.1 hstart
  obtain ⟨cs, rfl⟩ := List.head?_eq_some_iff.1 hc
  obtain ⟨ds, rfl⟩ := List.head?_eq_some_iff.1 hd
  have hdc : (d == c) = false := by
    rw [beq_eq_false_iff_ne]
    rintro rfl
    exact hne rfl
  rw [between?, if_neg]
  simp [List.isPrefixOf, hdc]

/-- A line without the tabs and blanks that it is moved in by. -/
def movedOut (line : Text) : Text :=
  line.dropWhile fun s => decide (s = .char '\t' ∨ s = .char ' ')

/-- The name that a line exports, however far it is moved in. -/
def exported? (line : Text) : Option Text := between? "export const " ':' (movedOut line)

/-- The module that a line exports again. -/
def reexported? (line : Text) : Option Text := between? "export * from './" '\'' line

/-- The names that the lines of a text export. -/
def exportedIn (text : Text) : List Text := (Text.lines text).filterMap exported?

/-- The names that the import statements in some lines take from a module. A statement goes over
several lines; `names` are those of the statement that the first line goes on with. -/
def importedFrom (module : Text) (names : List Text) : Lines → List Text
  | [] => []
  | line :: rest =>
    if line = "import \x7b" then importedFrom module [] rest
    else
      match between? "\x7d from '" '\'' line with
      | some source => (if source = module then names else []) ++ importedFrom module [] rest
      | none =>
        match between? "\t" ',' line with
        | some name => importedFrom module (names ++ [name]) rest
        | none => importedFrom module names rest

/-! ### First lines -/

section FirstLines

variable {start name rest line : Text} {mark : Char}

theorem movedOut_cons (c : Sign) (cs : Text) : movedOut (c :: cs) =
    if c = .char '\t' ∨ c = .char ' ' then movedOut cs else c :: cs := by
  rw [movedOut, List.dropWhile_cons]
  by_cases hc : c = .char '\t' ∨ c = .char ' ' <;> simp [hc, movedOut]

theorem firstLine_movedOut (line : Text) :
    Text.firstLine (movedOut line) = movedOut (Text.firstLine line) := by
  induction line with
  | nil => rfl
  | cons c cs ih =>
    rw [movedOut_cons, Text.firstLine_cons]
    by_cases hc : c = .char '\t' ∨ c = .char ' '
    · have hne : c ≠ Text.feed := by rcases hc with rfl | rfl <;> decide
      rw [if_pos hc, if_neg hne, movedOut_cons, if_pos hc, ih]
    · by_cases hne : c = Text.feed
      · rw [if_neg hc, if_pos hne, Text.firstLine_cons, if_pos hne]
        rfl
      · rw [if_neg hc, if_neg hne, Text.firstLine_cons, if_neg hne, movedOut_cons, if_neg hc]

/-- What goes up to a mark ends in the first line if it holds no line end. -/
theorem takeWhile_firstLine {p : Sign → Bool} {text : Text} (h : Text.feed ∉ text.takeWhile p)
    (hfeed : p Text.feed = true) : (Text.firstLine text).takeWhile p = text.takeWhile p := by
  induction text with
  | nil => rfl
  | cons c cs ih =>
    rw [Text.firstLine_cons]
    cases hc : p c with
    | false =>
      have hne : c ≠ Text.feed := by
        rintro rfl
        rw [hfeed] at hc
        cases hc
      rw [if_neg hne, List.takeWhile_cons_of_neg (by simp [hc]),
        List.takeWhile_cons_of_neg (by simp [hc])]
    | true =>
      rw [List.takeWhile_cons_of_pos hc, List.mem_cons, not_or] at h
      rw [if_neg (Ne.symm h.1), List.takeWhile_cons_of_pos hc, List.takeWhile_cons_of_pos hc,
        ih h.2]

/-- A name without line ends that a text begins with is read in its first line too, and nothing else
is read there. -/
theorem between?_firstLine (hstart : Text.feed ∉ start) (hmark : mark ≠ '\n')
    (h : ∀ name, between? start mark line = some name → Text.feed ∉ name) :
    between? start mark (Text.firstLine line) = between? start mark line := by
  by_cases hprefix : start.isPrefixOf line = true
  · obtain ⟨rest, rfl⟩ := List.isPrefixOf_iff_prefix.1 hprefix
    have hfirst : start.isPrefixOf (start ++ Text.firstLine rest) = true :=
      List.isPrefixOf_iff_prefix.2 (List.prefix_append ..)
    have hname := h _ (if_pos hprefix)
    rw [List.drop_left] at hname
    rw [Text.firstLine_append hstart, between?, between?, if_pos hprefix, if_pos hfirst,
      List.drop_left, List.drop_left, takeWhile_firstLine hname (decide_eq_true fun heq => ?_)]
    exact hmark (Sign.char.inj heq).symm
  · have hno : ¬ start.isPrefixOf (Text.firstLine line) = true := by
      rw [List.isPrefixOf_iff_prefix] at hprefix ⊢
      exact fun hpre => hprefix (hpre.trans (List.takeWhile_prefix _))
    rw [between?, between?, if_neg hprefix, if_neg hno]

/-- A file of lines ends with an empty line. -/
theorem lines_fileText {lines : Lines} (h : lines ≠ []) :
    Text.lines (fileText lines) = lines.flatMap Text.lines ++ [[]] := by
  rw [← Text.lines_unlines h]
  exact Rows.splitAt_concat_mark _

/-- A file is read line by line if no line that is written holds a line end. -/
theorem lines_fileText_of_notMem {lines : Lines} (hne : lines ≠ [])
    (h : ∀ line ∈ lines, Text.feed ∉ line) : Text.lines (fileText lines) = lines ++ [[]] := by
  rw [lines_fileText hne, Text.flatMap_lines_of_notMem h]

end FirstLines

/-! ### Imports -/

section Imports

variable {module source : Text} {names : List Text}

/-- The line of a name in an import statement. -/
def nameLine (name : Text) : Text := "\t" ++ name ++ ","

/-- The line that ends an import statement. -/
def sourceLine (source : Text) : Text := "\x7d from '" ++ source ++ "';"

theorem importLines_eq (names : List Text) (source : Text) :
    importLines names source =
      Text.ofString "import \x7b" :: names.map nameLine ++ [sourceLine source] := by
  simp [importLines, code, nameLine, sourceLine]

theorem nameLine_ne_import (name : Text) : nameLine name ≠ "import \x7b" := by
  intro heq
  have hhead := congrArg List.head? heq
  simp [nameLine, Text.ofString] at hhead

theorem sourceLine_ne_import (source : Text) : sourceLine source ≠ "import \x7b" := by
  intro heq
  have hhead := congrArg List.head? heq
  simp [sourceLine, Text.ofString] at hhead

theorem importedFrom_names {lines : Lines} (opened : List Text)
    (hnames : ∀ name ∈ names, Sign.char ',' ∉ name) :
    importedFrom module opened (names.map nameLine ++ lines) =
      importedFrom module (opened ++ names) lines := by
  induction names generalizing opened with
  | nil => simp
  | cons name rest ih =>
    have hclose : between? "\x7d from '" '\'' (nameLine name) = none := by
      rw [nameLine, List.append_assoc]
      exact between?_eq_none (by decide)
    have hname : between? "\t" ',' (nameLine name) = some name := by
      rw [nameLine, List.append_assoc]
      exact between?_append (hnames name List.mem_cons_self)
    have hrest := ih (opened ++ [name]) fun n hn => hnames n (List.mem_cons_of_mem _ hn)
    rw [List.map_cons, List.cons_append, importedFrom, if_neg (nameLine_ne_import name), hclose,
      hname]
    simp only
    rw [hrest, List.append_assoc, List.singleton_append]

/-- An import statement is read back. -/
theorem importedFrom_importLines {lines : Lines} (opened : List Text)
    (hnames : ∀ name ∈ names, Sign.char ',' ∉ name) (hsource : Sign.char '\'' ∉ source) :
    importedFrom module opened (importLines names source ++ lines) =
      (if source = module then names else []) ++ importedFrom module [] lines := by
  have hclose : between? "\x7d from '" '\'' (sourceLine source) = some source := by
    rw [sourceLine, List.append_assoc]
    exact between?_append hsource
  rw [importLines_eq, List.append_assoc, List.cons_append, importedFrom, if_pos rfl,
    importedFrom_names [] hnames, List.singleton_append, importedFrom,
    if_neg (sourceLine_ne_import source), hclose, List.nil_append]

end Imports

/-! ### Names -/

/-- Whether a text is made of word signs alone, as a folded name is. -/
def IsWordText (text : Text) : Prop := ∀ s ∈ text, Naming.isWordSign s = true

instance (text : Text) : Decidable (IsWordText text) :=
  inferInstanceAs (Decidable (∀ s ∈ text, _))

theorem IsWordText.append {a b : Text} (ha : IsWordText a) (hb : IsWordText b) :
    IsWordText (a ++ b) := by
  intro s hs
  rcases List.mem_append.1 hs with hs | hs
  · exact ha s hs
  · exact hb s hs

theorem IsWordText.not_mem {text : Text} (h : IsWordText text) {s : Sign}
    (hs : Naming.isWordSign s = false) : s ∉ text := by
  intro hmem
  rw [h s hmem] at hs
  cases hs

theorem isWordText_camel (name : Text) : IsWordText (Naming.camel name) :=
  fun _ => Naming.isWordSign_of_mem_camel

theorem isWordText_pascal (name : Text) : IsWordText (Naming.pascal name) := by
  intro s hs
  have hcamel := isWordText_camel name
  rw [Naming.pascal_eq_withFirst] at hs
  cases heq : Naming.camel name with
  | nil =>
    rw [heq] at hs
    cases hs
  | cons c cs =>
    rw [heq] at hs hcamel
    rcases List.mem_cons.1 hs with rfl | hs
    · exact Naming.isWordSign_toUpper (hcamel c List.mem_cons_self)
    · exact hcamel s (List.mem_cons_of_mem _ hs)

theorem isWordText_helperOf (service : Service) : IsWordText (helperOf service) :=
  (isWordText_camel _).append (by decide)

theorem isWordText_allItems {helper : Text} (h : IsWordText helper) :
    IsWordText (allItems helper) :=
  h.append (by decide)

theorem isWordText_fieldsName (resource : Text) : IsWordText (fieldsName resource) :=
  (isWordText_camel _).append (by decide)

theorem isWordText_operationsName (resource : Text) : IsWordText (operationsName resource) :=
  (isWordText_camel _).append (by decide)

theorem isWordText_descriptionModule (resource : Text) :
    IsWordText (descriptionModule resource) :=
  (isWordText_pascal _).append (by decide)

variable {m : NodeModel} {name : Text}

theorem isWordText_of_mem_importedHelpers (h : name ∈ importedHelpers m) : IsWordText name := by
  have hhelper := isWordText_helperOf m.service
  unfold importedHelpers at h
  dsimp only at h
  split at h
  · rcases List.mem_cons.1 h with rfl | h
    · exact hhelper
    · obtain rfl := List.mem_singleton.1 h
      exact isWordText_allItems hhelper
  · obtain rfl := List.mem_singleton.1 h
    exact hhelper

theorem mem_importedDescriptions_iff : name ∈ importedDescriptions m ↔
    ∃ r ∈ m.resources, name = fieldsName r.1 ∨ name = operationsName r.1 := by
  simp [importedDescriptions]

theorem isWordText_of_mem_importedDescriptions (h : name ∈ importedDescriptions m) :
    IsWordText name := by
  obtain ⟨r, -, rfl | rfl⟩ := mem_importedDescriptions_iff.1 h
  · exact isWordText_fieldsName r.1
  · exact isWordText_operationsName r.1

theorem IsWordText.feed_notMem {text : Text} (h : IsWordText text) : Text.feed ∉ text :=
  h.not_mem (by decide)

/-- An import of folded names is written line by line. -/
theorem feed_notMem_of_mem_importLines {names : List Text} {source line : Text}
    (hnames : ∀ name ∈ names, IsWordText name) (hsource : Text.feed ∉ source)
    (h : line ∈ importLines names source) : Text.feed ∉ line := by
  rw [importLines_eq, List.cons_append, List.mem_cons, List.mem_append, List.mem_singleton] at h
  rcases h with rfl | hname | rfl
  · decide
  · obtain ⟨name, hmem, rfl⟩ := List.mem_map.1 hname
    have hfeed := (hnames name hmem).feed_notMem
    simp only [nameLine, List.mem_append, not_or]
    exact ⟨⟨by decide, hfeed⟩, by decide⟩
  · simp only [sourceLine, List.mem_append, not_or]
    exact ⟨⟨by decide, hsource⟩, by decide⟩

/-- The lines of the imports file in front of the import statements of the node. -/
def importsHead : Lines :=
  ["import \x7b IExecuteFunctions \x7d from 'n8n-core';",
    "import \x7b IDataObject, INodeExecutionData, INodeType, INodeTypeDescription \x7d " ++
      "from 'n8n-workflow';", []]

theorem importsFile_eq (m : NodeModel) : importsFile m =
    importsHead ++
      (helperImport m ++ [] :: importLines (importedDescriptions m) "./descriptions") := by
  simp [importsFile, importsHead, code]

theorem importedFrom_importsHead {module : Text} (lines : Lines) :
    importedFrom module [] (importsHead ++ lines) = importedFrom module [] lines := rfl

theorem lines_importsFile (m : NodeModel) :
    Text.lines (fileText (importsFile m)) = importsFile m ++ [[]] := by
  have hhead : ∀ line ∈ importsHead, Text.feed ∉ line := by decide
  refine lines_fileText_of_notMem (by rw [importsFile_eq]; exact List.cons_ne_nil _ _) ?_
  intro line hline
  rw [importsFile_eq, List.mem_append, List.mem_append, List.mem_cons] at hline
  rcases hline with hline | hline | rfl | hline
  · exact hhead line hline
  · exact feed_notMem_of_mem_importLines (fun _ => isWordText_of_mem_importedHelpers) (by decide)
      hline
  · exact List.not_mem_nil
  · exact feed_notMem_of_mem_importLines (fun _ => isWordText_of_mem_importedDescriptions)
      (by decide) hline

/-- The imports file takes the helpers from one module and the descriptions from another. -/
theorem importedFrom_importsFile (m : NodeModel) (module : Text) :
    importedFrom module [] (Text.lines (fileText (importsFile m))) =
      (if "./GenericFunctions" = module then importedHelpers m else []) ++
        if "./descriptions" = module then importedDescriptions m else [] := by
  have hhelpers : ∀ name ∈ importedHelpers m, Sign.char ',' ∉ name := fun name hname =>
    (isWordText_of_mem_importedHelpers hname).not_mem (by decide)
  have hdescriptions : ∀ name ∈ importedDescriptions m, Sign.char ',' ∉ name := fun name hname =>
    (isWordText_of_mem_importedDescriptions hname).not_mem (by decide)
  have hgap : ∀ lines, importedFrom module [] ([] :: lines) = importedFrom module [] lines :=
    fun _ => rfl
  rw [lines_importsFile, importsFile_eq, List.append_assoc, importedFrom_importsHead, helperImport,
    List.append_assoc, importedFrom_importLines [] hhelpers (by decide), List.cons_append, hgap,
    importedFrom_importLines [] hdescriptions (by decide), hgap]
  simp [importedFrom]

/-! ### Exports -/

/-- Whether none of some lines exports a name. -/
def IsSilent (lines : Lines) : Prop := ∀ line ∈ lines, exported? line = none

theorem isSilent_append {lines lines' : Lines} :
    IsSilent (lines ++ lines') ↔ IsSilent lines ∧ IsSilent lines' := List.forall_mem_append

/-- A line exports nothing if it is not moved in and its first sign is not that of an export. -/
theorem exported?_cons {s : Sign} (rest : Text) (h : s ≠ .char 'e') (htab : s ≠ .char '\t')
    (hblank : s ≠ .char ' ') : exported? (s :: rest) = none := by
  have hhead : (Text.ofString "export const ").head? = some (.char 'e') := by decide
  have hline : between? "export const " ':' ([s] ++ rest) = none := by
    apply between?_eq_none
    rw [hhead]
    simpa using h
  rw [exported?, movedOut_cons, if_neg (not_or.2 ⟨htab, hblank⟩)]
  exact hline

/-- A tab in front of a line does not count. -/
theorem exported?_tab (line : Text) : exported? (.char '\t' :: line) = exported? line := by
  rw [exported?, exported?, movedOut_cons, if_pos (Or.inl rfl)]

theorem exported?_nil : exported? [] = none := by decide

theorem isSilent_condition (c : Condition) : IsSilent c.lines := by
  cases hunless : c.unlessAll <;>
    simp [IsSilent, Condition.lines, code, hunless, Text.ofString, exported?_cons]

theorem isSilent_divider (d : Divider) : IsSilent d.lines := by
  simp [IsSilent, Divider.lines, Text.ofString, exported?_cons]

section Blocks

open FieldBlock

theorem isSilent_descriptionLines (description : Option Text) :
    IsSilent (descriptionLines description) := by
  intro line hline
  obtain ⟨text, -, rfl⟩ := List.mem_map.1 hline
  simp [quotedLine, Text.ofString, exported?_cons]

theorem isSilent_endLines (required : Bool) {shown : Lines} (hshown : IsSilent shown) :
    IsSilent (endLines required shown) := by
  have hend : IsSilent ["\x7d,"] := by simp [IsSilent, Text.ofString, exported?_cons]
  have hrequired : IsSilent (if required then ["required: true,"] else []) := by
    cases required <;> simp [IsSilent, Text.ofString, exported?_cons]
  rw [endLines]
  simp only [code, List.flatten_cons, List.flatten_nil, List.append_nil, isSilent_append]
  exact ⟨hrequired, hshown, hend⟩

theorem isSilent_choiceLines (choices : List Choice) : IsSilent (choiceLines choices) := by
  have hchoice : IsSilent (choices.map choiceLine) := by
    intro line hline
    obtain ⟨choice, -, rfl⟩ := List.mem_map.1 hline
    simp [choiceLine, Text.ofString, exported?_cons]
  rw [choiceLines]
  simp only [code, List.flatten_cons, List.flatten_nil, List.append_nil, isSilent_append]
  exact ⟨by simp [IsSilent, Text.ofString, exported?_cons], hchoice,
    by simp [IsSilent, Text.ofString, exported?_cons]⟩

theorem isSilent_typeOptionLines (bounds : Option (Text × Text)) (multiple : Bool) :
    IsSilent (typeOptionLines bounds multiple) := by
  cases bounds <;> cases multiple <;>
    simp [IsSilent, typeOptionLines, code, Text.ofString, exported?_cons]

theorem isSilent_singleLines {f : SingleField} (h : IsSilent f.shown) :
    IsSilent (singleLines f) := by
  have hchoices : IsSilent (f.choices.toList.flatMap choiceLines) := by
    intro line hline
    obtain ⟨choices, -, hline⟩ := List.mem_flatMap.1 hline
    exact isSilent_choiceLines choices line hline
  have hnames : IsSilent ["\x7b", quotedLine "displayName" f.title, quotedLine "name" f.name,
      quotedLine "type" f.type] := by
    simp [IsSilent, quotedLine, Text.ofString, exported?_cons]
  have hdefault : IsSilent ["default: " ++ f.default ++ ","] := by
    simp [IsSilent, Text.ofString, exported?_cons]
  rw [singleLines]
  simp only [code, List.flatten_cons, List.flatten_nil, List.append_nil, isSilent_append]
  exact ⟨hnames, hchoices, isSilent_typeOptionLines _ _, hdefault, isSilent_descriptionLines _,
    isSilent_endLines _ h⟩

theorem isSilent_limitLines {shown : Lines} (h : IsSilent shown) :
    IsSilent (limitLines shown) := by
  rw [limitLines]
  simp only [code, List.flatten_cons, List.flatten_nil, List.append_nil, isSilent_append]
  exact ⟨by simp [IsSilent, Text.ofString, exported?_cons], h,
    by simp [IsSilent, Text.ofString, exported?_cons]⟩

theorem isSilent_fixedCollection {name title nestedName : Text} {description : Option Text}
    {values : List FieldBlock} {required : Bool} {shown : Lines}
    (hvalues : IsSilent (linesOfAll values)) (hshown : IsSilent shown) :
    IsSilent
      (lines (.fixedCollection name title nestedName description values required shown)) := by
  rw [FieldBlock.lines]
  simp only [code, List.flatten_cons, List.flatten_nil, List.append_nil, isSilent_append]
  exact ⟨by simp [IsSilent, quotedLine, Text.ofString, exported?_cons],
    isSilent_descriptionLines description,
    by simp [IsSilent, quotedLine, Text.ofString, exported?_cons], hvalues,
    by simp [IsSilent, Text.ofString, exported?_cons], isSilent_endLines required hshown⟩

theorem isSilent_collection {name title prompt : Text} {shown : Lines} {options : List FieldBlock}
    (hshown : IsSilent shown) (hoptions : IsSilent (linesOfAll options)) :
    IsSilent (lines (.collection name title prompt shown options)) := by
  rw [FieldBlock.lines]
  simp only [code, List.flatten_cons, List.flatten_nil, List.append_nil, isSilent_append]
  exact ⟨by simp [IsSilent, quotedLine, Text.ofString, exported?_cons], hshown,
    by simp [IsSilent, Text.ofString, exported?_cons], hoptions,
    by simp [IsSilent, Text.ofString, exported?_cons]⟩

mutual

/-- The block of a schema exports nothing: the lines of a block are its own, those of the blocks of
the properties, and those that say when it is shown. -/
theorem isSilent_of_ofSchema : ∀ {schema : Value} {key : Scalar} {required : Bool} {shown : Lines}
    {b : FieldBlock}, IsSilent shown → ofSchema key required shown schema = .ok b →
    IsSilent b.lines
  | .map es, key, required, shown, b, hshown, h => by
    rw [ofSchema, ofFields] at h
    split at h
    · obtain ⟨description, -, h⟩ := Outcome.bind_eq_ok.1 h
      obtain ⟨nestedKey, -, h⟩ := Outcome.bind_eq_ok.1 h
      obtain ⟨values, hvalues, h⟩ := Outcome.bind_eq_ok.1 h
      rw [Outcome.pure_eq_ok] at h
      rw [← h]
      exact isSilent_fixedCollection (isSilent_of_ofProperties hvalues) hshown
    · obtain ⟨field, hfield, h⟩ := Outcome.bind_eq_ok.1 h
      obtain ⟨control, -, hfield⟩ := Outcome.bind_eq_ok.1 hfield
      obtain ⟨choices, -, hfield⟩ := Outcome.bind_eq_ok.1 hfield
      obtain ⟨default, -, hfield⟩ := Outcome.bind_eq_ok.1 hfield
      obtain ⟨description, -, hfield⟩ := Outcome.bind_eq_ok.1 hfield
      rw [Outcome.pure_eq_ok] at hfield h
      rw [← h, FieldBlock.lines]
      apply isSilent_singleLines
      rw [← hfield]
      exact hshown
  | .scalar _, _, _, _, _, _, h | .list _, _, _, _, _, _, h | .pair _ _, _, _, _, _, _, h
  | .set _, _, _, _, _, _, h | .again _ _, _, _, _, _, _, h => by simp [ofSchema] at h

theorem isSilent_of_ofProperties : ∀ {es : List (Scalar × Value)} {bs : List FieldBlock},
    ofProperties es = .ok bs → IsSilent (linesOfAll bs)
  | [], bs, h => by
    rw [ofProperties, Except.ok.injEq] at h
    rw [← h]
    exact nofun
  | (k, v) :: rest, bs, h => by
    unfold ofProperties at h
    split at h
    · cases v with
      | map es => exact isSilent_of_ofEntries h
      | _ => cases h
    · exact isSilent_of_ofProperties h

theorem isSilent_of_ofEntries : ∀ {es : List (Scalar × Value)} {bs : List FieldBlock},
    ofEntries es = .ok bs → IsSilent (linesOfAll bs)
  | [], bs, h => by
    rw [ofEntries, Except.ok.injEq] at h
    rw [← h]
    exact nofun
  | (k, v) :: rest, bs, h => by
    rw [ofEntries] at h
    obtain ⟨block, hblock, h⟩ := Outcome.bind_eq_ok.1 h
    obtain ⟨blocks, hblocks, h⟩ := Outcome.bind_eq_ok.1 h
    rw [Outcome.pure_eq_ok] at h
    rw [← h, linesOfAll, isSilent_append]
    exact ⟨isSilent_of_ofSchema (fun _ hline => by cases hline) hblock,
      isSilent_of_ofEntries hblocks⟩

end

theorem isSilent_of_ofGroup {title : Text} {properties : Value} {shown : Lines} {b : FieldBlock}
    (hshown : IsSilent shown) (h : ofGroup title properties shown = .ok b) : IsSilent b.lines := by
  obtain ⟨fields, -, h⟩ := Outcome.bind_eq_ok.1 h
  obtain ⟨options, hoptions, h⟩ := Outcome.bind_eq_ok.1 h
  rw [Outcome.pure_eq_ok] at h
  rw [← h]
  exact isSilent_collection hshown (isSilent_of_ofEntries hoptions)

theorem isSilent_of_parameterBlock {p : Parameter} {shown : Lines} {b : FieldBlock}
    (hshown : IsSilent shown) (h : parameterBlock shown p = .ok b) : IsSilent b.lines := by
  unfold parameterBlock at h
  dsimp only at h
  split at h
  · exact isSilent_of_ofGroup hshown h
  · exact isSilent_of_ofSchema hshown h

end Blocks

section Descriptions

variable {resource : Text} {o : Operation} {operations : List Operation} {lines : Lines}

theorem isSilent_of_mem_pagingBlocks {b : FieldBlock} (hb : b ∈ pagingBlocks resource o) :
    IsSilent b.lines := by
  rw [pagingBlocks] at hb
  split at hb
  · rcases List.mem_cons.1 hb with rfl | hb
    · rw [FieldBlock.returnAll, FieldBlock.lines]
      exact isSilent_singleLines (isSilent_condition _)
    · rw [List.mem_singleton.1 hb, FieldBlock.lines]
      exact isSilent_limitLines (isSilent_condition _)
  · cases hb

/-- The fields of an operation export nothing. -/
theorem isSilent_of_operationFieldLines (h : operationFieldLines resource o = .ok lines) :
    IsSilent lines := by
  obtain ⟨blocks, hblocks, h⟩ := Outcome.bind_eq_ok.1 h
  rw [Outcome.pure_eq_ok] at h
  have hshown := isSilent_condition (.of resource o.operationId)
  have hblock : ∀ b ∈ blocks, IsSilent b.lines := by
    intro b hb
    obtain ⟨parameters, standard, groups, blocksOfGroups, hparameters, hstandard, -, hgroups,
      rfl⟩ := operationBlocks_eq_ok hblocks
    rw [List.mem_append, List.mem_append, List.mem_append] at hb
    rcases hb with ((hb | hb) | hb) | hb
    · obtain ⟨p, -, hp⟩ := Outcome.exists_left_of_mem (Outcome.mapM_eq_ok.1 hparameters) hb
      exact isSilent_of_parameterBlock hshown hp
    · obtain ⟨row, hrow, hb⟩ := List.mem_flatten.1 hb
      obtain ⟨body, -, hbody⟩ := Outcome.exists_left_of_mem (Outcome.mapM_eq_ok.1 hstandard) hrow
      obtain ⟨properties, -, hbody⟩ := Outcome.bind_eq_ok.1 hbody
      obtain ⟨e, -, he⟩ := Outcome.exists_left_of_mem (Outcome.mapM_eq_ok.1 hbody) hb
      exact isSilent_of_ofSchema hshown he
    · obtain ⟨g, -, hg⟩ := Outcome.exists_left_of_mem (Outcome.mapM_eq_ok.1 hgroups) hb
      exact isSilent_of_ofGroup hshown hg
    · exact isSilent_of_mem_pagingBlocks hb
  rw [← h, linesOfAll_eq, isSilent_append]
  refine ⟨isSilent_divider _, fun line hline => ?_⟩
  obtain ⟨b, hb, hline⟩ := List.mem_flatMap.1 hline
  exact hblock b hb line hline

/-- The line of a text of an option, where there is one. -/
def textLines (key : Text) (text : Option Text) : Lines :=
  match text with
  | some t => if t.isEmpty then [] else ["\t" ++ FieldBlock.quotedLine key t]
  | none => []

theorem optionLines_eq (o : Operation) : optionLines o = code [
    ["\x7b", "\t" ++ FieldBlock.quotedLine "name" (Naming.capital o.operationId),
      "\t" ++ FieldBlock.quotedLine "value" (literal o.operationId)],
    textLines "description" o.description, textLines "action" o.summary, ["\x7d,"]] := rfl

theorem eq_of_mem_textLines {key line : Text} {text : Option Text}
    (h : line ∈ textLines key text) :
    ∃ t, text = some t ∧ line = "\t" ++ FieldBlock.quotedLine key t := by
  cases text with
  | none => cases h
  | some t =>
    unfold textLines at h
    dsimp only at h
    split at h
    · cases h
    · exact ⟨t, rfl, List.mem_singleton.1 h⟩

theorem isSilent_optionLines (o : Operation) : IsSilent (optionLines o) := by
  rw [optionLines_eq]
  simp only [code, List.flatten_cons, List.flatten_nil, List.append_nil, isSilent_append]
  refine ⟨?_, fun line hline => ?_, fun line hline => ?_, ?_⟩
  · simp [IsSilent, FieldBlock.quotedLine, Text.ofString, exported?_cons, exported?_tab]
  · obtain ⟨t, -, rfl⟩ := eq_of_mem_textLines hline
    simp [FieldBlock.quotedLine, Text.ofString, exported?_cons, exported?_tab]
  · obtain ⟨t, -, rfl⟩ := eq_of_mem_textLines hline
    simp [FieldBlock.quotedLine, Text.ofString, exported?_cons, exported?_tab]
  · simp [IsSilent, Text.ofString, exported?_cons]

theorem isSilent_optionsLines (operations : List Operation) :
    IsSilent (optionsLines operations) := by
  unfold optionsLines
  split
  · intro line hline
    rw [List.mem_singleton.1 hline]
    decide
  · intro line hline
    obtain ⟨o, -, hline⟩ := List.mem_flatMap.1 hline
    exact isSilent_optionLines o line hline

theorem IsSilent.filterMap_eq_nil (h : IsSilent lines) : lines.filterMap exported? = [] :=
  List.filterMap_eq_nil_iff.2 h

theorem exported?_operations (resource : Text) :
    exported? ("export const " ++ operationsName resource ++ ": INodeProperties[] = [") =
      some (operationsName resource) := by
  rw [List.append_assoc]
  exact between?_append ((isWordText_operationsName resource).not_mem (by decide))

theorem exported?_fields (resource : Text) :
    exported? ("export const " ++ fieldsName resource ++ ": INodeProperties[] = [") =
      some (fieldsName resource) := by
  rw [List.append_assoc]
  exact between?_append ((isWordText_fieldsName resource).not_mem (by decide))

/-- What is written for a description file exports the operations and the fields of its resource,
and nothing else. -/
theorem filterMap_exported?_descriptionFile (h : descriptionFile resource operations = .ok lines) :
    lines.filterMap exported? = [operationsName resource, fieldsName resource] := by
  obtain ⟨fields, hfields, h⟩ := Outcome.bind_eq_ok.1 h
  rw [Outcome.pure_eq_ok] at h
  have hsilent : IsSilent fields.flatten := by
    intro line hline
    obtain ⟨row, hrow, hline⟩ := List.mem_flatten.1 hline
    obtain ⟨o, -, ho⟩ := Outcome.exists_left_of_mem (Outcome.mapM_eq_ok.1 hfields) hrow
    exact isSilent_of_operationFieldLines ho line hline
  rw [← h]
  simp only [code, List.flatten_cons, List.flatten_nil, List.append_nil, List.filterMap_append,
    (isSilent_optionsLines operations).filterMap_eq_nil, hsilent.filterMap_eq_nil]
  simp only [List.filterMap_cons, exported?_operations, exported?_fields]
  simp [Text.ofString, exported?_cons, exported?_nil]

/-- **The exports of a description file.** It exports the operations and the fields of its resource,
and what the lines export that begin behind a line end in what is written. -/
theorem mem_exportedIn_descriptionFile_iff (h : descriptionFile resource operations = .ok lines)
    {name : Text} : name ∈ exportedIn (fileText lines) ↔
      (name = operationsName resource ∨ name = fieldsName resource) ∨
        name ∈ (Text.strayLines lines).filterMap exported? := by
  have hwritten := filterMap_exported?_descriptionFile h
  have hne : lines ≠ [] := by
    rintro rfl
    cases hwritten
  have hword : ∀ name ∈ lines.filterMap exported?, IsWordText name := by
    rw [hwritten]
    intro name hname
    rcases List.mem_cons.1 hname with rfl | hname
    · exact isWordText_operationsName resource
    · rw [List.mem_singleton.1 hname]
      exact isWordText_fieldsName resource
  have hfirst : ∀ line ∈ lines, exported? (Text.firstLine line) = exported? line := by
    intro line hline
    rw [exported?, exported?, ← firstLine_movedOut]
    refine between?_firstLine (by decide) (by decide) fun name hname => ?_
    exact (hword name (List.mem_filterMap.2 ⟨line, hline, hname⟩)).feed_notMem
  have hlast : List.filterMap exported? [[]] = [] := by decide
  rw [exportedIn, lines_fileText hne, List.filterMap_append, hlast, List.append_nil,
    Text.mem_filterMap_lines hfirst, hwritten, List.mem_cons, List.mem_singleton]

/-- The index exports the modules of the resources again. -/
theorem filterMap_reexported?_indexFile (m : NodeModel) :
    (Text.lines (fileText (indexFile m))).filterMap reexported? =
      m.resources.map fun r => descriptionModule r.1 := by
  have hline : ∀ resource, reexported? ("export * from './" ++ descriptionModule resource ++ "';") =
      some (descriptionModule resource) := by
    intro resource
    rw [List.append_assoc]
    exact between?_append ((isWordText_descriptionModule resource).not_mem (by decide))
  have hlast : List.filterMap reexported? [[]] = [] := by decide
  cases hresources : m.resources with
  | nil =>
    rw [indexFile, hresources]
    decide
  | cons r rest =>
    have hindex : indexFile m = (r :: rest).map fun r =>
        "export * from './" ++ descriptionModule r.1 ++ "';" := by
      rw [indexFile, hresources]
    have hfeed : ∀ line ∈ indexFile m, Text.feed ∉ line := by
      rw [hindex]
      intro line hmem
      obtain ⟨r, -, rfl⟩ := List.mem_map.1 hmem
      have hmodule := (isWordText_descriptionModule r.1).feed_notMem
      simp only [List.mem_append, not_or]
      exact ⟨⟨by decide, hmodule⟩, by decide⟩
    have hne : indexFile m ≠ [] := by
      rw [hindex]
      exact List.cons_ne_nil _ _
    rw [lines_fileText_of_notMem hne hfeed, List.filterMap_append, hlast, List.append_nil, hindex,
      List.filterMap_map]
    simp only [Function.comp_def, hline]
    exact congrFun List.filterMap_eq_map _

end Descriptions

end NodeForge.Source
