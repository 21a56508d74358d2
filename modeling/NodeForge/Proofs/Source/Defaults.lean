import NodeForge.Proofs.Source.Choices

/-!
# What a field of options starts with

A schema with an `enum` becomes a field of options. It offers one choice for each member and starts
with the value of one of them: with the declared default, and without one with the first option. But
a default is looked for only among the values that count as given. So zero, `false` and the empty
text are passed over, which for every other type comes to the same, and here leads to the first
option instead. A default is kept exactly if it counts as given or is written as the first option is
(`isPreset_of_enum`).
-/

namespace NodeForge.Source

open FieldBlock

/-! ### Literals of options -/

/-- The literal of the value of an option. -/
def optionLiteral (option : Value) : Text := singleQuoted (choiceOf option).value

/-- The line of an option in the list of choices. -/
def optionLine (option : Value) : Text :=
  "\x7b name: '" ++ title option.text ++ "', value: " ++ optionLiteral option ++ " \x7d,"

theorem choiceLine_choiceOf (option : Value) :
    choiceLine (choiceOf option) = optionLine option := by
  simp [choiceLine, choiceOf, optionLine, optionLiteral, singleQuoted, Text.ofString]

theorem optionLiteral_inj {a b : Value} : optionLiteral a = optionLiteral b ↔ a.text = b.text := by
  constructor
  · intro h
    unfold optionLiteral singleQuoted at h
    exact List.append_cancel_left (List.append_cancel_right h)
  · intro h
    rw [optionLiteral, optionLiteral, choiceOf, choiceOf, h]

/-! ### The default of a form -/

/-- Among the declared defaults of options those that count as given have a literal. -/
theorem declaredDefault_of_options (default : Value) : declaredDefault (.str "options") default =
    if default.truthy then some (optionLiteral default) else none := by
  have hnumber : isOneOf ["number", "integer"] (.str "options") = false := by decide
  have hbare : isOneOf ["boolean", "number", "integer"] (.str "options") = false := by decide
  have hquoted : isOneOf ["string", "options"] (.str "options") = true := by decide
  rw [declaredDefault, hnumber, hbare, hquoted, Bool.and_false]
  cases default.truthy <;> rfl

section Form

variable {method : Text} {source schema : Fields} {options : List Value}

/-- A schema of options always has a default: the declared one if it counts as given, or else the
first option. -/
theorem defaultLiteral_of_options (htype : Fields.get? "type" schema = some (.str "options"))
    (hoptions : Fields.get? "options" schema = some (.list options)) (hne : options ≠ []) :
    defaultLiteral schema =
      .ok (optionLiteral ((Fields.get "default" schema).orElse (options.head hne))) := by
  have htypes : Fields.get "type" schema = .str "options" := by
    rw [Fields.get, htype]
    rfl
  obtain ⟨first, rest, rfl⟩ := List.exists_cons_of_ne_nil hne
  rw [defaultLiteral, htypes, declaredDefault_of_options, Value.orElse]
  cases (Fields.get "default" schema).truthy with
  | true => rfl
  | false =>
    show typeDefault schema (.str "options") = _
    have hoptions : Fields.get "options" schema = .list (first :: rest) := by
      rw [Fields.get, hoptions]
      rfl
    rw [typeDefault, hoptions]
    rfl

/-- The form of a schema takes over what does not concern its choices, its properties and its
items. -/
theorem get?_form (h : Schema.formOfFields method source = .ok schema) (key : Text)
    (hkey : key ∉ ([Text.ofString "enum", Text.ofString "type", Text.ofString "options",
      Text.ofString "properties", Text.ofString "required", Text.ofString "items"] : List Text)) :
    Fields.get? key schema = Fields.get? key source := by
  simp only [List.mem_cons, List.not_mem_nil, or_false, not_or] at hkey
  obtain ⟨henum, htype, hoptions, hproperties, hrequired, hitems⟩ := hkey
  obtain ⟨base, hbase, hkept⟩ := Schema.exists_base h
  rw [hkept key hproperties hrequired hitems]
  exact Schema.get?_enumToOptions hbase henum htype hoptions

/-- What the form of a schema with an `enum` of these members makes of it. -/
structure IsOfOptions (source schema : Fields) (options : List Value) (hne : options ≠ []) :
    Prop where
  hasType : HasType schema "options"
  choices : choicesIn schema = .ok (some (options.map choiceOf))
  default : defaultLiteral schema =
    .ok (optionLiteral ((Fields.get "default" source).orElse (options.head hne)))

theorem isOfOptions_of_enum {choices : Value} (henum : Fields.get? "enum" source = some choices)
    (hmembers : choices.members = .ok options) (hne : options ≠ [])
    (hform : Schema.formOfFields method source = .ok schema) :
    IsOfOptions source schema options hne := by
  obtain ⟨options', hmembers', htype, hoptions⟩ := Schema.options_of_enum hform henum
  obtain rfl : options = options' := Except.ok.inj (hmembers.symm.trans hmembers')
  have hown : HasType schema "options" := (choices_of_enum hform henum).1
  refine ⟨hown, ?_, ?_⟩
  · unfold choicesIn
    rw [show (Fields.get "type" schema).isText "options" = true from hown, if_pos rfl, hoptions]
    rfl
  · rw [defaultLiteral_of_options htype hoptions hne, Fields.get, Fields.get,
      get?_form hform "default" (by decide)]

end Form

/-! ### Blocks of options -/

/-- The literal that the field of a block starts with, if it is entered by one control. -/
def FieldBlock.default? : FieldBlock → Option Text
  | .single field => some field.default
  | _ => none

/-- Whether a block offers the options of an `enum` and starts with the right one of them, as far as
the schema with the `enum` says which one that is. -/
structure IsPreset (source : Fields) (options : List Value) (hne : options ≠ []) (b : FieldBlock) :
    Prop where
  /-- The code of the block has a line for each option with its literal, and under them one with the
  literal of its default. -/
  written : ∃ literal front middle back, b.default? = some literal ∧
    b.choices? = some (options.map choiceOf) ∧
    b.lines = front ++ [Text.ofString "options: ["] ++ options.map optionLine ++
      [Text.ofString "],"] ++ middle ++ [Text.ofString "default: " ++ literal ++ ","] ++ back
  /-- The default is the declared one if this counts as given, or else the first option. -/
  chosen : b.default? =
    some (optionLiteral ((Fields.get "default" source).orElse (options.head hne)))
  /-- A default that is one of the options is kept if it counts as given, and otherwise only if it
  is written as the first option is. -/
  kept : ∀ d ∈ options, Fields.get? "default" source = some d →
    (b.default? = some (optionLiteral d) ↔ d.truthy = true ∨ d.text = (options.head hne).text)
  /-- The same of a default that is an option by its value, as 1 is if 1.0 is one. -/
  keptSame : ∀ d, Fields.get? "default" source = some d → ∀ o ∈ options, (d == o) = true →
    (b.default? = some (optionLiteral o) ↔
      if d.truthy then d.text = o.text else (options.head hne).text = o.text)
  /-- Without a declared default it is the first option. -/
  absent : Fields.get? "default" source = none →
    b.default? = some (optionLiteral (options.head hne))

section Blocks

variable {method : Text} {source form : Fields} {options : List Value} {key : Scalar}
  {required : Bool} {shown : Lines} {b : FieldBlock}

/-- The lines of a field of options. -/
theorem exists_lines_of_choices {field : SingleField}
    (h : field.choices = some (options.map choiceOf)) : ∃ front middle back,
      (FieldBlock.single field).lines =
        front ++ [Text.ofString "options: ["] ++ options.map optionLine ++
          [Text.ofString "],"] ++ middle ++
            [Text.ofString "default: " ++ field.default ++ ","] ++ back := by
  have hlines : (options.map choiceOf).map choiceLine = options.map optionLine := by
    rw [List.map_map]
    exact List.map_congr_left fun option _ => choiceLine_choiceOf option
  refine ⟨["\x7b", quotedLine "displayName" field.title, quotedLine "name" field.name,
    quotedLine "type" field.type], typeOptionLines field.bounds field.multiple,
    descriptionLines field.description ++ endLines field.required field.shown, ?_⟩
  rw [lines, singleLines, h]
  simp [code, choiceLines, ← hlines]

/-- What a block starts with, said once: all else follows from it. -/
theorem isPreset_of_default {field : SingleField} {hne : options ≠ []}
    (hchoices : field.choices = some (options.map choiceOf))
    (hdefault : field.default =
      optionLiteral ((Fields.get "default" source).orElse (options.head hne))) :
    IsPreset source options hne (.single field) := by
  have hview : FieldBlock.default? (.single field) =
      some (optionLiteral ((Fields.get "default" source).orElse (options.head hne))) :=
    congrArg some hdefault
  have hsame : ∀ d, Fields.get? "default" source = some d → ∀ o,
      (FieldBlock.default? (.single field) = some (optionLiteral o) ↔
        if d.truthy then d.text = o.text else (options.head hne).text = o.text) := by
    intro d hd o
    rw [hview, Option.some.injEq, optionLiteral_inj, Fields.get, hd, Option.getD_some, Value.orElse]
    cases d.truthy <;> rfl
  refine ⟨?_, hview, ?_, ?_, ?_⟩
  · obtain ⟨front, middle, back, hlines⟩ := exists_lines_of_choices hchoices
    exact ⟨field.default, front, middle, back, rfl, hchoices, hlines⟩
  · intro d _ hd
    rw [hsame d hd d]
    cases d.truthy with
    | true => simp
    | false => simp [eq_comm]
  · exact fun d hd o _ _ => hsame d hd o
  · intro hnone
    rw [hview, Fields.get, hnone]
    rfl

theorem IsOfOptions.isPreset {hne : options ≠ []} (hof : IsOfOptions source form options hne)
    (h : ofSchema key required shown (.map form) = .ok b) : IsPreset source options hne b := by
  rcases made_of_ofSchema h with hobject | ⟨-, field, hfield, rfl⟩
  · have hnot := not_isObject_of_hasType hof.hasType (by decide)
    rw [hobject.object_eq] at hnot
    cases hnot
  · obtain ⟨control, -, hfield⟩ := Outcome.bind_eq_ok.1 hfield
    obtain ⟨choices, hchoices, hfield⟩ := Outcome.bind_eq_ok.1 hfield
    obtain ⟨default, hdefault, hfield⟩ := Outcome.bind_eq_ok.1 hfield
    obtain ⟨description, -, hfield⟩ := Outcome.bind_eq_ok.1 hfield
    rw [Outcome.pure_eq_ok] at hfield
    rw [← hfield]
    apply isPreset_of_default
    · exact Except.ok.inj (hchoices.symm.trans hof.choices)
    · exact Except.ok.inj (hdefault.symm.trans hof.default)

/-! ### Blocks that come about -/

/-- Whether a schema says nothing about other schemas, and what it says of itself is a text. -/
structure IsPlain (source : Fields) : Prop where
  properties : Schema.mapping? "properties" source = none
  items : Schema.mapping? "items" source = none
  description : ∀ v, Fields.get? "description" source = some v → ∃ text, v = .str text

theorem IsPlain.exists_form (h : IsPlain source) {choices : Value}
    (henum : Fields.get? "enum" source = some choices) (hmembers : choices.members = .ok options)
    (method : Text) : ∃ form, Schema.formOfFields method source = .ok form := by
  have hbase : ∃ base, Schema.enumToOptions source = .ok base := by
    unfold Schema.enumToOptions
    rw [henum]
    exact ⟨_, Outcome.bind_eq_ok.2 ⟨options, hmembers, rfl⟩⟩
  obtain ⟨base, hbase⟩ := hbase
  refine ⟨base, ?_⟩
  rw [Schema.formOfFields_eq, hbase]
  show (Schema.withProperties method source base >>= Schema.withItems method source) = _
  rw [Schema.withProperties, h.properties]
  show Schema.withItems method source base = _
  rw [Schema.withItems, h.items]

/-- The control for options under a name. -/
theorem exists_controlType (hown : HasType form "options") (name : Text) :
    ∃ control, controlType (.str name) (.map form) = .ok control := by
  have htype : (Fields.get? "type" form).getD (.str "string") = .str "options" :=
    (hasType_iff (by decide)).1 hown
  have hdate : ∃ date, isDateLike (.str name) form = .ok date := by
    unfold isDateLike
    split
    · exact ⟨_, rfl⟩
    · exact ⟨_, rfl⟩
  obtain ⟨date, hdate⟩ := hdate
  unfold controlType controlTypeFrom
  dsimp only
  rw [htype, hdate]
  cases date with
  | true => exact ⟨.str "dateTime", rfl⟩
  | false => exact ⟨.str "options", rfl⟩

theorem exists_descriptionIn
    (h : ∀ v, Fields.get? "description" form = some v → ∃ text, v = .str text) :
    ∃ description, descriptionIn form = .ok description := by
  unfold descriptionIn
  dsimp only
  split
  · next htruthy =>
    cases hget : Fields.get? "description" form with
    | none =>
      rw [Fields.get, hget] at htruthy
      cases htruthy
    | some v =>
      obtain ⟨text, rfl⟩ := h v hget
      rw [Fields.get, hget]
      exact ⟨_, rfl⟩
  · exact ⟨none, rfl⟩

/-- A form of options has a block under every name. -/
theorem IsOfOptions.exists_ofSchema {hne : options ≠ []}
    (hof : IsOfOptions source form options hne)
    (hdescribed : ∀ v, Fields.get? "description" form = some v → ∃ text, v = .str text)
    (name : Text) (required : Bool) (shown : Lines) :
    ∃ b, ofSchema (.str name) required shown (.map form) = .ok b := by
  obtain ⟨control, hcontrol⟩ := exists_controlType hof.hasType name
  obtain ⟨description, hdescription⟩ := exists_descriptionIn hdescribed
  have hsingle : ∃ field, singleOf (.str name) required shown form = .ok field :=
    ⟨_, Outcome.bind_eq_ok.2 ⟨control, hcontrol, Outcome.bind_eq_ok.2 ⟨_, hof.choices,
      Outcome.bind_eq_ok.2 ⟨_, hof.default,
        Outcome.bind_eq_ok.2 ⟨description, hdescription, rfl⟩⟩⟩⟩⟩
  obtain ⟨field, hfield⟩ := hsingle
  refine ⟨.single field, ?_⟩
  rw [ofSchema, ofFields, not_isObject_of_hasType hof.hasType (by decide),
    if_neg Bool.false_ne_true, hfield]
  rfl

/-- **Presets.** Every block that is made from a schema with a non-empty `enum` offers its members
and starts with one of them: with the declared default if this counts as given, and otherwise with
the first member. So a default among the members is kept exactly if it counts as given or is written
as the first member is. And if the schema is a plain one, its block does come about. -/
theorem isPreset_of_enum {choices : Value} (henum : Fields.get? "enum" source = some choices)
    (hmembers : choices.members = .ok options) (hne : options ≠ []) (method : Text) :
    (∀ form key required shown b, Schema.formOfFields method source = .ok form →
      ofSchema key required shown (.map form) = .ok b → IsPreset source options hne b) ∧
    (IsPlain source → ∀ name required shown, ∃ form b,
      Schema.formOfFields method source = .ok form ∧
        ofSchema (.str name) required shown (.map form) = .ok b) := by
  constructor
  · intro form key required shown b hform h
    exact (isOfOptions_of_enum henum hmembers hne hform).isPreset h
  · intro hplain name required shown
    obtain ⟨form, hform⟩ := hplain.exists_form henum hmembers method
    have hdescribed := get?_form hform "description" (by decide)
    obtain ⟨b, hb⟩ := (isOfOptions_of_enum henum hmembers hne hform).exists_ofSchema
      (fun v hv => hplain.description v (hdescribed ▸ hv)) name required shown
    exact ⟨form, b, hform, hb⟩

end Blocks

/-- The levels of a light: one and zero, of which zero is declared as the default. -/
def lightSchema : Fields :=
  [(.str "enum", .list [.int 1, .int 0]), (.str "default", .int 0)]

theorem isPreset_lightSchema : ∃ form b, Schema.formOfFields "post" lightSchema = .ok form ∧
    ofSchema (.str "level") false [] (.map form) = .ok b ∧
    IsPreset lightSchema [.int 1, .int 0] (by simp) b := by
  have henum : Fields.get? "enum" lightSchema = some (.list [.int 1, .int 0]) := rfl
  have hplain : IsPlain lightSchema := ⟨rfl, rfl, fun v hv => by cases hv⟩
  obtain ⟨hpreset, hexists⟩ := isPreset_of_enum henum rfl (by simp) "post"
  obtain ⟨form, b, hform, hb⟩ := hexists hplain "level" false []
  exact ⟨form, b, hform, hb, hpreset form (.str "level") false [] b hform hb⟩

/-- The block for the levels starts with one, though zero is the default and one of the options. -/
theorem not_kept_lightSchema : ∃ form b, Schema.formOfFields "post" lightSchema = .ok form ∧
    ofSchema (.str "level") false [] (.map form) = .ok b ∧
    Fields.get? "default" lightSchema = some (.int 0) ∧ Value.int 0 ∈ [Value.int 1, Value.int 0] ∧
    b.choices? = some ([Value.int 1, Value.int 0].map choiceOf) ∧
    b.default? = some (optionLiteral (.int 1)) ∧
    b.default? ≠ some (optionLiteral (.int 0)) := by
  refine ⟨_, _, rfl, rfl, rfl, by simp, ?_, ?_, ?_⟩
  · decide
  · decide
  · decide

end NodeForge.Source
