import NodeForge.Proofs.Document.Entries
import NodeForge.Proofs.Outcome
import NodeForge.Source.Dispatch

/-!
# The fields that are read are those that are declared

The code that runs an operation reads fields of the node by their names, and the description of the
operation declares fields under names. Both are built from the operation, each in its own way.
`TakesField` says which names an operation takes, apart from both of them; `mem_reads_iff` and
`mem_names_iff` say that the code reads exactly these, and that exactly these are declared.
-/

namespace NodeForge.Source

/-! ### Names -/

/-- A line of the code that runs an operation, by whether it reads a field of the node. -/
inductive RunLine where
  | reading (front name type : Text)
  | other (text : Text)

/-- The text of a line. -/
def RunLine.text : RunLine → Text
  | .reading front name type => front ++ readExpression name type
  | .other text => text

/-- The name of the field that a line reads. -/
def RunLine.read? : RunLine → Option Text
  | .reading _ name _ => some name
  | .other _ => none

/-- The lines of a statement by whether they read. -/
def Statement.runLines : Statement → List RunLine
  | .readPath constant name => [.reading ("const " ++ constant ++ " = ") name "string"]
  | .store carrier key name type => [.reading (carrier.text ++ "." ++ key ++ " = ") name type]
  | .readGroup constant name => [.reading ("const " ++ constant ++ " = ") name "IDataObject"]
  | .call c =>
    if c.getAll then
      [.reading "const returnAll = " "returnAll" "boolean", .other "if (returnAll) \x7b",
        .other ("\tresponseData = await " ++ allItems c.helper ++ ".call(" ++ c.arguments ++ ");"),
        .other "\x7d else \x7b", .reading "\tconst limit = " "limit" "number",
        .other ("\tresponseData = await " ++ allItems c.helper ++ ".call(" ++ c.arguments ++
          ", limit);"),
        .other "\x7d"]
    else c.lines.map .other
  | s => s.lines.map .other

/-- The names under which a statement reads fields of the node. -/
def Statement.reads (s : Statement) : List Text := s.runLines.filterMap RunLine.read?

/-- The names of the fields that an operation takes. -/
inductive TakesField (o : Operation) : Text → Prop where
  | parameter {p : Parameter} (h : p ∈ o.parameters) : TakesField o p.name
  /-- A property of a standard body. -/
  | standard {body : RequestBody} {properties : Fields} {e : Scalar × Value}
      (hbody : body ∈ o.standardBodies) (hproperties : bodyProperties body = .ok properties)
      (he : e ∈ properties) : TakesField o e.1.text
  /-- A group of fields that travel in the body. -/
  | bodyGroup {name : GroupName} (h : name ∈ bodyGroups o) : TakesField o (Naming.camel name.text)
  /-- A group of fields that travel in the query string. -/
  | fieldGroup {g : FieldGroup} (h : g ∈ o.fieldGroups) : TakesField o (Naming.camel g.name.text)
  | returnAll (h : o.isGetAll = true) : TakesField o "returnAll"
  | limit (h : o.isGetAll = true) : TakesField o "limit"

/-- What a branch tests: its variable and the literal that it compares it with. -/
def Fragment.tested : Fragment → Option (Subject × Text)
  | .branch subject literal _ => some (subject, literal)
  | .close _ _ => none

/-! ### Names in the written code -/

theorem map_text_runLines (s : Statement) : s.runLines.map RunLine.text = s.lines := by
  have hother (lines : Lines) : (lines.map RunLine.other).map RunLine.text = lines := by
    rw [List.map_map]
    exact List.map_id lines
  cases s with
  | call c =>
    rw [Statement.runLines, Statement.lines]
    split
    · next hall =>
      rw [Call.lines, if_pos hall]
      rfl
    · exact hother _
  | _ => rfl

theorem reads_call (c : Call) :
    (Statement.call c).reads = if c.getAll then ["returnAll", "limit"] else [] := by
  have hother (lines : Lines) : (lines.map RunLine.other).filterMap RunLine.read? = [] := by
    simp [List.filterMap_map, Function.comp_def, RunLine.read?]
  rw [Statement.reads, Statement.runLines]
  split
  · rfl
  · exact hother _

/-- A block names its field in a line of its own. -/
theorem name_mem_lines (b : FieldBlock) : FieldBlock.quotedLine "name" b.name ∈ b.lines := by
  cases b with
  | limit shown => exact .tail _ (.tail _ (.head _))
  | _ => exact .tail _ (.tail _ (.head _))

/-- A block holds the lines that say when it is shown. -/
theorem shown_infix_lines (b : FieldBlock) : b.shown <:+: b.lines := by
  have hpart {part : Lines} {parts : List Lines} (h : part ∈ parts) : part <:+: code parts :=
    List.infix_of_mem_flatten h
  have hend (required : Bool) (shown : Lines) : shown <:+: FieldBlock.endLines required shown :=
    hpart (by simp)
  cases b with
  | single f => exact (hend f.required f.shown).trans (hpart (by simp))
  | fixedCollection name title nestedName description values required shown =>
    rw [FieldBlock.lines]
    exact (hend required shown).trans (hpart (by simp))
  | collection name title prompt shown options =>
    rw [FieldBlock.lines]
    exact hpart (by simp [FieldBlock.shown])
  | limit shown => exact hpart (by simp [FieldBlock.shown])

/-! ### Rows -/

/-- What is made of the results of a row of steps is what is made of each of them. -/
theorem mem_flatMap_of_mapM {ε α β γ : Type} {f : α → Except ε β} {xs : List α} {ys : List β}
    (h : xs.mapM f = .ok ys) {g : β → List γ} {R : α → γ → Prop}
    (hR : ∀ x ∈ xs, ∀ y, f x = .ok y → ∀ c, c ∈ g y ↔ R x c) {c : γ} :
    c ∈ ys.flatMap g ↔ ∃ x ∈ xs, R x c := by
  have hrows := Outcome.mapM_eq_ok.1 h
  rw [List.mem_flatMap]
  constructor
  · rintro ⟨y, hy, hc⟩
    obtain ⟨x, hx, hxy⟩ := Outcome.exists_left_of_mem hrows hy
    exact ⟨x, hx, (hR x hx y hxy c).1 hc⟩
  · rintro ⟨x, hx, hc⟩
    obtain ⟨y, hy, hxy⟩ := Outcome.exists_right_of_mem hrows hx
    exact ⟨y, hy, (hR x hx y hxy c).2 hc⟩

/-- Where each result makes one thing, known beforehand, a row of steps makes these things. -/
theorem mem_flatMap_of_single {ε α β γ : Type} {f : α → Except ε β} {xs : List α} {ys : List β}
    (h : xs.mapM f = .ok ys) {g : β → List γ} {key : α → γ}
    (hkey : ∀ x ∈ xs, ∀ y, f x = .ok y → g y = [key x]) {c : γ} :
    c ∈ ys.flatMap g ↔ ∃ x ∈ xs, key x = c := by
  refine mem_flatMap_of_mapM h fun x hx y hxy c => ?_
  rw [hkey x hx y hxy, List.mem_singleton]
  exact eq_comm

variable {o : Operation}

/-- Whether a name is the key of a property of a standard body. -/
def IsStandardKey (o : Operation) (name : Text) : Prop :=
  ∃ body ∈ o.standardBodies, ∃ properties, bodyProperties body = .ok properties ∧
    ∃ e ∈ properties, e.1.text = name

/-- What is made of the properties of the standard bodies one by one, each under its key, has their
keys. -/
theorem mem_flatMap_of_standard {β : Type} {step : Scalar × Value → Except Fault β}
    {rows : List (List β)} {names : β → List Text}
    (h : o.standardBodies.mapM (fun body => do (← bodyProperties body).mapM step) = .ok rows)
    (hkey : ∀ e b, step e = .ok b → names b = [e.1.text]) {name : Text} :
    name ∈ rows.flatten.flatMap names ↔ IsStandardKey o name := by
  rw [← List.flatMap_id', List.flatMap_assoc]
  refine mem_flatMap_of_mapM (R := fun body name => ∃ properties,
    bodyProperties body = .ok properties ∧ ∃ e ∈ properties, e.1.text = name) h
    fun body _ row hrow n => ?_
  obtain ⟨properties, hproperties, hrow⟩ := Outcome.bind_eq_ok.1 hrow
  rw [mem_flatMap_of_single hrow fun e _ => hkey e]
  simp only [hproperties, Except.ok.injEq, exists_eq_left']

/-! ### Groups -/

/-- Adding to a group makes sure that it is there. -/
theorem mem_keys_add {groups : Groups} {name added : GroupName} {properties : Fields} :
    name ∈ Entries.keys (Groups.add groups added properties) ↔
      name ∈ Entries.keys groups ∨ name = added := by
  rw [Groups.add, Entries.keys_put]
  split
  · next hthere =>
    obtain ⟨own, hown, hsame⟩ := List.any_eq_true.1 hthere
    rw [eq_of_beq hsame] at hown
    exact ⟨Or.inl, fun h => h.elim id fun heq => heq ▸ hown⟩
  · rw [List.mem_append, List.mem_singleton]

/-- The groups of an operation are those of its bodies and those of its query fields. -/
theorem mem_keys_groupsOf {groups : Groups} (h : groupsOf o = .ok groups) {name : GroupName} :
    name ∈ Entries.keys groups ↔ name ∈ bodyGroups o ∨ ∃ g ∈ o.fieldGroups, g.name = name := by
  have hfold (parts : List (GroupName × Fields)) (groups : Groups) :
      name ∈ Entries.keys
          (parts.foldl (fun groups part => Groups.add groups part.1 part.2) groups) ↔
        name ∈ Entries.keys groups ∨ name ∈ Entries.keys parts := by
    induction parts generalizing groups with
    | nil => simp [Entries.keys]
    | cons part rest ih =>
      rw [List.foldl_cons, ih, mem_keys_add, Entries.keys_cons, List.mem_cons, or_assoc]
  obtain ⟨bodies, hbodies, h⟩ := Outcome.bind_eq_ok.1 h
  rw [Outcome.pure_eq_ok] at h
  have hnames : bodies.map Prod.fst = bodyGroups o := by
    refine (Outcome.map_eq_map_of_forall₂ (fun b part hpart => ?_)
      (Outcome.mapM_eq_ok.1 hbodies)).symm
    obtain ⟨properties, -, hpart⟩ := Outcome.bind_eq_ok.1 hpart
    rw [Outcome.pure_eq_ok] at hpart
    rw [← hpart]
  rw [← h, hfold, Entries.keys, Entries.keys, List.map_append, List.mem_append, hnames]
  simp

/-! ### What is read -/

@[simp] theorem reads_readPath (constant name : Text) :
    (Statement.readPath constant name).reads = [name] := rfl

@[simp] theorem reads_endpoint (template : Text) : (Statement.endpoint template).reads = [] := rfl

theorem reads_filling (carrier : Carrier) (statements : List Statement) :
    (filling carrier statements).flatMap Statement.reads = statements.flatMap Statement.reads := by
  cases statements <;> rfl

theorem reads_groupStatements (carrier : Carrier) (name : GroupName) :
    (groupStatements carrier name).flatMap Statement.reads = [Naming.camel name.text] := rfl

theorem reads_queryStatements {p : Parameter} {statements : List Statement}
    (h : queryStatements p = .ok statements) :
    statements.flatMap Statement.reads = [p.name] := by
  unfold queryStatements at h
  split at h
  -- the optional parameter called `query` is read as a group
  · next hquery =>
    rw [Outcome.pure_eq_ok] at h
    rw [Bool.and_eq_true, beq_iff_eq] at hquery
    rw [← h, hquery.1]
    rfl
  · obtain ⟨type, -, h⟩ := Outcome.bind_eq_ok.1 h
    rw [Outcome.pure_eq_ok] at h
    rw [← h]
    rfl

/-- The query string is filled from the query parameters and from the groups that do not travel in
the body. -/
theorem mem_reads_queryFilling {statements : List Statement} (h : queryFilling o = .ok statements)
    {name : Text} : name ∈ statements.flatMap Statement.reads ↔
      (∃ p ∈ o.queryParameters, p.name = name) ∨
        ∃ g ∈ o.fieldGroups, g.name ∉ bodyGroups o ∧ Naming.camel g.name.text = name := by
  obtain ⟨single, hsingle, h⟩ := Outcome.bind_eq_ok.1 h
  rw [Outcome.pure_eq_ok] at h
  have hparameters : name ∈ single.flatten.flatMap Statement.reads ↔
      ∃ p ∈ o.queryParameters, p.name = name := by
    rw [← List.flatMap_id', List.flatMap_assoc]
    exact mem_flatMap_of_single hsingle fun p _ ss => reads_queryStatements
  have hgroups : name ∈ ((o.fieldGroups.filter fun g => !(bodyGroups o).contains g.name).flatMap
      fun g => groupStatements .query g.name).flatMap Statement.reads ↔
      ∃ g ∈ o.fieldGroups, g.name ∉ bodyGroups o ∧ Naming.camel g.name.text = name := by
    rw [List.flatMap_assoc]
    simp only [reads_groupStatements, List.mem_flatMap, List.mem_filter, List.mem_singleton,
      Bool.not_eq_true', List.contains_eq_mem, decide_eq_false_iff_not, and_assoc]
    exact exists_congr fun g => and_congr_right fun _ => and_congr_right fun _ => eq_comm
  rw [← h, reads_filling, List.flatMap_append, List.mem_append, hparameters, hgroups]

/-- A field of the standard body is read under its own key. -/
theorem reads_fieldStatement {key : Scalar} {schema : Value} {s : Statement}
    (h : fieldStatement key schema = .ok s) : s.reads = [key.text] := by
  obtain ⟨name, hname, h⟩ := Outcome.bind_eq_ok.1 h
  obtain ⟨type, -, h⟩ := Outcome.bind_eq_ok.1 h
  rw [Outcome.pure_eq_ok] at h
  rw [← h, Outcome.asText_eq_ok.1 hname]
  rfl

/-- The body is filled from the properties of the standard bodies and from the groups that travel in
it. -/
theorem mem_reads_bodyFilling {statements : List Statement} (h : bodyFilling o = .ok statements)
    {name : Text} : name ∈ statements.flatMap Statement.reads ↔
      IsStandardKey o name ∨ ∃ group ∈ bodyGroups o, Naming.camel group.text = name := by
  obtain ⟨standard, hstandard, h⟩ := Outcome.bind_eq_ok.1 h
  obtain ⟨groups, hgroups, h⟩ := Outcome.bind_eq_ok.1 h
  rw [Outcome.pure_eq_ok] at h
  have hproperties : name ∈ standard.flatten.flatMap Statement.reads ↔ IsStandardKey o name :=
    mem_flatMap_of_standard hstandard fun _ _ => reads_fieldStatement
  have hgroup : name ∈ ((groups.filter fun g => (bodyGroups o).contains g.1).flatMap
      fun g => groupStatements .body g.1).flatMap Statement.reads ↔
      ∃ group ∈ bodyGroups o, Naming.camel group.text = name := by
    rw [List.flatMap_assoc]
    simp only [reads_groupStatements, List.mem_flatMap, List.mem_filter, List.mem_singleton,
      List.contains_iff_mem]
    constructor
    · rintro ⟨g, ⟨-, hbody⟩, rfl⟩
      exact ⟨g.1, hbody, rfl⟩
    · rintro ⟨group, hbody, rfl⟩
      -- every group of a body is among the groups of the operation
      obtain ⟨g, hg, rfl⟩ := List.mem_map.1 ((mem_keys_groupsOf hgroups).2 (Or.inl hbody))
      exact ⟨g, ⟨hg, hbody⟩, rfl⟩
  rw [← h, reads_filling, List.flatMap_append, List.mem_append, hproperties, hgroup]

theorem mem_parameters_iff {p : Parameter} :
    p ∈ o.parameters ↔ p ∈ o.pathParameters ∨ p ∈ o.queryParameters := by
  rw [Operation.pathParameters, Operation.queryParameters, List.mem_filter, List.mem_filter]
  cases p.location <;> simp

/-- **What is read.** The code that runs an operation reads exactly the fields that the operation
takes. -/
theorem mem_reads_iff {helper : Text} {statements : List Statement}
    (h : requestStatements helper o = .ok statements) {name : Text} :
    name ∈ statements.flatMap Statement.reads ↔ TakesField o name := by
  obtain ⟨query, hquery, h⟩ := Outcome.bind_eq_ok.1 h
  obtain ⟨body, hbody, h⟩ := Outcome.bind_eq_ok.1 h
  rw [Outcome.pure_eq_ok] at h
  have hpath : name ∈ (pathStatements o).flatMap Statement.reads ↔
      ∃ p ∈ o.pathParameters, p.name = name := by
    rw [pathStatements, List.flatMap_map]
    simp only [reads_readPath, List.mem_flatMap, List.mem_singleton]
    exact exists_congr fun p => and_congr_right fun _ => eq_comm
  have hcall : name ∈ (Statement.call (callOf helper o (!query.isEmpty) (!body.isEmpty))).reads ↔
      o.isGetAll = true ∧ (name = "returnAll" ∨ name = "limit") := by
    rw [reads_call, callOf]
    cases o.isGetAll <;> simp
  have hparts : name ∈ statements.flatMap Statement.reads ↔
      (∃ p ∈ o.pathParameters, p.name = name) ∨ name ∈ query.flatMap Statement.reads ∨
        name ∈ body.flatMap Statement.reads ∨
          o.isGetAll = true ∧ (name = "returnAll" ∨ name = "limit") := by
    rw [← h, List.flatMap_append, List.flatMap_append, List.flatMap_append, List.mem_append,
      List.mem_append, List.mem_append, hpath, or_assoc, or_assoc, List.flatMap_cons,
      List.flatMap_cons, List.flatMap_nil, List.append_nil, List.mem_append, hcall, reads_endpoint]
    simp
  rw [hparts, mem_reads_queryFilling hquery, mem_reads_bodyFilling hbody]
  constructor
  · rintro (⟨p, hp, rfl⟩ | (⟨p, hp, rfl⟩ | ⟨g, hg, -, rfl⟩) |
      (⟨b, hb, properties, hproperties, e, he, rfl⟩ | ⟨group, hgroup, rfl⟩) | ⟨hall, rfl | rfl⟩)
    · exact .parameter (mem_parameters_iff.2 (Or.inl hp))
    · exact .parameter (mem_parameters_iff.2 (Or.inr hp))
    · exact .fieldGroup hg
    · exact .standard hb hproperties he
    · exact .bodyGroup hgroup
    · exact .returnAll hall
    · exact .limit hall
  · intro htakes
    cases htakes with
    | parameter hp =>
      rcases mem_parameters_iff.1 hp with hp | hp
      · exact Or.inl ⟨_, hp, rfl⟩
      · exact Or.inr (Or.inl (Or.inl ⟨_, hp, rfl⟩))
    | standard hb hproperties he =>
      exact Or.inr (Or.inr (Or.inl (Or.inl ⟨_, hb, _, hproperties, _, he, rfl⟩)))
    | bodyGroup hgroup => exact Or.inr (Or.inr (Or.inl (Or.inr ⟨_, hgroup, rfl⟩)))
    | @fieldGroup g hg =>
      -- a group of query fields is read into the body where a body has a group of this name
      by_cases hbody : g.name ∈ bodyGroups o
      · exact Or.inr (Or.inr (Or.inl (Or.inr ⟨_, hbody, rfl⟩)))
      · exact Or.inr (Or.inl (Or.inr ⟨g, hg, hbody, rfl⟩))
    | returnAll hall => exact Or.inr (Or.inr (Or.inr ⟨hall, Or.inl rfl⟩))
    | limit hall => exact Or.inr (Or.inr (Or.inr ⟨hall, Or.inr rfl⟩))

/-! ### What is declared -/

theorem block_of_ofSchema {key : Scalar} {required : Bool} {shown : Lines} {schema : Value}
    {b : FieldBlock} (h : FieldBlock.ofSchema key required shown schema = .ok b) :
    b.name = key.text ∧ b.shown = shown := by
  cases schema with
  | map es =>
    rw [FieldBlock.ofSchema, FieldBlock.ofFields] at h
    split at h
    · obtain ⟨description, -, h⟩ := Outcome.bind_eq_ok.1 h
      obtain ⟨nestedKey, -, h⟩ := Outcome.bind_eq_ok.1 h
      obtain ⟨values, -, h⟩ := Outcome.bind_eq_ok.1 h
      rw [Outcome.pure_eq_ok] at h
      rw [← h]
      exact ⟨rfl, rfl⟩
    · obtain ⟨field, hfield, h⟩ := Outcome.bind_eq_ok.1 h
      obtain ⟨control, -, hfield⟩ := Outcome.bind_eq_ok.1 hfield
      obtain ⟨choices, -, hfield⟩ := Outcome.bind_eq_ok.1 hfield
      obtain ⟨default, -, hfield⟩ := Outcome.bind_eq_ok.1 hfield
      obtain ⟨description, -, hfield⟩ := Outcome.bind_eq_ok.1 hfield
      rw [Outcome.pure_eq_ok] at hfield h
      rw [← h, ← hfield]
      exact ⟨rfl, rfl⟩
  | _ => simp [FieldBlock.ofSchema] at h

theorem block_of_ofGroup {title : Text} {properties : Value} {shown : Lines} {b : FieldBlock}
    (h : FieldBlock.ofGroup title properties shown = .ok b) :
    b.name = Naming.camel title ∧ b.shown = shown := by
  obtain ⟨entries, -, h⟩ := Outcome.bind_eq_ok.1 h
  obtain ⟨options, -, h⟩ := Outcome.bind_eq_ok.1 h
  rw [Outcome.pure_eq_ok] at h
  rw [← h]
  exact ⟨rfl, rfl⟩

theorem block_of_parameterBlock {shown : Lines} {p : Parameter} {b : FieldBlock}
    (h : parameterBlock shown p = .ok b) :
    b.name = p.name ∧ b.shown = shown := by
  unfold parameterBlock at h
  dsimp only at h
  split at h
  -- the collection of the query object has the name of its parameter
  · next hquery =>
    obtain ⟨hname, hshown⟩ := block_of_ofGroup h
    rw [isQueryCollection, Bool.and_eq_true, Bool.and_eq_true, beq_iff_eq] at hquery
    refine ⟨?_, hshown⟩
    rw [hname, hquery.1.1]
    decide
  · exact block_of_ofSchema h

/-- A block is shown under the literals that the branches for an operation test, in whatever chains
they stand; only the limit is hidden beyond that, where all results are asked for. -/
structure IsShownFor (resource : Text) (o : Operation) (b : FieldBlock) (c : Condition) : Prop where
  resource_tested : ∀ names, (resourceBranch names resource).tested = some (.resource, c.resource)
  operation_tested : ∀ operations,
    (operationBranch operations o).tested = some (.operation, c.operation)
  shown_eq : b.shown = c.lines
  limit_of_unlessAll : c.unlessAll = true → b = .limit c.lines

theorem isShownFor_of {resource : Text} {b : FieldBlock}
    (h : b.shown = (Condition.of resource o.operationId).lines) :
    IsShownFor resource o b (.of resource o.operationId) :=
  ⟨fun _ => rfl, fun _ => rfl, h, nofun⟩

theorem mem_names_pagingBlocks {resource name : Text} :
    name ∈ (pagingBlocks resource o).map FieldBlock.name ↔
      o.isGetAll = true ∧ (name = "returnAll" ∨ name = "limit") := by
  rw [pagingBlocks]
  split
  · next hall => simp [hall, FieldBlock.returnAll, FieldBlock.name]
  · next hall => simp [hall]

/-- The blocks of an operation, part by part. -/
theorem operationBlocks_eq_ok {resource : Text} {blocks : List FieldBlock}
    (h : operationBlocks resource o = .ok blocks) :
    ∃ parameters standard groups blocksOfGroups,
      o.parameters.mapM (parameterBlock (Condition.of resource o.operationId).lines) =
        .ok parameters ∧
      o.standardBodies.mapM (bodyBlocks (Condition.of resource o.operationId).lines) =
        .ok standard ∧
      groupsOf o = .ok groups ∧
      groups.mapM (fun g => FieldBlock.ofGroup g.1.text (.map g.2)
        (Condition.of resource o.operationId).lines) = .ok blocksOfGroups ∧
      blocks = parameters ++ standard.flatten ++ blocksOfGroups ++ pagingBlocks resource o := by
  obtain ⟨parameters, hparameters, h⟩ := Outcome.bind_eq_ok.1 h
  obtain ⟨standard, hstandard, h⟩ := Outcome.bind_eq_ok.1 h
  obtain ⟨groups, hgroups, h⟩ := Outcome.bind_eq_ok.1 h
  obtain ⟨blocksOfGroups, hblocks, h⟩ := Outcome.bind_eq_ok.1 h
  rw [Outcome.pure_eq_ok] at h
  exact ⟨parameters, standard, groups, blocksOfGroups, hparameters, hstandard, hgroups, hblocks,
    h.symm⟩

/-- **What is declared.** The blocks of an operation declare exactly the fields that the operation
takes. -/
theorem mem_names_iff {resource : Text} {blocks : List FieldBlock}
    (h : operationBlocks resource o = .ok blocks) {name : Text} :
    name ∈ blocks.map FieldBlock.name ↔ TakesField o name := by
  obtain ⟨parameters, standard, groups, blocksOfGroups, hparameters, hstandard, hgroups, hblocks,
    rfl⟩ := operationBlocks_eq_ok h
  have hparameter : name ∈ parameters.map FieldBlock.name ↔ ∃ p ∈ o.parameters, p.name = name := by
    rw [List.map_eq_flatMap]
    exact mem_flatMap_of_single hparameters fun p _ b hb => by rw [(block_of_parameterBlock hb).1]
  have hproperty : name ∈ standard.flatten.map FieldBlock.name ↔ IsStandardKey o name := by
    rw [List.map_eq_flatMap]
    exact mem_flatMap_of_standard hstandard fun e b hb => by rw [(block_of_ofSchema hb).1]
  have hgroup : name ∈ blocksOfGroups.map FieldBlock.name ↔
      ∃ group ∈ Entries.keys groups, Naming.camel group.text = name := by
    rw [List.map_eq_flatMap]
    simp only [Entries.keys, List.mem_map, exists_exists_and_eq_and]
    exact mem_flatMap_of_single hblocks fun g _ b hb => by rw [(block_of_ofGroup hb).1]
  rw [List.map_append, List.map_append, List.map_append, List.mem_append, List.mem_append,
    List.mem_append, hparameter, hproperty, hgroup, mem_names_pagingBlocks]
  simp only [mem_keys_groupsOf hgroups]
  constructor
  · rintro (((⟨p, hp, rfl⟩ | ⟨body, hbody, properties, hproperties, e, he, rfl⟩) |
      ⟨_, hbody | ⟨g, hg, rfl⟩, rfl⟩) | ⟨hall, rfl | rfl⟩)
    · exact .parameter hp
    · exact .standard hbody hproperties he
    · exact .bodyGroup hbody
    · exact .fieldGroup hg
    · exact .returnAll hall
    · exact .limit hall
  · intro htakes
    cases htakes with
    | parameter hp => exact Or.inl (Or.inl (Or.inl ⟨_, hp, rfl⟩))
    | standard hbody hproperties he =>
      exact Or.inl (Or.inl (Or.inr ⟨_, hbody, _, hproperties, _, he, rfl⟩))
    | bodyGroup hbody => exact Or.inl (Or.inr ⟨_, Or.inl hbody, rfl⟩)
    | fieldGroup hg => exact Or.inl (Or.inr ⟨_, Or.inr ⟨_, hg, rfl⟩, rfl⟩)
    | returnAll hall => exact Or.inr ⟨hall, Or.inl rfl⟩
    | limit hall => exact Or.inr ⟨hall, Or.inr rfl⟩

/-- Every block of an operation is shown for the operation alone. -/
theorem exists_isShownFor {resource : Text} {blocks : List FieldBlock}
    (h : operationBlocks resource o = .ok blocks) {b : FieldBlock} (hb : b ∈ blocks) :
    ∃ c, IsShownFor resource o b c := by
  obtain ⟨parameters, standard, groups, blocksOfGroups, hparameters, hstandard, -, hblocks,
    rfl⟩ := operationBlocks_eq_ok h
  rw [List.mem_append, List.mem_append, List.mem_append] at hb
  rcases hb with ((hb | hb) | hb) | hb
  · obtain ⟨p, -, hp⟩ := Outcome.exists_left_of_mem (Outcome.mapM_eq_ok.1 hparameters) hb
    exact ⟨_, isShownFor_of (block_of_parameterBlock hp).2⟩
  · obtain ⟨bs, hbs, hb⟩ := List.mem_flatten.1 hb
    obtain ⟨body, -, hbody⟩ := Outcome.exists_left_of_mem (Outcome.mapM_eq_ok.1 hstandard) hbs
    obtain ⟨properties, -, hbody⟩ := Outcome.bind_eq_ok.1 hbody
    obtain ⟨e, -, he⟩ := Outcome.exists_left_of_mem (Outcome.mapM_eq_ok.1 hbody) hb
    exact ⟨_, isShownFor_of (block_of_ofSchema he).2⟩
  · obtain ⟨g, -, hg⟩ := Outcome.exists_left_of_mem (Outcome.mapM_eq_ok.1 hblocks) hb
    exact ⟨_, isShownFor_of (block_of_ofGroup hg).2⟩
  · rw [pagingBlocks] at hb
    split at hb
    · rcases List.mem_cons.1 hb with rfl | hb
      · exact ⟨_, isShownFor_of rfl⟩
      · rw [List.mem_singleton.1 hb]
        exact ⟨{ Condition.of resource o.operationId with unlessAll := true }, fun _ => rfl,
          fun _ => rfl, rfl, fun _ => rfl⟩
    · cases hb

/-! ### Both sides -/

theorem linesOfAll_eq (blocks : List FieldBlock) :
    FieldBlock.linesOfAll blocks = blocks.flatMap FieldBlock.lines := by
  induction blocks with
  | nil => rfl
  | cons b rest ih => rw [FieldBlock.linesOfAll, ih, List.flatMap_cons]

/-- **What is read is declared.** Where an operation has both its code and its description, the code
reads fields under exactly the names of the blocks of the description, and each of these blocks is
shown for the literals that lead to the code. -/
theorem reads_iff_declares {helper resource : Text} {written declared : Lines}
    (hwritten : requestLines helper o = .ok written)
    (hdeclared : operationFieldLines resource o = .ok declared) :
    ∃ statements blocks, requestStatements helper o = .ok statements ∧
      operationBlocks resource o = .ok blocks ∧
      written = (statements.flatMap Statement.runLines).map RunLine.text ∧
      declared = (Divider.ofOperation resource o.operationId).lines ++
        blocks.flatMap FieldBlock.lines ∧
      (∀ name, name ∈ (statements.flatMap Statement.runLines).filterMap RunLine.read? ↔
        name ∈ blocks.map FieldBlock.name) ∧
      (∀ name, name ∈ blocks.map FieldBlock.name ↔ TakesField o name) ∧
      ∀ b ∈ blocks, FieldBlock.quotedLine "name" b.name ∈ b.lines ∧
        ∃ c, IsShownFor resource o b c ∧ c.lines <:+: b.lines := by
  obtain ⟨statements, hstatements, hwritten⟩ := Outcome.bind_eq_ok.1 hwritten
  obtain ⟨blocks, hblocks, hdeclared⟩ := Outcome.bind_eq_ok.1 hdeclared
  rw [Outcome.pure_eq_ok] at hwritten hdeclared
  refine ⟨statements, blocks, hstatements, hblocks, ?_, ?_, fun name => ?_,
    fun name => mem_names_iff hblocks, fun b hb => ?_⟩
  · rw [← hwritten, List.map_flatMap]
    exact List.flatMap_congr fun s _ => (map_text_runLines s).symm
  · rw [← hdeclared, linesOfAll_eq]
  · rw [List.filterMap_flatMap, mem_names_iff hblocks]
    exact mem_reads_iff hstatements
  · obtain ⟨c, hc⟩ := exists_isShownFor hblocks hb
    refine ⟨name_mem_lines b, c, hc, ?_⟩
    rw [← hc.shown_eq]
    exact shown_infix_lines b

/-- The retrieval of the orders of a customer: with a field in the path, one in the query string, a
query object, a field of the standard body, and the group of additional fields twice, of the body
and of the query string. -/
def ordersOperation : Operation where
  endpoint := "/customers/\x7bcustomer id\x7d/orders"
  requestMethod := "GET"
  operationId := "getAll"
  description := none
  summary := none
  operationUrl := none
  parameters := [
    ⟨.path, "customer id", true, [(.str "type", .str "string")], none, none⟩,
    ⟨.query, "state", true, [(.str "type", .str "string")], some "State of the order", none⟩,
    ⟨.query, "query", false, [(.str "type", .str "object"),
      (.str "properties", .record [("page", .record [("type", .str "integer")])])], none, none⟩]
  requestBody := [
    ⟨.standard, true, none, [("application/json",
      [(.str "schema", .record [("properties", .record [
        ("item_name", .record [("type", .str "string")])])])])]⟩,
    ⟨.additionalFields, false, none, [("application/json",
      [(.str "schema", .record [("properties", .record [
        ("note", .record [("type", .str "string")])])])])]⟩]
  additionalFields := some ⟨.additionalFields, "", [], [
    ⟨.query, "sort", false, [(.str "type", .str "string")], none, none⟩]⟩
  updateFields := none

theorem reads_iff_declares_ordersOperation : ∃ statements blocks,
    requestStatements "shopApiRequest" ordersOperation = .ok statements ∧
    operationBlocks "order" ordersOperation = .ok blocks ∧
    (∀ name, name ∈ (statements.flatMap Statement.runLines).filterMap RunLine.read? ↔
      name ∈ blocks.map FieldBlock.name) ∧
    ∀ b ∈ blocks, ∃ c, IsShownFor "order" ordersOperation b c := by
  obtain ⟨written, hwritten⟩ := Outcome.isOk_iff.1
    (by decide +kernel : (requestLines "shopApiRequest" ordersOperation).isOk = true)
  obtain ⟨declared, hdeclared⟩ := Outcome.isOk_iff.1
    (by decide +kernel : (operationFieldLines "order" ordersOperation).isOk = true)
  obtain ⟨statements, blocks, hstatements, hblocks, -, -, hnames, -, hshown⟩ :=
    reads_iff_declares hwritten hdeclared
  refine ⟨statements, blocks, hstatements, hblocks, hnames, fun b hb => ?_⟩
  obtain ⟨-, c, hc, -⟩ := hshown b hb
  exact ⟨c, hc⟩

end NodeForge.Source
