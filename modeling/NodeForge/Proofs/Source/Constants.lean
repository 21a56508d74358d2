import Mathlib.Data.List.Nodup
import NodeForge.Proofs.Naming.Stems
import NodeForge.Proofs.Source.Statements

/-!
# The constants of a request

The code that runs an operation declares constants: one for each path parameter, named by it in
camel case, and further ones under names of its own. `declared?` reads them off the lines that the
statements are written as. Those of its own are never in each other's way, unless two query
parameters are read as a group (`nodup_ownConstants_iff`), so a constant is declared twice exactly
where the names of two path parameters, or such a name and one of its own, fold together
(`nodup_constants_iff`).
-/

namespace NodeForge.Source

variable {o : Operation} {helper : Text} {statements : List Statement}

/-! ### Reading lines -/

/-- The constant that a line of a statement declares at the outermost level. Lines inside a block
begin with a tab. A line is what the statement is written as, whatever the texts in it hold: the
template of an endpoint with a line end in it is one line here. -/
def declared? (line : Text) : Option Text :=
  if Text.startsWith "const " line then some ((line.drop 6).takeWhile Naming.isWordSign) else none

theorem declared?_const {name : Text} (hname : ∀ s ∈ name, Naming.isWordSign s = true)
    {s : Sign} (hs : Naming.isWordSign s = false) (rest : Text) :
    declared? ("const " ++ name ++ s :: rest) = some name := by
  have hstart : Text.startsWith "const " ("const " ++ name ++ s :: rest) = true := by
    rw [Text.startsWith, List.append_assoc]
    exact List.isPrefixOf_iff_prefix.2 (List.prefix_append _ _)
  have hdrop : ("const " ++ name ++ s :: rest : Text).drop 6 = name ++ s :: rest := by
    rw [List.append_assoc]
    rfl
  rw [declared?, if_pos hstart, hdrop, List.takeWhile_append_of_pos hname,
    List.takeWhile_cons_of_neg (by rw [hs]; exact Bool.false_ne_true), List.append_nil]

theorem declared?_eq_none {s : Sign} (h : s ≠ .char 'c') (rest : Text) :
    declared? (s :: rest) = none := by
  have hstart : Text.startsWith "const " (s :: rest) = false := by
    show (Sign.char 'c' == s && _) = false
    rw [beq_eq_false_iff_ne.2 h.symm, Bool.false_and]
  rw [declared?, hstart]
  rfl

/-- The constants that a statement declares at the outermost level. -/
def Statement.constants (s : Statement) : List Text := s.lines.filterMap declared?

theorem filterMap_declared (statements : List Statement) :
    (statements.flatMap Statement.lines).filterMap declared? =
      statements.flatMap Statement.constants :=
  List.filterMap_flatMap

theorem declared?_constantLine {constant : Text}
    (h : ∀ s ∈ constant, Naming.isWordSign s = true) (name type : Text) :
    declared? (constantLine constant name type) = some constant := by
  rw [constantLine, List.append_assoc]
  exact declared?_const h (by decide) _

@[simp] theorem constants_readPath (name : Text) :
    (Statement.readPath (Naming.camel name) name).constants = [Naming.camel name] := by
  rw [Statement.constants, Statement.lines, List.filterMap_cons_some
    (declared?_constantLine (fun _ hs => Naming.isWordSign_of_mem_camel hs) _ _)]
  rfl

theorem constants_groupStatements (carrier : Carrier) (name : GroupName) :
    (groupStatements carrier name).flatMap Statement.constants = [Naming.camel name.text] := by
  have hcopy : (Statement.copy carrier (Naming.camel name.text)).constants = [] := by
    rw [Statement.constants, Statement.lines]
    exact List.filterMap_cons_none (declared?_eq_none (by decide) _)
  have hread : (Statement.readGroup (Naming.camel name.text) (Naming.camel name.text)).constants =
      [Naming.camel name.text] := by
    rw [Statement.constants, Statement.lines, List.filterMap_cons_some
      (declared?_constantLine (fun _ hs => Naming.isWordSign_of_mem_camel hs) _ _)]
    rfl
  rw [groupStatements, List.flatMap_cons, List.flatMap_cons, hread, hcopy]
  rfl

@[simp] theorem constants_begin (carrier : Carrier) :
    (Statement.begin carrier).constants = [carrier.text] := by
  cases carrier <;> decide

@[simp] theorem constants_store (carrier : Carrier) (key name type : Text) :
    (Statement.store carrier key name type).constants = [] := by
  rw [Statement.constants, Statement.lines]
  cases carrier
  · exact List.filterMap_cons_none (declared?_eq_none (by decide) _)
  · exact List.filterMap_cons_none (declared?_eq_none (by decide) _)

@[simp] theorem constants_endpoint (template : Text) :
    (Statement.endpoint template).constants = ["endpoint"] := by
  rw [Statement.constants, Statement.lines]
  rfl

@[simp] theorem constants_call (c : Call) :
    (Statement.call c).constants = if c.getAll then ["returnAll"] else [] := by
  rw [Statement.constants, Statement.lines, Call.lines]
  cases c.getAll with
  | false => exact List.filterMap_cons_none (declared?_eq_none (by decide) _)
  | true => rfl

/-! ### Constants of its own -/

/-- A constant that the code of an operation declares beside those of the placeholders. -/
inductive OwnConstant where
  | carrier (c : Carrier)
  /-- The optional query parameter that is read as a group. -/
  | query
  /-- A group of fields. -/
  | group (name : GroupName)
  | endpoint
  | returnAll
deriving DecidableEq

/-- The name of a constant. -/
def OwnConstant.text : OwnConstant → Text
  | .carrier c => c.text
  | .query => "query"
  | .group name => Naming.camel name.text
  | .endpoint => "endpoint"
  | .returnAll => "returnAll"

theorem OwnConstant.text_injective : Function.Injective OwnConstant.text := by
  intro a b h
  rcases a with (_ | _) | _ | (_ | _ | _ | _) | _ | _ <;>
    rcases b with (_ | _) | _ | (_ | _ | _ | _) | _ | _ <;>
      first | rfl | exact absurd h (by decide)

/-- The constants that the code of an operation declares beside those of the placeholders. -/
inductive Declares (o : Operation) : OwnConstant → Prop where
  | queryString (h : o.queryParameters ≠ [] ∨ ∃ g ∈ o.fieldGroups, g.name ∉ bodyGroups o) :
      Declares o (.carrier .query)
  | body (h : (∃ key schema, IsStandardField o key schema) ∨ bodyGroups o ≠ []) :
      Declares o (.carrier .body)
  | query {p : Parameter} (hp : p ∈ o.queryParameters) (h : isQueryGroup p = true) :
      Declares o .query
  | group {name : GroupName} (h : name ∈ bodyGroups o ∨ ∃ g ∈ o.fieldGroups, g.name = name) :
      Declares o (.group name)
  | endpoint : Declares o .endpoint
  | returnAll (h : o.isGetAll = true) : Declares o .returnAll

/-- The constants of a carrier that is filled: its own, if there is something to fill it with, and
those that are declared on the way. -/
def ownOf (carrier : Carrier) (filled : Bool) (inside : List OwnConstant) : List OwnConstant :=
  (if filled then [.carrier carrier] else []) ++ inside

theorem constants_filling {carrier : Carrier} {inside : List OwnConstant}
    (h : statements.flatMap Statement.constants = inside.map OwnConstant.text) :
    (filling carrier statements).flatMap Statement.constants =
      (ownOf carrier (!statements.isEmpty) inside).map OwnConstant.text := by
  cases statements with
  | nil =>
    show [] = (ownOf carrier false inside).map OwnConstant.text
    rw [ownOf, List.map_append, ← h]
    rfl
  | cons first rest =>
    show (Statement.begin carrier :: first :: rest).flatMap Statement.constants =
      (ownOf carrier true inside).map OwnConstant.text
    rw [List.flatMap_cons, h, constants_begin, ownOf, List.map_append]
    rfl

theorem constants_groups {α : Type} (carrier : Carrier) (name : α → GroupName) (row : List α) :
    (row.flatMap fun a => groupStatements carrier (name a)).flatMap Statement.constants =
      (row.map fun a => OwnConstant.group (name a)).map OwnConstant.text := by
  rw [List.flatMap_assoc]
  simp only [constants_groupStatements]
  induction row with
  | nil => rfl
  | cons a rest ih => rw [List.flatMap_cons, ih, List.map_cons, List.map_cons]; rfl

/-- The groups of query fields that travel in the query string. -/
def queryGroups (o : Operation) : List FieldGroup :=
  o.fieldGroups.filter fun g => !(bodyGroups o).contains g.name

theorem constants_of_queryStatements {p : Parameter} (h : queryStatements p = .ok statements) :
    statements.flatMap Statement.constants = if isQueryGroup p then ["query"] else [] := by
  rcases eq_of_queryStatements h with ⟨hgroup, rfl⟩ | ⟨hsingle, type, rfl⟩
  · rw [hgroup]
    rfl
  · rw [hsingle, List.flatMap_cons, constants_store]
    rfl

theorem constants_parameters {ps : List Parameter} {rows : List (List Statement)}
    (h : List.Forall₂ (fun p row => queryStatements p = .ok row) ps rows) :
    rows.flatten.flatMap Statement.constants =
      ((ps.filter isQueryGroup).map fun _ => OwnConstant.query).map OwnConstant.text := by
  induction h with
  | nil => rfl
  | @cons p row ps rows hrow _ ih =>
    rw [List.flatten_cons, List.flatMap_append, ih, constants_of_queryStatements hrow,
      List.filter_cons]
    split <;> rfl

/-- **The query string.** Its constants are its own, that of the query parameters that are read as a
group, and those of its groups of fields. -/
theorem constants_queryFilling (h : queryFilling o = .ok statements) :
    ∃ filled, statements.flatMap Statement.constants =
        (ownOf .query filled ((o.queryParameters.filter isQueryGroup).map (fun _ => .query) ++
          (queryGroups o).map fun g => .group g.name)).map OwnConstant.text ∧
      (filled = true ↔ o.queryParameters ≠ [] ∨ ∃ g ∈ o.fieldGroups, g.name ∉ bodyGroups o) := by
  obtain ⟨single, hsingle, h⟩ := Outcome.bind_eq_ok.1 h
  rw [← Outcome.pure_eq_ok.1 h]
  refine ⟨_, constants_filling ?_, ?_⟩
  · rw [List.flatMap_append, constants_parameters (Outcome.mapM_eq_ok.1 hsingle),
      constants_groups .query FieldGroup.name, List.map_append]
    rfl
  · rw [Bool.not_eq_true', List.isEmpty_eq_false_iff, ne_eq, List.append_eq_nil_iff,
      not_and_or, List.flatten_eq_nil_iff, List.flatMap_eq_nil_iff]
    refine or_congr ?_ ?_
    · rw [not_iff_not]
      constructor
      · intro hall
        by_contra hne
        obtain ⟨p, hp⟩ := List.exists_mem_of_ne_nil _ hne
        obtain ⟨row, hrow, hstatements⟩ := Outcome.exists_ok_of_mem hsingle hp
        rcases eq_of_queryStatements hstatements with ⟨-, heq⟩ | ⟨-, type, heq⟩
        · exact absurd (heq.symm.trans (hall row hrow)) (List.cons_ne_nil _ _)
        · exact absurd (heq.symm.trans (hall row hrow)) (List.cons_ne_nil _ _)
      · intro hnil row hrow
        rw [hnil] at hsingle
        cases Outcome.pure_eq_ok.1 hsingle
        cases hrow
    · simp [groupStatements]

/-- The groups of fields that travel in the body. -/
def groupsInBody (o : Operation) (groups : Groups) : Groups :=
  groups.filter fun g => (bodyGroups o).contains g.1

/-- **The body.** Its constants are its own and those of its groups of fields. -/
theorem constants_bodyFilling (h : bodyFilling o = .ok statements) :
    ∃ filled groups, groupsOf o = .ok groups ∧ statements.flatMap Statement.constants =
        (ownOf .body filled ((groupsInBody o groups).map fun g => .group g.1)).map
          OwnConstant.text ∧
      (filled = true ↔ (∃ key schema, IsStandardField o key schema) ∨ bodyGroups o ≠ []) := by
  obtain ⟨standard, hstandard, h⟩ := Outcome.bind_eq_ok.1 h
  obtain ⟨groups, hgroups, h⟩ := Outcome.bind_eq_ok.1 h
  rw [← Outcome.pure_eq_ok.1 h]
  refine ⟨_, groups, hgroups, constants_filling ?_, ?_⟩
  · have hstored : standard.flatten.flatMap Statement.constants = [] := by
      refine List.flatMap_eq_nil_iff.2 fun s hs => ?_
      obtain ⟨key, schema, -, hfield⟩ := (mem_standard_iff hstandard).1 hs
      obtain ⟨name, type, -, rfl⟩ := eq_of_fieldStatement hfield
      exact constants_store ..
    rw [List.flatMap_append, hstored, constants_groups .body Prod.fst]
    rfl
  · rw [Bool.not_eq_true', List.isEmpty_eq_false_iff, ne_eq, List.append_eq_nil_iff, not_and_or]
    refine or_congr ?_ ?_
    · constructor
      · intro hne
        obtain ⟨s, hs⟩ := List.exists_mem_of_ne_nil _ hne
        obtain ⟨key, schema, hfield, -⟩ := (mem_standard_iff hstandard).1 hs
        exact ⟨key, schema, hfield⟩
      · rintro ⟨key, schema, hfield⟩
        obtain ⟨s, hs, -⟩ := exists_statement_of_standard hstandard hfield
        exact List.ne_nil_of_mem hs
    · rw [not_iff_not, List.flatMap_eq_nil_iff]
      constructor
      · intro hall
        by_contra hne
        obtain ⟨name, hname⟩ := List.exists_mem_of_ne_nil _ hne
        obtain ⟨g, hg, rfl⟩ := List.mem_map.1 ((mem_keys_groupsOf hgroups).2 (Or.inl hname))
        have hnil := hall g (List.mem_filter.2 ⟨hg, List.contains_iff_mem.2 hname⟩)
        exact absurd hnil (List.cons_ne_nil _ _)
      · intro hnil g hg
        rw [hnil] at hg
        exact absurd (List.mem_filter.1 hg).2 (by simp)

/-! ### All constants -/

/-- The constants that the code of an operation declares beside those of the placeholders, in their
order. -/
def ownConstants (o : Operation) (withQuery withBody : Bool) (groups : Groups) :
    List OwnConstant :=
  ownOf .query withQuery ((o.queryParameters.filter isQueryGroup).map (fun _ => .query) ++
      (queryGroups o).map fun g => .group g.name) ++
    ownOf .body withBody ((groupsInBody o groups).map fun g => .group g.1) ++
    .endpoint :: if o.isGetAll then [.returnAll] else []

/-- **The constants of a request**, in their order. -/
theorem constants_request (h : requestStatements helper o = .ok statements) :
    ∃ withQuery withBody groups, groupsOf o = .ok groups ∧
      (statements.flatMap Statement.lines).filterMap declared? =
        (o.pathParameters.map Parameter.name).map Naming.camel ++
          (ownConstants o withQuery withBody groups).map OwnConstant.text ∧
      (withQuery = true ↔ o.queryParameters ≠ [] ∨ ∃ g ∈ o.fieldGroups, g.name ∉ bodyGroups o) ∧
      (withBody = true ↔ (∃ key schema, IsStandardField o key schema) ∨ bodyGroups o ≠ []) := by
  obtain ⟨query, hquery, h⟩ := Outcome.bind_eq_ok.1 h
  obtain ⟨body, hbody, h⟩ := Outcome.bind_eq_ok.1 h
  obtain ⟨withQuery, hqueryConstants, hwithQuery⟩ := constants_queryFilling hquery
  obtain ⟨withBody, groups, hgroups, hbodyConstants, hwithBody⟩ := constants_bodyFilling hbody
  refine ⟨withQuery, withBody, groups, hgroups, ?_, hwithQuery, hwithBody⟩
  have hpath : (pathStatements o).flatMap Statement.constants =
      (o.pathParameters.map Parameter.name).map Naming.camel := by
    rw [pathStatements, List.flatMap_map, List.map_map]
    simp only [constants_readPath]
    exact List.flatMap_pure_eq_map ..
  have hend (template : Text) (withQuery withBody : Bool) :
      [Statement.endpoint template,
        .call (callOf helper o withQuery withBody)].flatMap Statement.constants =
      (OwnConstant.endpoint :: if o.isGetAll then [.returnAll] else []).map OwnConstant.text := by
    simp only [List.flatMap_cons, constants_endpoint, constants_call, callOf]
    cases o.isGetAll <;> rfl
  rw [filterMap_declared, ← Outcome.pure_eq_ok.1 h]
  simp only [List.flatMap_append, hpath, hqueryConstants, hbodyConstants, hend, ownConstants,
    List.map_append, List.append_assoc]

section Own

variable {withQuery withBody : Bool} {groups : Groups}

/-- The constants of its own are those that an operation has a use for. -/
theorem mem_ownConstants (hgroups : groupsOf o = .ok groups)
    (hquery : withQuery = true ↔
      o.queryParameters ≠ [] ∨ ∃ g ∈ o.fieldGroups, g.name ∉ bodyGroups o)
    (hbody : withBody = true ↔ (∃ key schema, IsStandardField o key schema) ∨ bodyGroups o ≠ [])
    {c : OwnConstant} : c ∈ ownConstants o withQuery withBody groups ↔ Declares o c := by
  cases c with
  | carrier carrier =>
    cases carrier with
    | query =>
      have hmem : .carrier .query ∈ ownConstants o withQuery withBody groups ↔
          withQuery = true := by
        simp [ownConstants, ownOf]
      rw [hmem, hquery]
      exact ⟨.queryString, fun hdeclares => by cases hdeclares with | queryString h => exact h⟩
    | body =>
      have hmem : .carrier .body ∈ ownConstants o withQuery withBody groups ↔
          withBody = true := by
        simp [ownConstants, ownOf]
      rw [hmem, hbody]
      exact ⟨.body, fun hdeclares => by cases hdeclares with | body h => exact h⟩
  | query =>
    have hmem : .query ∈ ownConstants o withQuery withBody groups ↔
        ∃ p ∈ o.queryParameters, isQueryGroup p = true := by
      simp [ownConstants, ownOf]
    rw [hmem]
    constructor
    · rintro ⟨p, hp, h⟩
      exact .query hp h
    · intro hdeclares
      cases hdeclares with
      | query hp h => exact ⟨_, hp, h⟩
  | group name =>
    have hmem : .group name ∈ ownConstants o withQuery withBody groups ↔
        (∃ g ∈ o.fieldGroups, g.name ∉ bodyGroups o ∧ g.name = name) ∨
          name ∈ Entries.keys groups ∧ name ∈ bodyGroups o := by
      simp [ownConstants, ownOf, queryGroups, groupsInBody, Entries.keys, and_assoc]
    rw [hmem, mem_keys_groupsOf hgroups]
    constructor
    · rintro (⟨g, hg, -, rfl⟩ | ⟨-, hname⟩)
      · exact .group (Or.inr ⟨g, hg, rfl⟩)
      · exact .group (Or.inl hname)
    · intro hdeclares
      cases hdeclares with
      | group h =>
        by_cases hname : name ∈ bodyGroups o
        · exact Or.inr ⟨h, hname⟩
        · obtain ⟨g, hg, rfl⟩ := h.resolve_left hname
          exact Or.inl ⟨g, hg, hname, rfl⟩
  | endpoint =>
    have hmem : .endpoint ∈ ownConstants o withQuery withBody groups := by simp [ownConstants]
    exact iff_of_true hmem .endpoint
  | returnAll =>
    have hmem : .returnAll ∈ ownConstants o withQuery withBody groups ↔ o.isGetAll = true := by
      simp [ownConstants, ownOf]
    rw [hmem]
    exact ⟨.returnAll, fun hdeclares => by cases hdeclares with | returnAll h => exact h⟩

/-- The groups of an operation have different names. -/
theorem nodup_keys_groupsOf (h : groupsOf o = .ok groups) : (Entries.keys groups).Nodup := by
  have hfold (parts : List (GroupName × Fields)) (groups : Groups) (hgroups : Entries.Apart groups) :
      Entries.Apart
        (parts.foldl (fun groups part => Groups.add groups part.1 part.2) groups) := by
    induction parts generalizing groups with
    | nil => exact hgroups
    | cons part rest ih => exact ih _ (Entries.apart_put hgroups)
  obtain ⟨bodies, -, h⟩ := Outcome.bind_eq_ok.1 h
  rw [← Outcome.pure_eq_ok.1 h]
  exact (hfold _ [] Entries.apart_nil).imp beq_eq_false_iff_ne.1

/-- A group travels in one carrier only, so each has one constant. -/
theorem nodup_groups (hgroups : groupsOf o = .ok groups)
    (hnames : (o.fieldGroups.map FieldGroup.name).Nodup) :
    ((queryGroups o).map (fun (g : FieldGroup) => OwnConstant.group g.name) ++
      (groupsInBody o groups).map fun g => OwnConstant.group g.1).Nodup := by
  have hquery : ((queryGroups o).map FieldGroup.name).Nodup :=
    hnames.sublist (List.filter_sublist.map _)
  have hbody : ((groupsInBody o groups).map Prod.fst).Nodup :=
    (nodup_keys_groupsOf hgroups).sublist (List.filter_sublist.map _)
  have hrow : ((queryGroups o).map FieldGroup.name ++
      (groupsInBody o groups).map Prod.fst).Nodup := by
    refine hquery.append hbody fun name hname hname' => ?_
    obtain ⟨g, hg, rfl⟩ := List.mem_map.1 hname
    obtain ⟨g', hg', heq⟩ := List.mem_map.1 hname'
    have hnot := (List.mem_filter.1 hg).2
    rw [← heq, (List.mem_filter.1 hg').2] at hnot
    exact Bool.false_ne_true hnot
  simpa [Function.comp_def] using
    hrow.map (f := OwnConstant.group) fun _ _ h => OwnConstant.group.inj h

/-- Of its own constants an operation declares each once, unless there are several query parameters
that are read as a group. -/
theorem nodup_ownConstants_iff (hgroups : groupsOf o = .ok groups)
    (hnames : (o.fieldGroups.map FieldGroup.name).Nodup) :
    (ownConstants o withQuery withBody groups).Nodup ↔
      (o.queryParameters.filter isQueryGroup).length ≤ 1 := by
  have hquery : (ownConstants o withQuery withBody groups).count .query =
      (o.queryParameters.filter isQueryGroup).length := by
    simp [ownConstants, ownOf, List.count_eq_zero_of_not_mem]
  rw [List.nodup_iff_count_le_one]
  constructor
  · exact fun h => hquery ▸ h .query
  · intro h c
    cases c with
    | carrier carrier =>
      cases carrier
      · cases withQuery <;> simp [ownConstants, ownOf, List.count_eq_zero_of_not_mem]
      · cases withBody <;> simp [ownConstants, ownOf, List.count_eq_zero_of_not_mem]
    | query =>
      rw [hquery]
      exact h
    | group name =>
      have hgroup := List.nodup_iff_count_le_one.1 (nodup_groups hgroups hnames) (.group name)
      simpa [ownConstants, ownOf, List.count_eq_zero_of_not_mem] using hgroup
    | endpoint => simp [ownConstants, ownOf, List.count_eq_zero_of_not_mem]
    | returnAll =>
      cases hall : o.isGetAll <;> simp [ownConstants, ownOf, hall, List.count_eq_zero_of_not_mem]

end Own

/-- **Constants that are declared twice.** Each constant is declared once exactly if the names of
the path parameters fold to different names, none of which the code declares itself, and no two
query parameters are read as a group. -/
theorem nodup_constants_iff (hnames : (o.fieldGroups.map FieldGroup.name).Nodup)
    (h : requestStatements helper o = .ok statements) :
    ((statements.flatMap Statement.lines).filterMap declared?).Nodup ↔
      ((o.pathParameters.map Parameter.name).map Naming.camel).Nodup ∧
        (∀ name ∈ o.pathParameters.map Parameter.name, ∀ c, Declares o c →
          c.text ≠ Naming.camel name) ∧
          (o.queryParameters.filter isQueryGroup).length ≤ 1 := by
  obtain ⟨withQuery, withBody, groups, hgroups, hconstants, hquery, hbody⟩ := constants_request h
  rw [hconstants, List.nodup_append, List.nodup_map_iff OwnConstant.text_injective,
    nodup_ownConstants_iff hgroups hnames, and_comm (a := _ ≤ 1)]
  refine and_congr_right fun _ => and_congr_left fun _ => ?_
  constructor
  · intro hapart name hname c hc heq
    exact hapart _ (List.mem_map_of_mem hname) _
      (List.mem_map_of_mem ((mem_ownConstants hgroups hquery hbody).2 hc)) heq.symm
  · intro hapart first hfirst second hsecond heq
    obtain ⟨name, hname, rfl⟩ := List.mem_map.1 hfirst
    obtain ⟨c, hc, rfl⟩ := List.mem_map.1 hsecond
    exact hapart name hname c ((mem_ownConstants hgroups hquery hbody).1 hc) heq.symm

end NodeForge.Source
