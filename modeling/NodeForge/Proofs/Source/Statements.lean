import NodeForge.Proofs.Naming.Stems
import NodeForge.Proofs.Source.Fields

/-!
# The statements of a request

The statements that run an operation read fields and put them into the query string or the body:
one by one with `store`, or as a group with `readGroup` and `copy`. They come from the query
parameters, the groups of query fields, the properties of the standard bodies, and the groups of the
other bodies (`mem_iff_of_carries`). What stands in the two carriers follows from this:
`exists_store_iff` and `mem_copy_iff` say it for single fields and for groups, and `sends_query_iff`
and `sends_body_iff` for the fields of the node by their names. The other statements read the path
parameters and set the endpoint (`mem_readPath_iff`, `mem_endpoint_iff`). Of the lines of the
statements those set something to a field that are said to read one (`readsField_eq`).
-/

namespace NodeForge.Source

/-! ### Statements that carry fields -/

/-- Whether a statement has to do with bringing fields into a carrier. -/
def Statement.carries : Statement → Bool
  | .store .. | .readGroup .. | .copy .. => true
  | _ => false

/-- Whether a statement has to do with a group of fields. -/
def Statement.carriesGroup : Statement → Bool
  | .readGroup .. | .copy .. => true
  | _ => false

theorem Statement.carries_of_carriesGroup {s : Statement} (h : s.carriesGroup = true) :
    s.carries = true := by
  cases s <;> first | rfl | exact h

/-- Whether a query parameter is read as a group. -/
def isQueryGroup (p : Parameter) : Bool := p.name == "query" && !p.required

variable {o : Operation} {helper : Text} {statements : List Statement} {s : Statement}

theorem mem_filling_of_carries {carrier : Carrier} (hs : s.carries = true) :
    s ∈ filling carrier statements ↔ s ∈ statements := by
  cases statements with
  | nil => exact Iff.rfl
  | cons first rest =>
    show s ∈ .begin carrier :: first :: rest ↔ s ∈ first :: rest
    rw [List.mem_cons]
    refine or_iff_right ?_
    rintro rfl
    exact absurd hs Bool.false_ne_true

/-- The statements of a query parameter: a group or a single field. -/
theorem eq_of_queryStatements {p : Parameter} (h : queryStatements p = .ok statements) :
    isQueryGroup p = true ∧ statements = [.readGroup "query" "query", .copy .query "query"] ∨
      isQueryGroup p = false ∧ ∃ type,
        statements = [.store .query (Naming.camel p.name) p.name type] := by
  unfold queryStatements at h
  split at h
  · next hgroup => exact Or.inl ⟨hgroup, (Outcome.pure_eq_ok.1 h).symm⟩
  · next hgroup =>
    obtain ⟨type, -, h⟩ := Outcome.bind_eq_ok.1 h
    exact Or.inr ⟨Bool.not_eq_true _ ▸ hgroup, type, (Outcome.pure_eq_ok.1 h).symm⟩

theorem eq_of_fieldStatement {key : Scalar} {schema : Value}
    (h : fieldStatement key schema = .ok s) :
    ∃ name type, key = .str name ∧ s = .store .body (Naming.camel name) name type := by
  obtain ⟨name, hname, h⟩ := Outcome.bind_eq_ok.1 h
  obtain ⟨type, -, h⟩ := Outcome.bind_eq_ok.1 h
  exact ⟨name, type, Outcome.asText_eq_ok.1 hname, (Outcome.pure_eq_ok.1 h).symm⟩

/-- Whether a value is declared under a key of a standard body. -/
def IsStandardField (o : Operation) (key : Scalar) (schema : Value) : Prop :=
  ∃ body ∈ o.standardBodies, ∃ properties, bodyProperties body = .ok properties ∧
    (key, schema) ∈ properties

theorem mem_queryFilling_of_carries (hs : s.carries = true) (h : queryFilling o = .ok statements) :
    s ∈ statements ↔
      (∃ p ∈ o.queryParameters, ∃ row, queryStatements p = .ok row ∧ s ∈ row) ∨
        ∃ g ∈ o.fieldGroups, g.name ∉ bodyGroups o ∧ s ∈ groupStatements .query g.name := by
  obtain ⟨single, hsingle, h⟩ := Outcome.bind_eq_ok.1 h
  rw [← Outcome.pure_eq_ok.1 h, mem_filling_of_carries hs, List.mem_append]
  have hparameters : s ∈ single.flatten ↔
      ∃ p ∈ o.queryParameters, ∃ row, queryStatements p = .ok row ∧ s ∈ row := by
    rw [List.mem_flatten]
    simp only [Outcome.mem_iff_of_mapM hsingle]
    constructor
    · rintro ⟨row, ⟨p, hp, hrow⟩, hs⟩
      exact ⟨p, hp, row, hrow, hs⟩
    · rintro ⟨p, hp, row, hrow, hs⟩
      exact ⟨row, ⟨p, hp, hrow⟩, hs⟩
  rw [hparameters]
  simp [and_assoc]

section Standard

variable {standard : List (List Statement)}
  (hstandard : o.standardBodies.mapM (fun b => do
    (← bodyProperties b).mapM fun (e : Scalar × Value) => fieldStatement e.1 e.2) = .ok standard)
include hstandard

/-- What is declared in a standard body has a statement. -/
theorem exists_statement_of_standard {key : Scalar} {schema : Value}
    (hfield : IsStandardField o key schema) :
    ∃ s ∈ standard.flatten, fieldStatement key schema = .ok s := by
  obtain ⟨body, hbody, properties, hproperties, he⟩ := hfield
  obtain ⟨row, hmem, hrow⟩ := Outcome.exists_ok_of_mem hstandard hbody
  obtain ⟨properties', hproperties', hrow⟩ := Outcome.bind_eq_ok.1 hrow
  rw [Except.ok.inj (hproperties.symm.trans hproperties')] at he
  obtain ⟨s, hsrow, hs⟩ := Outcome.exists_ok_of_mem hrow he
  exact ⟨s, List.mem_flatten.2 ⟨row, hmem, hsrow⟩, hs⟩

/-- The statements of the standard bodies are those of what is declared in them. -/
theorem mem_standard_iff :
    s ∈ standard.flatten ↔
      ∃ key schema, IsStandardField o key schema ∧ fieldStatement key schema = .ok s := by
  constructor
  · intro hs
    obtain ⟨row, hmem, hsrow⟩ := List.mem_flatten.1 hs
    obtain ⟨body, hbody, hrow⟩ := (Outcome.mem_iff_of_mapM hstandard).1 hmem
    obtain ⟨properties, hproperties, hrow⟩ := Outcome.bind_eq_ok.1 hrow
    obtain ⟨e, he, hes⟩ := (Outcome.mem_iff_of_mapM hrow).1 hsrow
    exact ⟨e.1, e.2, ⟨body, hbody, properties, hproperties, he⟩, hes⟩
  · rintro ⟨key, schema, hfield, hs⟩
    obtain ⟨s', hs', heq⟩ := exists_statement_of_standard hstandard hfield
    rwa [Except.ok.inj (hs.symm.trans heq)]

end Standard

theorem mem_bodyFilling_of_carries (hs : s.carries = true) (h : bodyFilling o = .ok statements) :
    s ∈ statements ↔
      (∃ key schema, IsStandardField o key schema ∧ fieldStatement key schema = .ok s) ∨
        ∃ group ∈ bodyGroups o, s ∈ groupStatements .body group := by
  obtain ⟨standard, hstandard, h⟩ := Outcome.bind_eq_ok.1 h
  obtain ⟨groups, hgroups, h⟩ := Outcome.bind_eq_ok.1 h
  rw [← Outcome.pure_eq_ok.1 h, mem_filling_of_carries hs, List.mem_append]
  have hgroup : s ∈ (groups.filter fun g => (bodyGroups o).contains g.1).flatMap
        (fun g => groupStatements .body g.1) ↔
      ∃ group ∈ bodyGroups o, s ∈ groupStatements .body group := by
    rw [List.mem_flatMap]
    simp only [List.mem_filter, List.contains_iff_mem]
    constructor
    · rintro ⟨g, ⟨-, hbody⟩, hs⟩
      exact ⟨g.1, hbody, hs⟩
    · rintro ⟨group, hbody, hs⟩
      -- every group of a body is among the groups of the operation
      obtain ⟨g, hg, rfl⟩ := List.mem_map.1 ((mem_keys_groupsOf hgroups).2 (Or.inl hbody))
      exact ⟨g, ⟨hg, hbody⟩, hs⟩
  rw [mem_standard_iff hstandard, hgroup]

/-- **Where the statements come from.** -/
theorem mem_iff_of_carries (hs : s.carries = true)
    (h : requestStatements helper o = .ok statements) :
    s ∈ statements ↔
      (∃ p ∈ o.queryParameters, ∃ row, queryStatements p = .ok row ∧ s ∈ row) ∨
        (∃ g ∈ o.fieldGroups, g.name ∉ bodyGroups o ∧ s ∈ groupStatements .query g.name) ∨
          (∃ key schema, IsStandardField o key schema ∧ fieldStatement key schema = .ok s) ∨
            ∃ group ∈ bodyGroups o, s ∈ groupStatements .body group := by
  obtain ⟨query, hquery, h⟩ := Outcome.bind_eq_ok.1 h
  obtain ⟨body, hbody, h⟩ := Outcome.bind_eq_ok.1 h
  have hpath : s ∉ pathStatements o := by
    rw [pathStatements, List.mem_map]
    rintro ⟨p, -, rfl⟩
    exact absurd hs Bool.false_ne_true
  have hend {template : Text} {c : Call} : s ∉ [.endpoint template, .call c] := by
    cases s <;> simp_all [Statement.carries]
  rw [← Outcome.pure_eq_ok.1 h, List.mem_append, List.mem_append, List.mem_append,
    mem_queryFilling_of_carries hs hquery, mem_bodyFilling_of_carries hs hbody]
  simp only [hpath, hend, false_or, or_false, or_assoc]

theorem exists_queryStatements (h : requestStatements helper o = .ok statements) {p : Parameter}
    (hp : p ∈ o.queryParameters) : ∃ row, queryStatements p = .ok row := by
  obtain ⟨query, hquery, -⟩ := Outcome.bind_eq_ok.1 h
  obtain ⟨single, hsingle, -⟩ := Outcome.bind_eq_ok.1 hquery
  obtain ⟨row, -, hrow⟩ := Outcome.exists_ok_of_mem hsingle hp
  exact ⟨row, hrow⟩

theorem exists_fieldStatement (h : requestStatements helper o = .ok statements) {key : Scalar}
    {schema : Value} (hfield : IsStandardField o key schema) :
    ∃ s, fieldStatement key schema = .ok s := by
  obtain ⟨query, -, h⟩ := Outcome.bind_eq_ok.1 h
  obtain ⟨filled, hfilled, -⟩ := Outcome.bind_eq_ok.1 h
  obtain ⟨standard, hstandard, -⟩ := Outcome.bind_eq_ok.1 hfilled
  obtain ⟨s, -, hs⟩ := exists_statement_of_standard hstandard hfield
  exact ⟨s, hs⟩

theorem exists_groupsOf (h : requestStatements helper o = .ok statements) :
    ∃ groups, groupsOf o = .ok groups := by
  obtain ⟨query, -, h⟩ := Outcome.bind_eq_ok.1 h
  obtain ⟨filled, hfilled, -⟩ := Outcome.bind_eq_ok.1 h
  obtain ⟨standard, -, hfilled⟩ := Outcome.bind_eq_ok.1 hfilled
  obtain ⟨groups, hgroups, -⟩ := Outcome.bind_eq_ok.1 hfilled
  exact ⟨groups, hgroups⟩

/-! ### Single fields -/

variable {carrier : Carrier} {key name constant : Text}

/-- **Single fields.** Stored are the single query parameters and the properties of the standard
bodies, each into the key that its name makes. -/
theorem exists_store_iff (h : requestStatements helper o = .ok statements) :
    (∃ type, .store carrier key name type ∈ statements) ↔ key = Naming.camel name ∧
      (carrier = .query ∧ (∃ p ∈ o.queryParameters, isQueryGroup p = false ∧ p.name = name) ∨
        carrier = .body ∧ ∃ schema, IsStandardField o (.str name) schema) := by
  constructor
  · rintro ⟨type, hs⟩
    rcases (mem_iff_of_carries rfl h).1 hs with ⟨p, hp, row, hrow, hs⟩ | ⟨g, -, -, hs⟩ |
      ⟨key', schema, hfield, hs⟩ | ⟨group, -, hs⟩
    · rcases eq_of_queryStatements hrow with ⟨-, rfl⟩ | ⟨hsingle, type', rfl⟩
      · simp at hs
      · cases List.mem_singleton.1 hs
        exact ⟨rfl, Or.inl ⟨rfl, p, hp, hsingle, rfl⟩⟩
    · simp [groupStatements] at hs
    · obtain ⟨name', type', rfl, heq⟩ := eq_of_fieldStatement hs
      cases heq
      exact ⟨rfl, Or.inr ⟨rfl, schema, hfield⟩⟩
    · simp [groupStatements] at hs
  · rintro ⟨rfl, ⟨rfl, p, hp, hsingle, rfl⟩ | ⟨rfl, schema, hfield⟩⟩
    · obtain ⟨row, hrow⟩ := exists_queryStatements h hp
      rcases eq_of_queryStatements hrow with ⟨hgroup, -⟩ | ⟨-, type, rfl⟩
      · rw [hsingle] at hgroup
        cases hgroup
      · exact ⟨type, (mem_iff_of_carries rfl h).2
          (Or.inl ⟨p, hp, _, hrow, List.mem_singleton.2 rfl⟩)⟩
    · obtain ⟨s, hs⟩ := exists_fieldStatement h hfield
      obtain ⟨name', type, hname, rfl⟩ := eq_of_fieldStatement hs
      cases hname
      exact ⟨type, (mem_iff_of_carries rfl h).2 (Or.inr (Or.inr (Or.inl ⟨_, _, hfield, hs⟩)))⟩

/-! ### Groups -/

/-- Whether a group of fields travels in a carrier under a constant. -/
def IsCarriedGroup (o : Operation) (constant : Text) : Carrier → Prop
  | .query => (∃ p ∈ o.queryParameters, isQueryGroup p = true ∧ constant = "query") ∨
      ∃ g ∈ o.fieldGroups, g.name ∉ bodyGroups o ∧ Naming.camel g.name.text = constant
  | .body => ∃ group ∈ bodyGroups o, Naming.camel group.text = constant

/-- **Groups.** The groups of fields are read and copied: into the body, if a body other than the
standard one has the group, and into the query string otherwise. The optional query parameter called
`query` is a group of its own. -/
theorem mem_iff_of_carriesGroup (hs : s.carriesGroup = true)
    (h : requestStatements helper o = .ok statements) :
    s ∈ statements ↔ ∃ carrier constant, IsCarriedGroup o constant carrier ∧
      s ∈ [.readGroup constant constant, .copy carrier constant] := by
  rw [mem_iff_of_carries (Statement.carries_of_carriesGroup hs) h]
  constructor
  · rintro (⟨p, hp, row, hrow, hrowMem⟩ | ⟨g, hg, hnot, hgroup⟩ | ⟨key, schema, -, hfield⟩ |
      ⟨group, hgroup, hgroupMem⟩)
    · rcases eq_of_queryStatements hrow with ⟨hgroup, rfl⟩ | ⟨-, type, rfl⟩
      · exact ⟨.query, "query", Or.inl ⟨p, hp, hgroup, rfl⟩, hrowMem⟩
      · rw [List.mem_singleton.1 hrowMem] at hs
        cases hs
    · exact ⟨.query, _, Or.inr ⟨g, hg, hnot, rfl⟩, hgroup⟩
    · obtain ⟨name, type, -, rfl⟩ := eq_of_fieldStatement hfield
      cases hs
    · exact ⟨.body, _, ⟨group, hgroup, rfl⟩, hgroupMem⟩
  · rintro ⟨carrier, constant, hcarried, hmem⟩
    cases carrier with
    | query =>
      rcases hcarried with ⟨p, hp, hgroup, rfl⟩ | ⟨g, hg, hnot, rfl⟩
      · obtain ⟨row, hrow⟩ := exists_queryStatements h hp
        rcases eq_of_queryStatements hrow with ⟨-, rfl⟩ | ⟨hsingle, -⟩
        · exact Or.inl ⟨p, hp, _, hrow, hmem⟩
        · rw [hgroup] at hsingle
          cases hsingle
      · exact Or.inr (Or.inl ⟨g, hg, hnot, hmem⟩)
    | body =>
      obtain ⟨group, hgroup, rfl⟩ := hcarried
      exact Or.inr (Or.inr (Or.inr ⟨group, hgroup, hmem⟩))

theorem mem_copy_iff (h : requestStatements helper o = .ok statements) :
    .copy carrier constant ∈ statements ↔ IsCarriedGroup o constant carrier := by
  rw [mem_iff_of_carriesGroup rfl h]
  simp

theorem mem_readGroup_iff (h : requestStatements helper o = .ok statements) :
    .readGroup constant name ∈ statements ↔
      constant = name ∧ ∃ carrier, IsCarriedGroup o name carrier := by
  rw [mem_iff_of_carriesGroup rfl h]
  constructor
  · rintro ⟨carrier, constant', hcarried, hmem⟩
    obtain ⟨rfl, rfl⟩ : constant = constant' ∧ name = constant' := by simpa using hmem
    exact ⟨rfl, carrier, hcarried⟩
  · rintro ⟨rfl, carrier, hcarried⟩
    exact ⟨carrier, constant, hcarried, List.mem_cons_self⟩

/-! ### Fields by their names -/

/-- Whether statements send a field of the node in a carrier: stored under a key, or as a group. -/
def Sends (statements : List Statement) (carrier : Carrier) (name : Text) : Prop :=
  (∃ key type, .store carrier key name type ∈ statements) ∨
    ∃ constant, .readGroup constant name ∈ statements ∧ .copy carrier constant ∈ statements

theorem sends_query_iff (h : requestStatements helper o = .ok statements) :
    Sends statements .query name ↔ (∃ p ∈ o.queryParameters, p.name = name) ∨
      ∃ g ∈ o.fieldGroups, g.name ∉ bodyGroups o ∧ Naming.camel g.name.text = name := by
  simp only [Sends, exists_store_iff h, mem_copy_iff h, mem_readGroup_iff h]
  constructor
  · rintro (⟨key, -, ⟨-, p, hp, -, hname⟩ | ⟨hcarrier, -⟩⟩ |
      ⟨constant, ⟨rfl, -⟩, ⟨p, hp, hgroup, rfl⟩ | hgroup⟩)
    · exact Or.inl ⟨p, hp, hname⟩
    · cases hcarrier
    · rw [isQueryGroup, Bool.and_eq_true, beq_iff_eq] at hgroup
      exact Or.inl ⟨p, hp, hgroup.1⟩
    · exact Or.inr hgroup
  · rintro (⟨p, hp, rfl⟩ | hgroup)
    · cases hgroup : isQueryGroup p with
      | false => exact Or.inl ⟨_, rfl, Or.inl ⟨trivial, p, hp, hgroup, rfl⟩⟩
      | true =>
        have hname : p.name = "query" := by
          rw [isQueryGroup, Bool.and_eq_true, beq_iff_eq] at hgroup
          exact hgroup.1
        have hcarried : IsCarriedGroup o p.name .query := Or.inl ⟨p, hp, hgroup, hname⟩
        exact Or.inr ⟨p.name, ⟨rfl, .query, hcarried⟩, hcarried⟩
    · have hcarried : IsCarriedGroup o name .query := Or.inr hgroup
      exact Or.inr ⟨name, ⟨rfl, .query, hcarried⟩, hcarried⟩

theorem sends_body_iff (h : requestStatements helper o = .ok statements) :
    Sends statements .body name ↔ (∃ schema, IsStandardField o (.str name) schema) ∨
      ∃ group ∈ bodyGroups o, Naming.camel group.text = name := by
  simp only [Sends, exists_store_iff h, mem_copy_iff h, mem_readGroup_iff h]
  constructor
  · rintro (⟨key, -, ⟨hcarrier, -⟩ | ⟨-, hfield⟩⟩ | ⟨constant, ⟨rfl, -⟩, hgroup⟩)
    · cases hcarrier
    · exact Or.inl hfield
    · exact Or.inr hgroup
  · rintro (hfield | hgroup)
    · exact Or.inl ⟨_, rfl, Or.inr ⟨trivial, hfield⟩⟩
    · have hcarried : IsCarriedGroup o name .body := hgroup
      exact Or.inr ⟨name, ⟨rfl, .body, hcarried⟩, hcarried⟩

/-! ### Statements that carry nothing -/

/-- Whether a statement has to do with filling a carrier. -/
def Statement.fills : Statement → Bool
  | .begin _ => true
  | s => s.carries

theorem fills_of_carries {s : Statement} (h : s.carries = true) : s.fills = true := by
  cases s <;> first | rfl | exact h

theorem fills_of_mem_filling {carrier : Carrier} (h : ∀ s ∈ statements, s.carries = true) :
    ∀ s ∈ filling carrier statements, s.fills = true := by
  intro s hs
  unfold filling at hs
  split at hs
  · cases hs
  · rcases List.mem_cons.1 hs with rfl | hs
    · rfl
    · exact fills_of_carries (h s hs)

theorem carries_of_mem_groupStatements {carrier : Carrier} {name : GroupName} {s : Statement}
    (h : s ∈ groupStatements carrier name) : s.carries = true := by
  rw [groupStatements, List.mem_cons, List.mem_singleton] at h
  rcases h with rfl | rfl <;> rfl

theorem fills_of_mem_queryFilling (h : queryFilling o = .ok statements) :
    ∀ s ∈ statements, s.fills = true := by
  obtain ⟨single, hsingle, h⟩ := Outcome.bind_eq_ok.1 h
  rw [← Outcome.pure_eq_ok.1 h]
  refine fills_of_mem_filling fun s hs => ?_
  rcases List.mem_append.1 hs with hs | hs
  · obtain ⟨row, hrow, hs⟩ := List.mem_flatten.1 hs
    obtain ⟨p, -, hp⟩ := (Outcome.mem_iff_of_mapM hsingle).1 hrow
    rcases eq_of_queryStatements hp with ⟨-, rfl⟩ | ⟨-, type, rfl⟩
    · rw [List.mem_cons, List.mem_singleton] at hs
      rcases hs with rfl | rfl <;> rfl
    · rw [List.mem_singleton.1 hs]
      rfl
  · obtain ⟨g, -, hs⟩ := List.mem_flatMap.1 hs
    exact carries_of_mem_groupStatements hs

theorem fills_of_mem_bodyFilling (h : bodyFilling o = .ok statements) :
    ∀ s ∈ statements, s.fills = true := by
  obtain ⟨standard, hstandard, h⟩ := Outcome.bind_eq_ok.1 h
  obtain ⟨groups, -, h⟩ := Outcome.bind_eq_ok.1 h
  rw [← Outcome.pure_eq_ok.1 h]
  refine fills_of_mem_filling fun s hs => ?_
  rcases List.mem_append.1 hs with hs | hs
  · obtain ⟨key, schema, -, hfield⟩ := (mem_standard_iff hstandard).1 hs
    obtain ⟨name, type, -, rfl⟩ := eq_of_fieldStatement hfield
    rfl
  · obtain ⟨g, -, hs⟩ := List.mem_flatMap.1 hs
    exact carries_of_mem_groupStatements hs

/-- What does not fill a carrier reads the path, sets the endpoint or calls the service. -/
theorem mem_iff_of_not_fills (h : requestStatements helper o = .ok statements) :
    ∃ c, ∀ s, s.fills = false → (s ∈ statements ↔
      s ∈ pathStatements o ∨ s = .endpoint (endpointTemplate o) ∨ s = .call c) := by
  obtain ⟨query, hquery, h⟩ := Outcome.bind_eq_ok.1 h
  obtain ⟨body, hbody, h⟩ := Outcome.bind_eq_ok.1 h
  refine ⟨callOf helper o (!query.isEmpty) (!body.isEmpty), fun s hs => ?_⟩
  have hnotQuery : s ∉ query := fun hmem => by
    rw [fills_of_mem_queryFilling hquery s hmem] at hs
    cases hs
  have hnotBody : s ∉ body := fun hmem => by
    rw [fills_of_mem_bodyFilling hbody s hmem] at hs
    cases hs
  rw [← Outcome.pure_eq_ok.1 h]
  simp [hnotQuery, hnotBody]

theorem mem_readPath_iff (h : requestStatements helper o = .ok statements)
    {constant name : Text} : .readPath constant name ∈ statements ↔
      constant = Naming.camel name ∧ name ∈ o.pathParameters.map Parameter.name := by
  obtain ⟨c, hmem⟩ := mem_iff_of_not_fills h
  rw [hmem _ rfl, pathStatements, List.mem_map, List.mem_map]
  constructor
  · rintro (⟨p, hp, heq⟩ | heq | heq)
    · obtain ⟨rfl, rfl⟩ := Statement.readPath.inj heq
      exact ⟨rfl, p, hp, rfl⟩
    · cases heq
    · cases heq
  · rintro ⟨rfl, p, hp, rfl⟩
    exact Or.inl ⟨p, hp, rfl⟩

theorem mem_endpoint_iff (h : requestStatements helper o = .ok statements) {template : Text} :
    .endpoint template ∈ statements ↔ template = endpointTemplate o := by
  obtain ⟨c, hmem⟩ := mem_iff_of_not_fills h
  rw [hmem _ rfl, pathStatements, List.mem_map]
  simp

/-! ### Lines that read -/

/-- What a line sets something to: what stands behind its first sign of equality. -/
def setTo? : Text → Option Text
  | [] => none
  | c :: cs => if c = .char '=' then some cs else setTo? cs

/-- Whether a line sets something to a field of the node. -/
def readsField (line : Text) : Bool :=
  (setTo? line).any (Text.startsWith " this.getNodeParameter('")

theorem setTo?_append {front : Text} (h : Sign.char '=' ∉ front) (rest : Text) :
    setTo? (front ++ rest) = setTo? rest := by
  induction front with
  | nil => rfl
  | cons c cs ih =>
    rw [List.mem_cons, not_or] at h
    rw [List.cons_append, setTo?, if_neg (Ne.symm h.1), ih h.2]

theorem readsField_readExpression {front : Text} (h : Sign.char '=' ∉ front) (name type : Text) :
    readsField (front ++ " = " ++ readExpression name type) = true := by
  have hset : setTo? (front ++ " = " ++ readExpression name type) =
      some ([Sign.char ' '] ++ readExpression name type) := by
    have hblank : Sign.char '=' ∉ front ++ [Sign.char ' '] := by simp [h]
    have hline : (front ++ " = " ++ readExpression name type : Text) =
        front ++ [Sign.char ' '] ++
          (.char '=' :: ([Sign.char ' '] ++ readExpression name type)) := by
      simp [Text.ofString]
    rw [hline, setTo?_append hblank, setTo?, if_pos rfl]
  rw [readsField, hset]
  rfl

theorem equals_notMem_camel (name : Text) : Sign.char '=' ∉ Naming.camel name := fun h =>
  Bool.false_ne_true
    ((by decide : Naming.isWordSign (.char '=') = false).symm.trans
      (Naming.isWordSign_of_mem_camel h))

theorem readsField_of_notMem {line : Text} (h : Sign.char '=' ∉ line) :
    readsField line = false := by
  have hnone := setTo?_append h []
  rw [List.append_nil] at hnone
  rw [readsField, hnone]
  rfl

/-- The constant of a group is in camel case. -/
theorem IsCarriedGroup.exists_camel {constant : Text} {carrier : Carrier}
    (h : IsCarriedGroup o constant carrier) : ∃ name, constant = Naming.camel name := by
  cases carrier with
  | query =>
    rcases h with ⟨-, -, -, rfl⟩ | ⟨g, -, -, rfl⟩
    · exact ⟨"query", by decide⟩
    · exact ⟨_, rfl⟩
  | body =>
    obtain ⟨group, -, rfl⟩ := h
    exact ⟨_, rfl⟩

/-- **Lines that read.** A line of a request sets something to a field of the node exactly if it is
one that reads a field. -/
theorem readsField_eq (h : requestStatements helper o = .ok statements) {s : Statement}
    (hs : s ∈ statements) {line : RunLine} (hline : line ∈ s.runLines) :
    readsField line.text = line.read?.isSome := by
  have hconst (constant : Text) (h : Sign.char '=' ∉ constant) :
      Sign.char '=' ∉ "const " ++ constant := by
    rw [List.mem_append, not_or]
    exact ⟨by decide, h⟩
  cases s with
  | readPath constant name =>
    obtain ⟨rfl, -⟩ := (mem_readPath_iff h).1 hs
    rw [List.mem_singleton.1 hline]
    exact readsField_readExpression (hconst _ (equals_notMem_camel name)) name "string"
  | store carrier key name type =>
    obtain ⟨rfl, -⟩ := (exists_store_iff h).1 ⟨type, hs⟩
    have hfront : Sign.char '=' ∉ carrier.text ++ "." ++ Naming.camel name := by
      simp only [List.mem_append, not_or]
      exact ⟨⟨by cases carrier <;> decide, by decide⟩, equals_notMem_camel name⟩
    rw [List.mem_singleton.1 hline]
    exact readsField_readExpression hfront name type
  | readGroup constant name =>
    obtain ⟨rfl, carrier, hcarried⟩ := (mem_readGroup_iff h).1 hs
    obtain ⟨own, rfl⟩ := hcarried.exists_camel
    rw [List.mem_singleton.1 hline]
    exact readsField_readExpression (hconst _ (equals_notMem_camel own)) _ "IDataObject"
  | copy carrier constant =>
    obtain ⟨own, rfl⟩ := ((mem_copy_iff h).1 hs).exists_camel
    have hcopy : Sign.char '=' ∉ "Object.assign(" ++ carrier.text ++ ", " ++ Naming.camel own ++
        ");" := by
      simp only [List.mem_append, not_or]
      exact ⟨⟨⟨⟨by decide, by cases carrier <;> decide⟩, by decide⟩, equals_notMem_camel own⟩,
        by decide⟩
    rw [List.mem_singleton.1 hline]
    exact readsField_of_notMem hcopy
  | begin carrier =>
    rw [List.mem_singleton.1 hline]
    cases carrier <;> rfl
  | endpoint template =>
    rw [List.mem_singleton.1 hline]
    rfl
  | call c =>
    rw [Statement.runLines] at hline
    split at hline
    · simp only [List.mem_cons, List.not_mem_nil, or_false] at hline
      rcases hline with rfl | rfl | rfl | rfl | rfl | rfl | rfl <;> rfl
    · next hsingle =>
      rw [Call.lines, if_neg hsingle] at hline
      rw [List.mem_singleton.1 hline]
      rfl

end NodeForge.Source
