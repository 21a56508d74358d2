import NodeForge.Proofs.OpenApi.Parameters
import NodeForge.Proofs.Outline.Buckets
import NodeForge.Proofs.Source.Constants
import NodeForge.Proofs.Source.Template

/-!
# The scope of a request

The code that runs an operation declares a constant for each placeholder of its endpoint, named by
the placeholder in camel case, and puts these constants into the template of the endpoint. Nothing
keeps their names apart: `isScoped_of_isStaged` says for the operations of staged descriptions when a
constant is declared twice, and when the template has another constant than the one that a
placeholder was read into.
-/

namespace NodeForge.Source

variable {o : Operation} {helper : Text} {statements : List Statement}

/-! ### Staged operations -/

/-- Whether an operation is one of a staged description, of either format. -/
inductive IsStaged (o : Operation) : Prop where
  | openApi {given : Option Text} {nodeColor : Text} {document : Value} {staged : Staged}
      {r : Text × List Operation} (h : OpenApi.stage given nodeColor document = .ok staged)
      (hr : r ∈ staged.model.resources) (ho : o ∈ r.2)
  | outline {enter : Value → Value} {check : Bool} {document : Value} {m : NodeModel}
      {r : Text × List Operation} (henter : enter = id ∨ enter = Value.opened)
      (h : Outline.stage enter check document = .ok m) (hr : r ∈ m.resources) (ho : o ∈ r.2)

/-- What the code of a request relies on: the path parameters of an operation are the placeholders
of its endpoint, and no two of its groups of query fields have one name. -/
structure IsLaidOut (o : Operation) : Prop where
  path : o.pathParameters.map Parameter.name = Endpoint.placeholders o.endpoint
  groups : (o.fieldGroups.map FieldGroup.name).Nodup

theorem pathParameters_eq {path others : List Parameter}
    (hpath : ∀ p ∈ path, p.location = .path) (hothers : ∀ p ∈ others, p.location = .query)
    (h : o.parameters = path ++ others) : o.pathParameters = path := by
  rw [Operation.pathParameters, h, List.filter_append, List.filter_eq_self.2,
    List.filter_eq_nil_iff.2, List.append_nil]
  · intro p hp
    rw [hothers p hp]
    decide
  · intro p hp
    rw [hpath p hp]
    decide

/-- A document stages no groups of query fields. -/
theorem fieldGroups_of_stage {given : Option Text} {nodeColor : Text} {document : Value}
    {staged : Staged} (h : OpenApi.stage given nodeColor document = .ok staged)
    {r : Text × List Operation} (hr : r ∈ staged.model.resources) (ho : o ∈ r.2) :
    o.fieldGroups = [] := by
  obtain ⟨resource, -, -, warnings, hstaged⟩ :=
    Outcome.exists_left_of_mem (OpenApi.stageResource_of_stage h) hr
  obtain ⟨candidates, rows, -, hrows, hops⟩ := OpenApi.stageResource_eq_ok hstaged
  rw [hops, Operation.sortedById, List.mem_mergeSort] at ho
  obtain ⟨row, hrow, rfl⟩ := List.mem_map.1 ho
  obtain ⟨e, -, he⟩ := Outcome.exists_left_of_mem hrows hrow
  unfold OpenApi.stageOperation at he
  dsimp only at he
  obtain ⟨url, -, he⟩ := Outcome.bind_eq_ok.1 he
  obtain ⟨parameters, -, he⟩ := Outcome.bind_eq_ok.1 he
  obtain ⟨bodies, -, he⟩ := Outcome.bind_eq_ok.1 he
  obtain ⟨made, hmade, he⟩ := Outcome.bind_eq_ok.1 he
  rw [← Outcome.pure_eq_ok.1 he]
  rw [Outcome.toExcept_eq_ok, Outcome.seq_eq_good] at hmade
  obtain ⟨build, url', hbuild, -, hmade⟩ := hmade
  obtain ⟨endpoint, -, hbuilt⟩ := Outcome.map_eq_good.1 hbuild
  rw [← hmade, ← hbuilt]
  rfl

theorem isLaidOut_of_document {given : Option Text} {nodeColor : Text} {document : Value}
    {staged : Staged} (h : OpenApi.stage given nodeColor document = .ok staged)
    {r : Text × List Operation} (hr : r ∈ staged.model.resources) (ho : o ∈ r.2) :
    IsLaidOut o := by
  obtain ⟨m, -, -, hmakes⟩ := OpenApi.exists_mention_of_mem h hr ho
  obtain ⟨dropped, hparameters⟩ := hmakes.parameters
  obtain ⟨path, required, gathered, heq, hparts⟩ :=
    OpenApi.parts_of_stageParameters hmakes.endpoint hparameters
  have hpath : ∀ p ∈ path, p.location = .path := fun p hp => by
    obtain ⟨name, -, -, raw, hmade, -⟩ :=
      Outcome.exists_left_of_mem hparts.forall₂_placeholders hp
    exact hmade.location
  have hothers : ∀ p ∈ required ++ gathered, p.location = .query := fun p hp => by
    rcases List.mem_append.1 hp with hp | hp
    · obtain ⟨raw, -, hmade⟩ := Outcome.exists_left_of_mem hparts.required hp
      exact hmade.location
    · rcases hparts.gathered with ⟨-, rfl⟩ | ⟨-, query, rfl, hgathers⟩
      · cases hp
      · rw [List.mem_singleton.1 hp]
        exact hgathers.location
  have hnames := Outcome.map_eq_map_of_forall₂ (f := id) (g := Parameter.name)
    (fun name p hp => hp.1.symm) hparts.forall₂_placeholders
  refine ⟨?_, ?_⟩
  · rw [pathParameters_eq hpath hothers (heq.trans (List.append_assoc ..)), ← hnames, List.map_id]
  · rw [fieldGroups_of_stage h hr ho]
    exact .nil

/-- A custom schema stages at most two groups of query fields, each under its own name. -/
theorem isLaidOut_of_isStagedFrom {enter : Value → Value} {fields : Fields}
    (h : Outline.IsStagedFrom enter fields o) : IsLaidOut o := by
  obtain ⟨path, required, filters, heq, hpath, hrequired, hfilters⟩ := h.parameters
  have hothers : ∀ p ∈ required ++ filters, p.location = .query := fun p hp => by
    rcases List.mem_append.1 hp with hp | hp
    · obtain ⟨e, -, hfield⟩ := Outcome.exists_left_of_mem hrequired hp
      exact hfield.location
    · obtain ⟨e, -, hfield⟩ := Outcome.exists_left_of_mem hfilters hp
      exact hfield.location
  refine ⟨?_, ?_⟩
  · rw [pathParameters_eq hpath.location hothers (heq.trans (List.append_assoc ..)), hpath.names]
  · have hadditional := h.additionalFields.name
    have hupdates := h.updateFields.name
    rw [Operation.fieldGroups]
    cases hfirst : o.additionalFields <;> cases hsecond : o.updateFields <;> simp_all

theorem isLaidOut_of_isStaged (h : IsStaged o) : IsLaidOut o := by
  cases h with
  | openApi h hr ho => exact isLaidOut_of_document h hr ho
  | outline henter h hr ho =>
    obtain ⟨main, listed, sorted, -, -, -, hrows⟩ := Outline.resources_of_stage h
    obtain ⟨e, -, -, hresource⟩ := Outcome.exists_left_of_mem hrows hr
    obtain ⟨members, staged, -, hstaged, hperm, -⟩ :=
      (Outline.areListed_of_stageResource (Outline.keepsKeys_of_eq henter) hresource).perm
    obtain ⟨v, -, fields, -, hfrom⟩ := Outcome.exists_left_of_mem hstaged (hperm.mem_iff.1 ho)
    exact isLaidOut_of_isStagedFrom hfrom

/-! ### The main result -/

/-- What the constants of a request are and which of them its endpoint is made of. -/
structure IsScoped (o : Operation) (statements : List Statement) : Prop where
  /-- The placeholders are read, each into the constant that its name makes. -/
  readPath_iff : ∀ constant name, .readPath constant name ∈ statements ↔
    constant = Naming.camel name ∧ name ∈ Endpoint.placeholders o.endpoint
  /-- Every constant is declared once exactly if the placeholders make different constants, none of
  which the code declares itself, and it reads no two query parameters as a group. -/
  nodup_iff : ((statements.flatMap Statement.lines).filterMap declared?).Nodup ↔
    ((Endpoint.placeholders o.endpoint).map Naming.camel).Nodup ∧
      (∀ name ∈ Endpoint.placeholders o.endpoint, ∀ c, Declares o c →
        c.text ≠ Naming.camel name) ∧
      (o.queryParameters.filter isQueryGroup).length ≤ 1
  /-- The template is the endpoint with constants for its placeholders. A constant is folded once
  more where a later placeholder is called like it. -/
  template : ∃ constant, (∀ template, .endpoint template ∈ statements ↔
      template = Endpoint.asTemplate constant (Endpoint.parts o.endpoint)) ∧
    ∀ before name behind, Endpoint.placeholders o.endpoint = before ++ name :: behind →
      constant name = if Naming.camel name ∈ behind then Naming.camel (Naming.camel name)
        else Naming.camel name
  /-- So the template has the constants that the placeholders are read into exactly if none of them
  is called like a later placeholder, or those that are fold to themselves. -/
  template_iff : .endpoint (Endpoint.asTemplate Naming.camel (Endpoint.parts o.endpoint)) ∈
      statements ↔
    ∀ before name behind, Endpoint.placeholders o.endpoint = before ++ name :: behind →
      Naming.camel name ∈ behind → Naming.camel (Naming.camel name) = Naming.camel name

/-- **The scope of a request.** Where the braces of its endpoint only delimit placeholders, the code
of a staged operation declares each constant once, and has in its template the constants that the
placeholders were read into, exactly if camel case keeps the names of the placeholders apart: from
each other, from the constants of the code and from names that were folded before. -/
theorem isScoped_of_isStaged (h : IsStaged o) (hdelimits : Endpoint.OnlyDelimits o.endpoint)
    (hstatements : requestStatements helper o = .ok statements) : IsScoped o statements := by
  obtain ⟨hpath, hgroups⟩ := isLaidOut_of_isStaged h
  refine ⟨fun constant name => ?_, ?_, ?_, ?_⟩
  · rw [mem_readPath_iff hstatements, hpath]
  · rw [nodup_constants_iff hgroups hstatements, hpath]
  · refine ⟨foldedBy (Endpoint.placeholders o.endpoint), fun template => ?_, ?_⟩
    · rw [mem_endpoint_iff hstatements, endpointTemplate_eq hpath hdelimits]
    · intro before name behind hrow
      rw [hrow, foldedBy_eq (hrow ▸ Entries.nodup_distinct _)]
  · rw [mem_endpoint_iff hstatements, eq_comm, endpointTemplate_eq_iff hpath hdelimits]

/-- A shop whose only operation has an endpoint. -/
def shopAt (endpoint : Text) : Value :=
  .record [("openapi", .str "3.0.0"), ("info", .record [("title", .str "Shop"),
    ("version", .str "1")]), ("paths", .map [(.str endpoint, .record [
      ("get", .record [("operationId", .str "find"), ("tags", .list [.str "part"]),
        ("responses", .record [])])])])]

/-- Whether the shop at an endpoint stages an operation there whose statements pass a test. -/
def runsAt (endpoint : Text) (test : Operation → List Statement → Bool) : Bool :=
  (OpenApi.stage none defaultNodeColor (shopAt endpoint)).toOption.any fun staged =>
    staged.model.resources.any fun r => r.2.any fun o =>
      o.endpoint == endpoint && (requestStatements "shopApiRequest" o).toOption.any (test o)

theorem exists_of_runsAt {endpoint : Text} {test : Operation → List Statement → Bool}
    (h : runsAt endpoint test = true) :
    ∃ o statements, IsStaged o ∧ o.endpoint = endpoint ∧
      requestStatements "shopApiRequest" o = .ok statements ∧ test o statements = true := by
  obtain ⟨staged, hstaged, h⟩ := Outcome.exists_ok_of_any h
  obtain ⟨r, hr, h⟩ := List.any_eq_true.1 h
  obtain ⟨o, ho, h⟩ := List.any_eq_true.1 h
  rw [Bool.and_eq_true, beq_iff_eq] at h
  obtain ⟨statements, hstatements, htest⟩ := Outcome.exists_ok_of_any h.2
  exact ⟨o, statements, .openApi hstaged hr ho, h.1, hstatements, htest⟩

theorem isScoped_shopAt : ∃ o statements, IsStaged o ∧ Endpoint.OnlyDelimits o.endpoint ∧
    o.endpoint = "/parcels/\x7bparcel_id\x7d/parts/\x7bpart\x7d" ∧
    requestStatements "shopApiRequest" o = .ok statements ∧ IsScoped o statements := by
  obtain ⟨o, statements, ho, hendpoint, hstatements, -⟩ := exists_of_runsAt
    (by decide +kernel :
      runsAt "/parcels/\x7bparcel_id\x7d/parts/\x7bpart\x7d" (fun _ _ => true) = true)
  have hdelimits : Endpoint.OnlyDelimits o.endpoint := by
    rw [hendpoint]
    decide
  exact ⟨o, statements, ho, hdelimits, hendpoint, hstatements,
    isScoped_of_isStaged ho hdelimits hstatements⟩

/-- The code of one operation declares `endpoint` twice, and that of another one has a constant in
its template that a different placeholder was read into. -/
theorem not_scoped_shopAt :
    (∃ o statements, IsStaged o ∧ o.endpoint = "/apis/\x7bendpoint\x7d" ∧
      Endpoint.OnlyDelimits o.endpoint ∧
      requestStatements "shopApiRequest" o = .ok statements ∧
      ¬ ((statements.flatMap Statement.lines).filterMap declared?).Nodup) ∧
    ∃ o statements, IsStaged o ∧ o.endpoint = "/\x7ba b c\x7d/\x7baBC\x7d" ∧
      Endpoint.OnlyDelimits o.endpoint ∧
      requestStatements "shopApiRequest" o = .ok statements ∧
      .readPath "aBC" "a b c" ∈ statements ∧ .readPath "aBc" "aBC" ∈ statements ∧
      .endpoint "/$\x7baBc\x7d/$\x7baBc\x7d" ∈ statements ∧
      .endpoint (Endpoint.asTemplate Naming.camel (Endpoint.parts o.endpoint)) ∉ statements := by
  constructor
  · obtain ⟨o, statements, ho, hendpoint, hstatements, htest⟩ := exists_of_runsAt
      (by decide +kernel : runsAt "/apis/\x7bendpoint\x7d" (fun _ statements =>
        !((statements.flatMap Statement.lines).filterMap declared?).Nodup) = true)
    rw [Bool.not_eq_true', decide_eq_false_iff_not] at htest
    have hdelimits : Endpoint.OnlyDelimits o.endpoint := by
      rw [hendpoint]
      decide
    exact ⟨o, statements, ho, hendpoint, hdelimits, hstatements, htest⟩
  · obtain ⟨o, statements, ho, hendpoint, hstatements, htest⟩ := exists_of_runsAt
      (by decide +kernel : runsAt "/\x7ba b c\x7d/\x7baBC\x7d" (fun o statements => decide
        (.readPath "aBC" "a b c" ∈ statements ∧ .readPath "aBc" "aBC" ∈ statements ∧
          .endpoint "/$\x7baBc\x7d/$\x7baBc\x7d" ∈ statements ∧
          .endpoint (Endpoint.asTemplate Naming.camel (Endpoint.parts o.endpoint)) ∉
            statements)) = true)
    have hdelimits : Endpoint.OnlyDelimits o.endpoint := by
      rw [hendpoint]
      decide
    exact ⟨o, statements, ho, hendpoint, hdelimits, hstatements, of_decide_eq_true htest⟩

end NodeForge.Source
