import NodeForge.OpenApi.Staging
import NodeForge.Proofs.Naming.Ids
import NodeForge.Proofs.OpenApi.Mention
import NodeForge.Proofs.Text.Order

/-!
# What is staged for a mention

Staging goes through the contexts of a document, groups them by resource, gives each of them an id
and sorts the operations. `Row` holds together what belongs to one mention on one resource: the
candidate for its id, the id and the operation. A staged document has a row for every mention on
every resource (`exists_rows`), and whatever is to be said about a staged operation can be read off
its row.
-/

namespace NodeForge.OpenApi

/-- What a mention on a resource becomes under an id: an operation with its endpoint and method, and
with the description, parameters and bodies of its own entry. -/
structure Mention.Makes (m : Mention) (resource id : Text) (o : Operation) : Prop where
  endpoint : m.path = .str o.endpoint
  requestMethod : o.requestMethod = Text.upper m.method
  operationId : o.operationId = id
  description : o.description = descriptionOf m.fields
  summary : o.summary = proseOf (Fields.get "summary" m.fields)
  operationUrl : ∃ url,
    ((Fields.get "externalDocs" m.fields).orElse (.map [])).field "url" = .ok url ∧
      Wire.orNull Wire.checkText url = .good o.operationUrl
  parameters : ∃ dropped, stageParameters (m.context resource) = .ok (o.parameters, dropped)
  requestBody : stageBodies (m.context resource) = .ok o.requestBody

/-- A mention on a resource with what becomes of it. -/
structure Row where
  mention : Mention
  candidate : Candidate
  id : Text
  operation : Operation

/-- Whether a row holds together: its candidate is that of its own mention, which allows its id, and
its operation is made from its own mention under this id. -/
structure Row.Fits (row : Row) (resource : Text) : Prop where
  candidate : candidateOf (row.mention.context resource) = .ok row.candidate
  allows : row.candidate.Allows row.id
  makes : row.mention.Makes resource row.id row.operation

/-! ### One operation -/

theorem makes_of_stageOperation {m : Mention} {resource id : Text} {o : Operation}
    {warnings : List Warning}
    (h : stageOperation (m.context resource) id = .ok (o, warnings)) : m.Makes resource id o := by
  unfold stageOperation at h
  dsimp only at h
  obtain ⟨url, hurl, h⟩ := Outcome.bind_eq_ok.1 h
  obtain ⟨⟨parameters, dropped⟩, hparameters, h⟩ := Outcome.bind_eq_ok.1 h
  obtain ⟨bodies, hbodies, h⟩ := Outcome.bind_eq_ok.1 h
  obtain ⟨o', ho', h⟩ := Outcome.bind_eq_ok.1 h
  rw [Outcome.pure_eq_ok, Prod.mk.injEq] at h
  rw [h.1] at ho'
  -- of the fields that are checked, the endpoint and the link are the ones that can be refused
  rw [Outcome.toExcept_eq_ok, Outcome.seq_eq_good] at ho'
  obtain ⟨build, url', hbuild, hurl', ho⟩ := ho'
  obtain ⟨endpoint, hendpoint, hbuilt⟩ := Outcome.map_eq_good.1 hbuild
  rw [Outcome.under_eq_good] at hendpoint hurl'
  rw [← hbuilt] at ho
  -- parameters can only be staged where the path is a text
  have hpath : ∃ s, m.path = .str s := by
    obtain ⟨declared, -, hrest⟩ := Outcome.bind_eq_ok.1 hparameters
    obtain ⟨s, hs, -⟩ := Outcome.bind_eq_ok.1 hrest
    exact ⟨s, Outcome.asText_eq_ok.1 (Outcome.lift_eq_ok.1 hs)⟩
  obtain ⟨s, hs⟩ := hpath
  have hsame : s = endpoint := by
    have hcheck : Wire.checkText (.scalar m.path) = .good endpoint := hendpoint
    rw [hs] at hcheck
    cases hcheck
    rfl
  rw [← ho]
  exact {
    endpoint := by rw [hs, hsame]
    requestMethod := rfl
    operationId := rfl
    description := rfl
    summary := rfl
    operationUrl := ⟨url, Outcome.lift_eq_ok.1 hurl, hurl'⟩
    parameters := ⟨dropped, hparameters⟩
    requestBody := hbodies }

/-! ### The operations on one resource -/

/-- Staging a resource finds a candidate for each context and stages its operation under the id that
is assigned to it. -/
theorem stageResource_eq_ok {contexts : List Context} {ops : List Operation}
    {warnings : List Warning} (h : stageResource contexts = .ok (ops, warnings)) :
    ∃ candidates staged, List.Forall₂ (fun c d => candidateOf c = .ok d) contexts candidates ∧
      List.Forall₂ (fun e s => stageOperation e.1 e.2 = .ok s)
        (contexts.zip (assignIds candidates)) staged ∧
      ops = Operation.sortedById (staged.map Prod.fst) := by
  obtain ⟨candidates, hcandidates, h⟩ := Outcome.bind_eq_ok.1 h
  obtain ⟨staged, hstaged, h⟩ := Outcome.bind_eq_ok.1 h
  rw [Outcome.pure_eq_ok, Prod.mk.injEq] at h
  rw [Outcome.lift_eq_ok, Outcome.mapM_eq_ok] at hcandidates
  rw [Outcome.mapM_eq_ok] at hstaged
  exact ⟨candidates, staged, hcandidates, hstaged, h.1.symm⟩

/-- Contexts, candidates, ids and operations that were found one by one belong together one by
one. -/
theorem exists_rows_of_zip {resource : Text} {ms : List Mention} {candidates : List Candidate}
    {ids : List Text} {staged : List (Operation × List Warning)}
    (hcandidates : List.Forall₂ (fun ctx c => candidateOf ctx = .ok c)
      (ms.map (·.context resource)) candidates)
    (hallows : List.Forall₂ Candidate.Allows candidates ids)
    (hstaged : List.Forall₂ (fun e s => stageOperation e.1 e.2 = .ok s)
      ((ms.map (·.context resource)).zip ids) staged) :
    ∃ rows : List Row, rows.map Row.mention = ms ∧ rows.map Row.candidate = candidates ∧
      rows.map Row.id = ids ∧ rows.map Row.operation = staged.map Prod.fst ∧
      ∀ row ∈ rows, row.Fits resource := by
  -- the contexts decide the shape of the other rows
  induction ms generalizing candidates ids staged with
  | nil =>
    rw [List.map_nil, List.forall₂_nil_left_iff] at hcandidates
    rw [hcandidates, List.forall₂_nil_left_iff] at hallows
    rw [hallows, List.zip_nil_right, List.forall₂_nil_left_iff] at hstaged
    refine ⟨[], rfl, hcandidates.symm, hallows.symm, ?_, by simp⟩
    rw [hstaged]
    rfl
  | cons m ms ih =>
    obtain ⟨c, cs, hc, hcs, rfl⟩ := List.forall₂_cons_left_iff.1 hcandidates
    obtain ⟨id, rest, hid, hrest, rfl⟩ := List.forall₂_cons_left_iff.1 hallows
    rw [List.map_cons, List.zip_cons_cons] at hstaged
    obtain ⟨⟨o, warnings⟩, ss, hs, hss, rfl⟩ := List.forall₂_cons_left_iff.1 hstaged
    obtain ⟨rows, hmentions, hcands, hids, hops, hfits⟩ := ih hcs hrest hss
    refine ⟨⟨m, c, id, o⟩ :: rows, by rw [List.map_cons, hmentions], by rw [List.map_cons, hcands],
      by rw [List.map_cons, hids], by rw [List.map_cons, hops, List.map_cons], ?_⟩
    intro row hrow
    rcases List.mem_cons.1 hrow with rfl | hrow
    · exact ⟨hc, hid, makes_of_stageOperation hs⟩
    · exact hfits row hrow

/-- Staging a resource makes one row for each of its mentions, and sorts the operations by their
ids. -/
theorem exists_rows_of_stageResource {resource : Text} {ms : List Mention} {ops : List Operation}
    {warnings : List Warning}
    (h : stageResource (ms.map (·.context resource)) = .ok (ops, warnings)) :
    ∃ rows : List Row, rows.map Row.mention = ms ∧
      rows.map Row.id = assignIds (rows.map Row.candidate) ∧ (∀ row ∈ rows, row.Fits resource) ∧
      ops = Operation.sortedById (rows.map Row.operation) := by
  obtain ⟨candidates, staged, hcandidates, hstaged, rfl⟩ := stageResource_eq_ok h
  obtain ⟨rows, hmentions, hcands, hids, hops, hfits⟩ :=
    exists_rows_of_zip hcandidates (allows_assignIds candidates) hstaged
  refine ⟨rows, hmentions, ?_, hfits, ?_⟩
  · rw [hids, hcands]
  · rw [hops]

/-! ### Grouping by resource -/

theorem nodup_resources (m : Mention) : m.resources.Nodup := by
  rw [Mention.resources]
  cases h : resourcesOf m.entry m.path with
  | error e => exact .nil
  | ok rs =>
    obtain ⟨tags, -, h⟩ := Outcome.bind_eq_ok.1 h
    dsimp only at h
    split at h
    · obtain ⟨members, -, h⟩ := Outcome.bind_eq_ok.1 h
      obtain ⟨texts, -, h⟩ := Outcome.bind_eq_ok.1 h
      rw [Outcome.pure_eq_ok] at h
      rw [← h]
      exact Entries.nodup_distinct _
    · obtain ⟨text, -, h⟩ := Outcome.bind_eq_ok.1 h
      obtain ⟨tag, -, h⟩ := Outcome.bind_eq_ok.1 h
      rw [Outcome.pure_eq_ok] at h
      rw [← h]
      exact Entries.nodup_distinct _

/-- An operation has one context on each of its resources and none on others. -/
theorem filter_map_context (m : Mention) (resource : Text) :
    (m.resources.map m.context).filter (fun c => c.resource == resource) =
      if m.resources.contains resource then [m.context resource] else [] := by
  have hcount : m.resources.count resource = if resource ∈ m.resources then 1 else 0 :=
    (nodup_resources m).count
  rw [List.filter_map]
  show (m.resources.filter fun r => r == resource).map m.context = _
  rw [List.filter_beq, hcount]
  by_cases h : resource ∈ m.resources
  · rw [if_pos h, if_pos (List.contains_iff_mem.2 h)]
    rfl
  · rw [if_neg h, if_neg fun hc => h (List.contains_iff_mem.1 hc)]
    rfl

/-- The contexts of a resource are those of the mentions that belong to it. -/
theorem filter_contexts (ms : List Mention) (resource : Text) :
    (ms.flatMap fun m => m.resources.map m.context).filter (fun c => c.resource == resource) =
      (ms.filter fun m => m.resources.contains resource).map (·.context resource) := by
  induction ms with
  | nil => rfl
  | cons m ms ih =>
    rw [List.flatMap_cons, List.filter_append, ih, filter_map_context, List.filter_cons]
    split <;> rfl

/-! ### A whole document -/

/-- The mentions of a document that belong to a resource, in its order. -/
def mentionsOn (resource : Text) (document : Value) : List Mention :=
  (mentions document).filter fun m => m.resources.contains resource

/-- The resources that the operations of a document belong to, in order and each once. -/
def mentionedResources (document : Value) : List Text :=
  Text.sorted (Entries.distinct ((mentions document).flatMap Mention.resources))

theorem mem_mentionedResources {document : Value} {resource : Text} :
    resource ∈ mentionedResources document ↔ ∃ m ∈ mentions document, resource ∈ m.resources := by
  rw [mentionedResources, Text.sorted, List.mem_mergeSort, Entries.mem_distinct, List.mem_flatMap]

theorem pairwise_mentionedResources (document : Value) :
    (mentionedResources document).Pairwise Text.Precedes :=
  Text.pairwise_sorted_of_nodup (Entries.nodup_distinct _)

variable {given : Option Text} {nodeColor : Text} {document : Value} {staged : Staged}

/-- Whether a document can be staged. This looks at the parts of staging that can fail and leaves
out the sorting, so it can be evaluated. -/
def isStageable (given : Option Text) (nodeColor : Text) (document : Value) : Bool :=
  Except.isOk (do
    let found ← contexts document
    let _ ← found.mapM fun c => stageResource (found.filter fun d => d.resource == c.resource)
    stageService given nodeColor document)

theorem isStageable_iff : isStageable given nodeColor document = true ↔
    ∃ staged, stage given nodeColor document = .ok staged := by
  rw [isStageable, Outcome.isOk_iff]
  constructor
  · rintro ⟨service, h⟩
    obtain ⟨found, hfound, h⟩ := Outcome.bind_eq_ok.1 h
    obtain ⟨outs, houts, hservice⟩ := Outcome.bind_eq_ok.1 h
    have hrows : ∃ rows, ((resourceNames found).mapM fun resource => do
        return (resource, ← stageResource (found.filter fun c => c.resource == resource))) =
          Except.ok rows := by
      refine Outcome.exists_mapM_eq_ok.2 fun resource hresource => ?_
      have hmem : resource ∈ found.map Context.resource :=
        Entries.mem_distinct.1 ((List.mergeSort_perm ..).mem_iff.1 hresource)
      obtain ⟨c, hc, rfl⟩ := List.mem_map.1 hmem
      obtain ⟨out, -, hout⟩ := Outcome.exists_ok_of_mem houts hc
      exact ⟨(c.resource, out), Outcome.bind_eq_ok.2 ⟨out, hout, rfl⟩⟩
    obtain ⟨rows, hrows⟩ := hrows
    exact ⟨_, Outcome.bind_eq_ok.2 ⟨found, hfound, Outcome.bind_eq_ok.2 ⟨rows, hrows,
      Outcome.bind_eq_ok.2 ⟨service, hservice, rfl⟩⟩⟩⟩
  · rintro ⟨staged, h⟩
    obtain ⟨found, hfound, h⟩ := Outcome.bind_eq_ok.1 h
    obtain ⟨rows, hrows, h⟩ := Outcome.bind_eq_ok.1 h
    obtain ⟨service, hservice, -⟩ := Outcome.bind_eq_ok.1 h
    have houts : ∃ outs, (found.mapM fun c =>
        stageResource (found.filter fun d => d.resource == c.resource)) = .ok outs := by
      refine Outcome.exists_mapM_eq_ok.2 fun c hc => ?_
      have hmem : c.resource ∈ resourceNames found :=
        (List.mergeSort_perm ..).mem_iff.2 (Entries.mem_distinct.2 (List.mem_map_of_mem hc))
      obtain ⟨row, -, hrow⟩ := Outcome.exists_ok_of_mem hrows hmem
      obtain ⟨out, hout, -⟩ := Outcome.bind_eq_ok.1 hrow
      exact ⟨out, hout⟩
    obtain ⟨outs, houts⟩ := houts
    exact ⟨service, Outcome.bind_eq_ok.2 ⟨found, hfound, Outcome.bind_eq_ok.2 ⟨outs, houts,
      hservice⟩⟩⟩

theorem reads_of_stage (h : stage given nodeColor document = .ok staged) :
    ∀ m ∈ mentions document, m.Reads := by
  obtain ⟨found, hfound, -⟩ := Outcome.bind_eq_ok.1 h
  exact (contexts_eq hfound).1

/-- Staging a document stages the contexts of every resource that is mentioned. -/
theorem stageResource_of_stage (h : stage given nodeColor document = .ok staged) :
    List.Forall₂ (fun resource e => e.1 = resource ∧ ∃ warnings,
        stageResource ((mentionsOn resource document).map (·.context resource)) =
          .ok (e.2, warnings))
      (mentionedResources document) staged.model.resources := by
  obtain ⟨found, hfound, h⟩ := Outcome.bind_eq_ok.1 h
  obtain ⟨rows, hrows, h⟩ := Outcome.bind_eq_ok.1 h
  obtain ⟨service, -, h⟩ := Outcome.bind_eq_ok.1 h
  rw [Outcome.pure_eq_ok] at h
  have hcontexts := (contexts_eq hfound).2
  have hnames : resourceNames found = mentionedResources document := by
    rw [resourceNames, mentionedResources, hcontexts, List.map_flatMap]
    simp only [List.map_map, Function.comp_def, Mention.context, List.map_id']
  rw [Outcome.mapM_eq_ok, hnames] at hrows
  rw [← h, List.forall₂_map_right_iff]
  refine hrows.imp fun resource e he => ?_
  obtain ⟨result, hresult, he⟩ := Outcome.bind_eq_ok.1 he
  rw [Outcome.pure_eq_ok] at he
  rw [hcontexts, filter_contexts] at hresult
  rw [← he]
  exact ⟨rfl, result.2, hresult⟩

theorem map_fst_resources (h : stage given nodeColor document = .ok staged) :
    staged.model.resources.map Prod.fst = mentionedResources document := by
  have hnames := Outcome.map_eq_map_of_forall₂ (f := id) (g := Prod.fst)
    (fun _ _ he => he.1.symm) (stageResource_of_stage h)
  rw [← hnames, List.map_id]

/-- **Rows of a resource.** Each resource of a staged document has one row for every mention that
belongs to it, in the order of the document. Its ids are those assigned in this order, and its
operations are those of the rows, sorted by their ids. -/
theorem exists_rows (h : stage given nodeColor document = .ok staged) {e : Text × List Operation}
    (he : e ∈ staged.model.resources) :
    ∃ rows : List Row, rows.map Row.mention = mentionsOn e.1 document ∧
      rows.map Row.id = assignIds (rows.map Row.candidate) ∧ (∀ row ∈ rows, row.Fits e.1) ∧
      e.2 = Operation.sortedById (rows.map Row.operation) := by
  obtain ⟨resource, -, hname, warnings, hstaged⟩ :=
    Outcome.exists_left_of_mem (stageResource_of_stage h) he
  rw [← hname] at hstaged
  exact exists_rows_of_stageResource hstaged

/-- Every staged operation stands in a row of its resource. -/
theorem exists_row_of_mem (h : stage given nodeColor document = .ok staged)
    {e : Text × List Operation} (he : e ∈ staged.model.resources) {o : Operation} (ho : o ∈ e.2) :
    ∃ row : Row, row.operation = o ∧ row.Fits e.1 ∧ row.mention ∈ mentions document ∧
      e.1 ∈ row.mention.resources := by
  obtain ⟨rows, hmentions, -, hfits, hops⟩ := exists_rows h he
  rw [hops, Operation.sortedById, List.mem_mergeSort] at ho
  obtain ⟨row, hrow, rfl⟩ := List.mem_map.1 ho
  have hm : row.mention ∈ mentionsOn e.1 document := by
    rw [← hmentions]
    exact List.mem_map_of_mem hrow
  obtain ⟨hmem, hresource⟩ := List.mem_filter.1 hm
  exact ⟨row, rfl, hfits row hrow, hmem, List.contains_iff_mem.1 hresource⟩

/-- Every staged operation is made from a mention of the document. -/
theorem exists_mention_of_mem (h : stage given nodeColor document = .ok staged)
    {e : Text × List Operation} (he : e ∈ staged.model.resources) {o : Operation} (ho : o ∈ e.2) :
    ∃ m ∈ mentions document, e.1 ∈ m.resources ∧ m.Makes e.1 o.operationId o := by
  obtain ⟨row, rfl, hfits, hm, hresource⟩ := exists_row_of_mem h he ho
  refine ⟨row.mention, hm, hresource, ?_⟩
  rw [hfits.makes.operationId]
  exact hfits.makes

end NodeForge.OpenApi
