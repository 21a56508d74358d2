import NodeForge.Proofs.OpenApi.Rows

/-!
# What a resource depends on

Grouping, counting canonical ids, giving ids and sorting all read the document in its order. Still a
resource depends on nothing but its own contexts, and not on their order, as long as no id has to be
numbered: two documents with the same contexts for a resource have the same operations on it
(`lookup_resources_congr`).

Without numbers the id of an operation depends on its candidate and on how often each canonical id
comes up, and sorting by different ids forgets the order in which they came.
-/

namespace NodeForge.OpenApi

/-- The contexts of a document for a resource, in its order. -/
def contextsOn (resource : Text) (document : Value) : List Context :=
  (mentionsOn resource document).map (·.context resource)

/-- The ids that some contexts prefer: the variant where the canonical id is shared, else the
canonical id. -/
def wantedIds (contexts : List Context) : Except Fault (List Text) :=
  preferredIds <$> contexts.mapM candidateOf

/-! ### One resource -/

theorem operationId_of_stageOperation {ctx : Context} {id : Text} {o : Operation}
    {warnings : List Warning} (h : stageOperation ctx id = .ok (o, warnings)) :
    o.operationId = id := by
  unfold stageOperation at h
  dsimp only at h
  obtain ⟨url, -, h⟩ := Outcome.bind_eq_ok.1 h
  obtain ⟨⟨parameters, dropped⟩, -, h⟩ := Outcome.bind_eq_ok.1 h
  obtain ⟨bodies, -, h⟩ := Outcome.bind_eq_ok.1 h
  obtain ⟨o', ho', h⟩ := Outcome.bind_eq_ok.1 h
  rw [Outcome.pure_eq_ok, Prod.mk.injEq] at h
  rw [h.1, Outcome.toExcept_eq_ok, Outcome.seq_eq_good] at ho'
  obtain ⟨build, url', hbuild, -, ho⟩ := ho'
  obtain ⟨endpoint, -, hbuilt⟩ := Outcome.map_eq_good.1 hbuild
  rw [← ho, ← hbuilt]

/-- How the operation of a context is staged when each candidate gets the id that `f` says. -/
def StagesUnder (f : Candidate → Text) (c : Context) (s : Operation × List Warning) : Prop :=
  ∃ d, candidateOf c = .ok d ∧ stageOperation c (f d) = .ok s

theorem StagesUnder.unique {f : Candidate → Text} {c : Context} {s t : Operation × List Warning}
    (hs : StagesUnder f c s) (ht : StagesUnder f c t) : s = t := by
  obtain ⟨d, hd, hs⟩ := hs
  obtain ⟨d', hd', ht⟩ := ht
  rw [hd, Except.ok.injEq] at hd'
  rw [← hd', hs, Except.ok.injEq] at ht
  exact ht

theorem candidate_unique (c : Context) (d d' : Candidate) (h : candidateOf c = .ok d)
    (h' : candidateOf c = .ok d') : d = d' := by
  rwa [h, Except.ok.injEq] at h'

/-- The operations of a resource, before they are sorted, where no id is numbered. -/
theorem exists_staged_of_stageResource {contexts : List Context} {candidates : List Candidate}
    {ops : List Operation} {warnings : List Warning}
    (h : stageResource contexts = .ok (ops, warnings))
    (hcandidates : List.Forall₂ (fun c d => candidateOf c = .ok d) contexts candidates)
    (hnodup : (preferredIds candidates).Nodup) :
    ∃ staged, List.Forall₂ (StagesUnder (preferredId candidates)) contexts staged ∧
      ((staged.map Prod.fst).map Operation.operationId).Nodup ∧
      ops = Operation.sortedById (staged.map Prod.fst) := by
  obtain ⟨candidates', staged, hcandidates', hstaged, hops⟩ := stageResource_eq_ok h
  rw [Outcome.eq_of_forall₂ candidate_unique hcandidates' hcandidates] at hstaged
  -- With no number, an id depends on the candidate and the others, but not on its place.
  have hassigned : assignIds candidates = candidates.map (preferredId candidates) := by
    rw [assignIds_eq_of_nodup hnodup, preferredIds_eq_map]
  have hids : (staged.map Prod.fst).map Operation.operationId = assignIds candidates := by
    have hlength : (assignIds candidates).length ≤ contexts.length := by
      rw [length_assignIds, hcandidates.length_eq]
    have hsame := Outcome.map_eq_map_of_forall₂ (f := Prod.snd) (g := fun s => s.1.operationId)
      (fun e s hs => (operationId_of_stageOperation hs).symm) hstaged
    rw [List.map_snd_zip hlength] at hsame
    rw [hsame, List.map_map]
    rfl
  refine ⟨staged, ?_, ?_, hops⟩
  · rw [hassigned] at hstaged
    exact Outcome.forall₂_of_zip_map (S := fun c id s => stageOperation c id = .ok s)
      hcandidates hstaged
  · rw [hids]
    exact nodup_assignIds candidates

/-- Where no id is numbered, the order of the contexts does not count. -/
theorem stageResource_congr {contexts contexts' : List Context} {candidates : List Candidate}
    {ops ops' : List Operation} {warnings warnings' : List Warning}
    (hperm : contexts.Perm contexts')
    (h : stageResource contexts = .ok (ops, warnings))
    (h' : stageResource contexts' = .ok (ops', warnings'))
    (hcandidates : List.Forall₂ (fun c d => candidateOf c = .ok d) contexts candidates)
    (hnodup : (preferredIds candidates).Nodup) : ops = ops' := by
  obtain ⟨candidates', _, hcandidates', -, -⟩ := stageResource_eq_ok h'
  have hcandidatesPerm : candidates.Perm candidates' :=
    Outcome.perm_of_forall₂ candidate_unique hperm hcandidates hcandidates'
  have hnodup' : (preferredIds candidates').Nodup :=
    (preferredIds_perm hcandidatesPerm).nodup_iff.1 hnodup
  obtain ⟨staged, hstaged, hdifferent, rfl⟩ := exists_staged_of_stageResource h hcandidates hnodup
  obtain ⟨staged', hstaged', -, rfl⟩ := exists_staged_of_stageResource h' hcandidates' hnodup'
  rw [← preferredId_congr hcandidatesPerm] at hstaged'
  have hstagedPerm : staged.Perm staged' :=
    Outcome.perm_of_forall₂ (fun _ _ _ hs ht => hs.unique ht) hperm hstaged hstaged'
  exact Text.mergeSort_eq_of_perm (hstagedPerm.map Prod.fst) hdifferent

/-! ### A whole document -/

variable {given given' : Option Text} {nodeColor nodeColor' : Text} {document document' : Value}
  {staged staged' : Staged}

/-- A resource that no operation belongs to is not staged, and any other one is made from its
contexts. -/
theorem lookup_resources (h : stage given nodeColor document = .ok staged) (resource : Text) :
    contextsOn resource document = [] ∧ staged.model.resources.lookup resource = none ∨
      contextsOn resource document ≠ [] ∧ ∃ ops warnings,
        stageResource (contextsOn resource document) = .ok (ops, warnings) ∧
          staged.model.resources.lookup resource = some ops := by
  have hkeys : Entries.keys staged.model.resources = mentionedResources document :=
    map_fst_resources h
  have hmentioned : contextsOn resource document = [] ↔
      resource ∉ mentionedResources document := by
    rw [contextsOn, List.map_eq_nil_iff, mentionsOn, List.filter_eq_nil_iff,
      mem_mentionedResources]
    simp
  by_cases hmem : resource ∈ mentionedResources document
  · right
    refine ⟨fun hnil => hmentioned.1 hnil hmem, ?_⟩
    obtain ⟨e, he, rfl, warnings, hstaged⟩ :=
      Outcome.exists_right_of_mem (stageResource_of_stage h) hmem
    have hnodup : (Entries.keys staged.model.resources).Nodup := by
      rw [hkeys]
      exact (pairwise_mentionedResources document).imp Text.Precedes.ne
    exact ⟨e.2, warnings, hstaged, Entries.lookup_eq_some_of_mem hnodup he⟩
  · left
    refine ⟨hmentioned.2 hmem, List.lookup_eq_none_iff.2 fun e he => ?_⟩
    have hkey : e.1 ∈ mentionedResources document := by
      rw [← hkeys]
      exact List.mem_map_of_mem he
    rw [bne_iff_ne]
    rintro rfl
    exact hmem hkey

/-- **Resources are local.** If two documents have the same contexts for a resource, in whatever
order, and the ids that these prefer are all different, then the resource is staged alike in both:
it has the same operations in the same order, or it is missing in both. -/
theorem lookup_resources_congr (h : stage given nodeColor document = .ok staged)
    (h' : stage given' nodeColor' document' = .ok staged') {resource : Text} {ids : List Text}
    (hcontexts : (contextsOn resource document).Perm (contextsOn resource document'))
    (hids : wantedIds (contextsOn resource document) = .ok ids) (hnodup : ids.Nodup) :
    staged.model.resources.lookup resource = staged'.model.resources.lookup resource := by
  obtain ⟨candidates, hcandidates, rfl⟩ := Outcome.map_eq_ok.1 hids
  rw [Outcome.mapM_eq_ok] at hcandidates
  rcases lookup_resources h resource with ⟨hnil, hnone⟩ | ⟨hne, ops, warnings, hops, hsome⟩
  · rw [hnil, List.nil_perm] at hcontexts
    rcases lookup_resources h' resource with ⟨-, hnone'⟩ | ⟨hne', -⟩
    · rw [hnone, hnone']
    · exact absurd hcontexts hne'
  · rcases lookup_resources h' resource with ⟨hnil', -⟩ | ⟨-, ops', warnings', hops', hsome'⟩
    · rw [hnil', List.perm_nil] at hcontexts
      exact absurd hcontexts hne
    · rw [hsome, hsome', stageResource_congr hcontexts hops hops' hcandidates hnodup]

/-- A shop with three operations on pets, two of which share a canonical id. -/
def northShop : Value :=
  .record [("paths", .record [
    ("/pets", .record [
      ("parameters", .list [.record [("name", .str "page"), ("in", .str "query")]]),
      ("get", .record [("tags", .list [.str "pets"]), ("operationId", .str "listPets")]),
      ("post", .record [("tags", .list [.str "pets", .str "orders"]),
        ("operationId", .str "addPet")])]),
    ("/pets/names", .record [
      ("get", .record [("tags", .list [.str "pets"]), ("operationId", .str "listPetNames")])])])]

/-- Another shop with the same operations on pets, written in another order and among others. -/
def southShop : Value :=
  .record [("paths", .record [
    ("/pets/names", .record [
      ("put", .record [("tags", .list [.str "names"]), ("operationId", .str "editNames")]),
      ("get", .record [("tags", .list [.str "pets"]), ("operationId", .str "listPetNames")])]),
    ("/stock", .record [("get", .record [])]),
    ("/pets", .record [
      ("post", .record [("tags", .list [.str "pets", .str "orders"]),
        ("operationId", .str "addPet")]),
      ("get", .record [("tags", .list [.str "pets"]), ("operationId", .str "listPets")]),
      ("parameters", .list [.record [("name", .str "page"), ("in", .str "query")]])])])]

theorem lookup_resources_congr_shops : ∃ staged staged' ids,
    stage none defaultNodeColor northShop = .ok staged ∧
      stage (some "South") defaultNodeColor southShop = .ok staged' ∧
      (contextsOn "pet" northShop).Perm (contextsOn "pet" southShop) ∧
      wantedIds (contextsOn "pet" northShop) = .ok ids ∧ ids.Nodup ∧
      staged.model.resources.lookup ("pet" : Text) =
        staged'.model.resources.lookup ("pet" : Text) := by
  obtain ⟨staged, h⟩ := isStageable_iff.1
    (by decide +kernel : isStageable none defaultNodeColor northShop = true)
  obtain ⟨staged', h'⟩ := isStageable_iff.1
    (by decide +kernel : isStageable (some "South") defaultNodeColor southShop = true)
  have hreversed : contextsOn "pet" southShop = (contextsOn "pet" northShop).reverse := by rfl
  have hcontexts : (contextsOn "pet" northShop).Perm (contextsOn "pet" southShop) := by
    rw [hreversed]
    exact (List.reverse_perm _).symm
  have hids : wantedIds (contextsOn "pet" northShop) =
      .ok ["getAll", "create", "getAllNames"] := by
    decide +kernel
  have hnodup : (["getAll", "create", "getAllNames"] : List Text).Nodup := by decide
  exact ⟨staged, staged', _, h, h', hcontexts, hids, hnodup,
    lookup_resources_congr h h' hcontexts hids hnodup⟩

end NodeForge.OpenApi
