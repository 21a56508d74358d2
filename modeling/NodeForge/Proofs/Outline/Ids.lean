import NodeForge.Outline.Staging
import NodeForge.Proofs.Outcome

/-!
# The ids of a custom schema

A custom schema gives its operations their ids itself. Staging takes the ids of each resource over
as they are listed (`exists_ids_of_stageResource`): it sorts the operations by them, but leaves none
out and makes up none. So two operations of a resource have one id wherever the schema says so.
-/

namespace NodeForge.Outline

variable {enter : Value → Value}

/-! ### Listed ids -/

/-- Whether a listed operation has an id. -/
def HasId (enter : Value → Value) (operation : Value) (id : Text) : Prop :=
  ∃ fields v, enter operation = .map fields ∧ Fields.get? "operationId" fields = some v ∧
    Wire.checkText v = .good id

/-- Whether the operations that are listed under a resource have some ids, one by one. -/
def ListsIds (enter : Value → Value) (listed : Value) (ids : List Text) : Prop :=
  ∃ operations, (enter (listed.orElse (.list []))).members = .ok operations ∧
    List.Forall₂ (HasId enter) operations ids

/-! ### Staging -/

theorem mainKey_eq_ok {resource : Scalar} {operation v : Value} {key : Text} :
    mainKey resource operation key = .ok v ↔
      ∃ fields, operation = .map fields ∧ Fields.get? key fields = some v := by
  unfold mainKey
  cases operation with
  | map fields => cases h : Fields.get? key fields <;> simp [h]
  | _ => simp

/-- A staged operation has the id that it was listed with. -/
theorem hasId_of_stageOperation {resource : Scalar} {operation : Value} {o : Operation}
    (h : stageOperation enter resource operation = .ok o) :
    HasId enter operation o.operationId := by
  unfold stageOperation at h
  dsimp only at h
  -- every step has to succeed, but only the one that takes the id matters
  obtain ⟨endpoint, -, h⟩ := Outcome.bind_eq_ok.1 h
  obtain ⟨methodValue, -, h⟩ := Outcome.bind_eq_ok.1 h
  obtain ⟨method, -, h⟩ := Outcome.bind_eq_ok.1 h
  obtain ⟨id, hid, h⟩ := Outcome.bind_eq_ok.1 h
  obtain ⟨fields, -, h⟩ := Outcome.bind_eq_ok.1 h
  obtain ⟨endpointText, -, h⟩ := Outcome.bind_eq_ok.1 h
  obtain ⟨path, -, h⟩ := Outcome.bind_eq_ok.1 h
  obtain ⟨mandatoryQuery, -, h⟩ := Outcome.bind_eq_ok.1 h
  obtain ⟨filterGroup, -, h⟩ := Outcome.bind_eq_ok.1 h
  obtain ⟨standard, -, h⟩ := Outcome.bind_eq_ok.1 h
  obtain ⟨additionalBody, -, h⟩ := Outcome.bind_eq_ok.1 h
  obtain ⟨filtersBody, -, h⟩ := Outcome.bind_eq_ok.1 h
  obtain ⟨updatesBody, -, h⟩ := Outcome.bind_eq_ok.1 h
  obtain ⟨description, -, h⟩ := Outcome.bind_eq_ok.1 h
  obtain ⟨additionalFields, -, h⟩ := Outcome.bind_eq_ok.1 h
  obtain ⟨updateFields, -, h⟩ := Outcome.bind_eq_ok.1 h
  -- of the checked fields the id is the second one
  rw [Outcome.toExcept_eq_ok, Outcome.seq_eq_good] at h
  obtain ⟨withId, url, h, -, ho⟩ := h
  obtain ⟨build, checked, hbuild, hchecked, hwithId⟩ := Outcome.seq_eq_good.1 h
  obtain ⟨endpointChecked, -, hbuilt⟩ := Outcome.map_eq_good.1 hbuild
  rw [Outcome.under_eq_good] at hchecked
  obtain ⟨entries, hentries, hget⟩ := mainKey_eq_ok.1 hid
  rw [← ho, ← hwithId, ← hbuilt]
  exact ⟨entries, id, hentries, hget, hchecked⟩

/-- The check of an operation changes nothing about how it is staged. -/
theorem stageOperation_of_stageListed {check : Bool} {resource : Scalar} {operation : Value}
    {o : Operation} (h : stageListed enter check resource operation = .ok o) :
    stageOperation enter resource operation = .ok o := by
  unfold stageListed at h
  split at h
  · obtain ⟨_, -, h⟩ := Outcome.bind_eq_ok.1 h
    exact h
  · exact h

/-- The operations of a staged resource have the ids that were listed. -/
theorem exists_ids_of_stageResource {check : Bool} {resource : Scalar} {listed : Value}
    {operations : List Operation}
    (h : stageResource enter check resource listed = .ok operations) :
    ∃ ids, ListsIds enter listed ids ∧ (operations.map Operation.operationId).Perm ids := by
  obtain ⟨members, hmembers, h⟩ := Outcome.bind_eq_ok.1 h
  obtain ⟨staged, hstaged, h⟩ := Outcome.bind_eq_ok.1 h
  rw [Outcome.pure_eq_ok] at h
  rw [Outcome.lift_eq_ok] at hmembers
  refine ⟨staged.map Operation.operationId, ⟨members, hmembers, ?_⟩, ?_⟩
  · rw [List.forall₂_map_right_iff]
    exact (Outcome.mapM_eq_ok.1 hstaged).imp fun _ _ ho =>
      hasId_of_stageOperation (stageOperation_of_stageListed ho)
  · rw [← h]
    exact (List.mergeSort_perm ..).map _

/-- Members that are checked together are good one by one. -/
theorem forall₂_of_all_good {α β : Type} {check : α → Checked β} {as : List α} {bs : List β}
    (h : Checked.all check as = .good bs) : List.Forall₂ (fun a b => check a = .good b) as bs := by
  induction as generalizing bs with
  | nil =>
    cases h
    exact .nil
  | cons a rest ih =>
    obtain ⟨extend, bs', hextend, hrest, rfl⟩ := Outcome.seq_eq_good.1 h
    obtain ⟨b, hb, rfl⟩ := Outcome.map_eq_good.1 hextend
    exact .cons hb (ih hrest)

variable {check : Bool} {document : Value} {m : NodeModel}

/-- The resources of a staged schema are those that it lists, in order, each with what is staged of
the operations under it. -/
theorem resources_of_stage (h : stage enter check document = .ok m) :
    ∃ main listed sorted, (enter document).field "mainParams" = .ok main ∧
      enter main = .map listed ∧ sortedFields listed = .ok sorted ∧
      List.Forall₂ (fun e r => Wire.checkKey e.1 = .good r.1 ∧
        stageResource enter check e.1 e.2 = .ok r.2) sorted m.resources := by
  obtain ⟨main, hmain, h⟩ := Outcome.bind_eq_ok.1 h
  rw [Outcome.lift_eq_ok] at hmain
  cases hlisted : enter main with
  | map listed =>
    rw [hlisted] at h
    obtain ⟨sorted, hsorted, h⟩ := Outcome.bind_eq_ok.1 h
    obtain ⟨staged, hstaged, h⟩ := Outcome.bind_eq_ok.1 h
    obtain ⟨description, -, h⟩ := Outcome.bind_eq_ok.1 h
    obtain ⟨service, -, h⟩ := Outcome.bind_eq_ok.1 h
    rw [Outcome.lift_eq_ok] at hsorted
    rw [Outcome.toExcept_eq_ok, Outcome.map_eq_good] at h
    obtain ⟨resources, hresources, rfl⟩ := h
    rw [checkResources, Outcome.under_eq_good] at hresources
    refine ⟨main, listed, sorted, hmain, hlisted, hsorted, ?_⟩
    refine Outcome.forall₂_comp (fun e row r hrow hr => ?_) (Outcome.mapM_eq_ok.1 hstaged)
      (forall₂_of_all_good hresources)
    obtain ⟨operations, hoperations, hrow⟩ := Outcome.bind_eq_ok.1 hrow
    rw [Outcome.pure_eq_ok] at hrow
    obtain ⟨name, hname, hr⟩ := Outcome.map_eq_good.1 hr
    rw [← hrow] at hname hr
    rw [← hr]
    exact ⟨hname, hoperations⟩
  | _ =>
    rw [hlisted] at h
    exact absurd h Outcome.failSpec_ne_ok

/-- **The ids of a custom schema.** With or without a check of its operations, each resource of a
staged schema has the ids that are listed under it, so they differ exactly if those do. -/
theorem ids_of_stage (h : stage enter check document = .ok m) :
    ∃ main listed sorted, (enter document).field "mainParams" = .ok main ∧
      enter main = .map listed ∧ sortedFields listed = .ok sorted ∧
      List.Forall₂ (fun e r => Wire.checkKey e.1 = .good r.1 ∧
        ∃ ids, ListsIds enter e.2 ids ∧ (r.2.map Operation.operationId).Perm ids ∧
          ((r.2.map Operation.operationId).Nodup ↔ ids.Nodup)) sorted m.resources := by
  obtain ⟨main, listed, sorted, hmain, hlisted, hsorted, hrows⟩ := resources_of_stage h
  refine ⟨main, listed, sorted, hmain, hlisted, hsorted, hrows.imp fun e r he => ?_⟩
  obtain ⟨hname, hoperations⟩ := he
  obtain ⟨ids, hids, hperm⟩ := exists_ids_of_stageResource hoperations
  exact ⟨hname, ids, hids, hperm, hperm.nodup_iff⟩

/-- An operation that goes by `add`. -/
def adding (endpoint : Text) : Value :=
  .record [("endpoint", .str endpoint), ("requestMethod", .str "POST"), ("operationId", .str "add")]

/-- Two operations with one id. -/
def twins : Value := .list [adding "/pets", adding "/dogs"]

/-- A schema that lists them under its only resource. -/
def twinSchema : Value :=
  .record [("metaParams", .record [("serviceName", .str "Shop")]),
    ("mainParams", .record [("pet", twins)])]

theorem ids_twinSchema : ∃ m, stage id true twinSchema = .ok m ∧
    ∀ r ∈ m.resources, ∃ listed ids, ListsIds id listed ids ∧
      (r.2.map Operation.operationId).Perm ids := by
  obtain ⟨m, h⟩ := Outcome.isOk_iff.1 (by decide +kernel : (stage id true twinSchema).isOk = true)
  obtain ⟨_, _, _, -, -, -, hrows⟩ := ids_of_stage h
  refine ⟨m, h, fun r hr => ?_⟩
  obtain ⟨e, -, -, ids, hids, hperm, -⟩ := Outcome.exists_left_of_mem hrows hr
  exact ⟨e.2, ids, hids, hperm⟩

theorem HasId.eq_of_adding {endpoint i : Text} (h : HasId id (adding endpoint) i) : i = "add" := by
  obtain ⟨fields, v, hfields, hv, hgood⟩ := h
  rw [id, adding, Value.record, Value.map.injEq] at hfields
  rw [← hfields] at hv
  rw [← Option.some.inj hv] at hgood
  cases hgood
  rfl

theorem ListsIds.eq_of_twins {ids : List Text} (h : ListsIds id twins ids) :
    ids = (["add", "add"] : List Text) := by
  obtain ⟨operations, hoperations, h⟩ := h
  rw [← Except.ok.inj hoperations] at h
  obtain ⟨first, rest, hfirst, hrest, rfl⟩ := List.forall₂_cons_left_iff.1 h
  obtain ⟨second, none, hsecond, hnone, rfl⟩ := List.forall₂_cons_left_iff.1 hrest
  rw [hfirst.eq_of_adding, hsecond.eq_of_adding, List.forall₂_nil_left_iff.1 hnone]

theorem exists_stage_twinSchema (check : Bool) : ∃ m, stage id check twinSchema = .ok m ∧
    ¬ ∀ r ∈ m.resources, (r.2.map Operation.operationId).Nodup := by
  obtain ⟨m, h⟩ := Outcome.isOk_iff.1
    (by cases check <;> decide +kernel : (stage id check twinSchema).isOk = true)
  obtain ⟨main, listed, sorted, hmain, hlisted, hsorted, hrows⟩ := resources_of_stage h
  have hmain' : main = .map [(.str "pet", twins)] := Except.ok.inj (hmain.symm.trans rfl)
  rw [hmain', id, Value.map.injEq] at hlisted
  have hsorted' : sortedFields [(.str "pet", twins)] = .ok [(.str "pet", twins)] := by
    have hsortable : Scalar.sortable (Entries.keys [(Scalar.str "pet", twins)]) = true := by decide
    have hsomewhere : (Scalar.str "pet").isNowhere = false := by decide
    rw [sortedFields, if_pos hsortable, Fields.sorted, List.any_cons, hsomewhere]
    simp
  rw [← hlisted, hsorted', Except.ok.injEq] at hsorted
  rw [← hsorted] at hrows
  obtain ⟨r, rest, hr, -, hresources⟩ := List.forall₂_cons_left_iff.1 hrows
  obtain ⟨ids, hids, hperm⟩ := exists_ids_of_stageResource hr.2
  refine ⟨m, h, fun hnodup => ?_⟩
  have hids' := (hperm.nodup_iff).1 (hnodup r (by rw [hresources]; exact List.mem_cons_self))
  rw [hids.eq_of_twins] at hids'
  exact absurd hids' (by decide)

theorem not_nodup_ids_twinSchema :
    (∃ m, stage id false twinSchema = .ok m ∧
      ¬ ∀ r ∈ m.resources, (r.2.map Operation.operationId).Nodup) ∧
    ∃ m, stage id true twinSchema = .ok m ∧
      ¬ ∀ r ∈ m.resources, (r.2.map Operation.operationId).Nodup :=
  ⟨exists_stage_twinSchema false, exists_stage_twinSchema true⟩

end NodeForge.Outline
