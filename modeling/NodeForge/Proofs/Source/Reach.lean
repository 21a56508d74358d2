import NodeForge.Proofs.Naming.Stems
import NodeForge.Proofs.OpenApi.Lookup
import NodeForge.Proofs.Source.Fields
import NodeForge.Source.Files

/-!
# What the dispatch reaches

A staged document has no resource twice, and no resource has an id twice. The generated code knows
them by folded names: the branches of the dispatch by camel case, the description files by Pascal
case. Names with the same stems fold together, and then the code is made for one of them only: the
dispatch leads to the first one in its chain (`exists_dispatched_iff`), and the description file is
that of the last one (`lookup_description`).
-/

namespace NodeForge.Source

/-! ### Where the dispatch leads -/

/-- Whether a branch is taken where the variable of its chain has a value. -/
def Fragment.isTaken (f : Fragment) (subject : Subject) (value : Text) : Bool :=
  decide (f.tested = some (subject, value))

/-- The resource and the operation that the dispatch leads to: in either chain by the first branch
that is taken. -/
def dispatched (resources : List (Text × List Operation)) (resource operation : Text) :
    Option (Text × Operation) := do
  let r ← resources.find? fun r =>
    (resourceBranch (Entries.keys resources) r.1).isTaken .resource resource
  let o ← r.2.find? fun o => (operationBranch r.2 o).isTaken .operation operation
  return (r.1, o)

theorem isTaken_resourceBranch (names : List Text) (name value : Text) :
    (resourceBranch names name).isTaken .resource value = true ↔ literal name = value := by
  simp [Fragment.isTaken, Fragment.tested, resourceBranch]

theorem isTaken_operationBranch (operations : List Operation) (o : Operation) (value : Text) :
    (operationBranch operations o).isTaken .operation value = true ↔
      literal o.operationId = value := by
  simp [Fragment.isTaken, Fragment.tested, operationBranch]

/-- Names that fold together have the same stems. -/
theorem literal_eq_iff {a b : Text} : literal a = literal b ↔ Naming.stems a = Naming.stems b :=
  Naming.camel_eq_iff

section Rows

variable {α : Type} {row before behind : List α} {a : α}

/-- In a row of increasing keys no member stands before itself. -/
theorem not_mem_before {key : α → Text} (h : row.Pairwise fun a b => (key a).Precedes (key b))
    (hrow : row = before ++ a :: behind) : a ∉ before := by
  intro hbefore
  rw [hrow, List.pairwise_append] at h
  exact (h.2.2 a hbefore a List.mem_cons_self).ne rfl

/-- The first member with a label is the one at a place if it has the label and none before it
does. -/
theorem find?_label_iff {test : α → Bool} {label : α → Text} {value : Text}
    (htest : ∀ b, test b = true ↔ label b = value) (hrow : row = before ++ a :: behind)
    (hnew : a ∉ before) :
    row.find? test = some a ↔ label a = value ∧ ∀ b ∈ before, label b ≠ value := by
  rw [hrow]
  constructor
  · intro h
    refine ⟨(htest a).1 (List.find?_some h), fun b hb hlabel => ?_⟩
    rw [List.find?_append] at h
    cases hfound : before.find? test with
    | some c =>
      -- what is found before the member would be the member itself
      rw [hfound, Option.some_or, Option.some.injEq] at h
      exact hnew (h ▸ List.mem_of_find?_eq_some hfound)
    | none => exact List.find?_eq_none.1 hfound b hb ((htest b).2 hlabel)
  · rintro ⟨ha, hbefore⟩
    refine List.find?_eq_some_iff_append.2 ⟨(htest a).2 ha, before, behind, rfl, fun b hb => ?_⟩
    have hmiss : ¬ test b = true := fun htaken => hbefore b hb ((htest b).1 htaken)
    simpa using hmiss

end Rows

variable {m : NodeModel} {e : Text × List Operation} {o : Operation}

theorem eq_of_fst_eq (hm : m.InOrder) {r : Text × List Operation} (hr : r ∈ m.resources)
    (he : e ∈ m.resources) (h : r.1 = e.1) : r = e := by
  have hnames : (m.resources.map Prod.fst).Nodup := hm.resources.imp Text.Precedes.ne
  exact List.inj_on_of_nodup_map hnames hr he h

variable {before behind : List (Text × List Operation)} {first rest : List Operation}

/-- In a model in order the dispatch leads to an operation by the literals of its resource and its
id, if no branch before takes them. -/
theorem dispatched_eq_some_iff (hm : m.InOrder) (hresources : m.resources = before ++ e :: behind)
    (hoperations : e.2 = first ++ o :: rest) {resource operation : Text} :
    dispatched m.resources resource operation = some (e.1, o) ↔
      (literal e.1 = resource ∧ ∀ r ∈ before, literal r.1 ≠ resource) ∧
        literal o.operationId = operation ∧ ∀ p ∈ first, literal p.operationId ≠ operation := by
  have he : e ∈ m.resources := by simp [hresources]
  have hresource := find?_label_iff
    (fun r => isTaken_resourceBranch (Entries.keys m.resources) r.1 resource) hresources
    (not_mem_before (List.pairwise_map.1 hm.resources) hresources)
  have hoperation := find?_label_iff (fun p => isTaken_operationBranch e.2 p operation)
    hoperations (not_mem_before (hm.ids e he) hoperations)
  rw [← hresource, ← hoperation, dispatched]
  simp only [Option.bind_eq_bind, Option.bind_eq_some_iff, Option.pure_def, Option.some.injEq,
    Prod.mk.injEq]
  constructor
  · rintro ⟨r, hr, p, hp, hname, rfl⟩
    have hsame : r = e := eq_of_fst_eq hm (List.mem_of_find?_eq_some hr) he hname
    rw [hsame] at hr hp
    exact ⟨hr, hp⟩
  · rintro ⟨hr, hp⟩
    exact ⟨e, hr, o, hp, rfl, rfl⟩

/-- **Where the dispatch leads.** In a model in order some values of the variables lead to an
operation exactly if no resource before its own folds to the name of its own, and no operation
before it on its resource folds to its id. -/
theorem exists_dispatched_iff (hm : m.InOrder) (hresources : m.resources = before ++ e :: behind)
    (hoperations : e.2 = first ++ o :: rest) :
    (∃ resource operation, dispatched m.resources resource operation = some (e.1, o)) ↔
      (∀ r ∈ before, Naming.stems r.1 ≠ Naming.stems e.1) ∧
        ∀ p ∈ first, Naming.stems p.operationId ≠ Naming.stems o.operationId := by
  simp only [dispatched_eq_some_iff hm hresources hoperations, ← literal_eq_iff.not, ne_eq]
  constructor
  · rintro ⟨_, _, ⟨rfl, hbefore⟩, rfl, hfirst⟩
    exact ⟨hbefore, hfirst⟩
  · rintro ⟨hbefore, hfirst⟩
    exact ⟨_, _, ⟨rfl, hbefore⟩, rfl, hfirst⟩

/-! ### Files -/

/-- What is made of a result in one more step is there if the result is. -/
theorem exists_bind_pure_eq_ok {ε α β : Type} {x : Except ε α} {f : α → β} :
    (∃ b, (x >>= fun a => pure (f a)) = .ok b) ↔ ∃ a, x = .ok a := by
  cases x with
  | error e => simp [bind, Except.bind]
  | ok a => simp [bind, Except.bind, pure, Except.pure]

theorem exists_dispatchLines_iff {helper : Text} {withErrors : Bool}
    {resources : List (Text × List Operation)} :
    (∃ lines, dispatchLines helper withErrors resources = .ok lines) ↔
      ∀ r ∈ resources, ∀ o ∈ r.2, ∃ lines, requestLines helper o = .ok lines := by
  rw [dispatchLines, exists_bind_pure_eq_ok, Outcome.exists_mapM_eq_ok]
  refine forall₂_congr fun r _ => ?_
  rw [resourcePart, exists_bind_pure_eq_ok, Outcome.exists_mapM_eq_ok]
  exact forall₂_congr fun o _ => exists_bind_pure_eq_ok

theorem exists_descriptionFile_iff {resource : Text} {operations : List Operation} :
    (∃ lines, descriptionFile resource operations = .ok lines) ↔
      ∀ o ∈ operations, ∃ lines, operationFieldLines resource o = .ok lines := by
  rw [descriptionFile, exists_bind_pure_eq_ok, Outcome.exists_mapM_eq_ok]

/-- The main files of a node. -/
def mainFiles (m : NodeModel) (dispatch : Lines) : List File :=
  [(Naming.pascal m.service.serviceName ++ ".imports.ts", fileText (importsFile m)),
    (Naming.pascal m.service.serviceName ++ ".execute.ts", fileText dispatch),
    ("descriptions/index.ts", fileText (indexFile m))]

/-- The description file of a resource with its path. -/
def describedIn (r : Text × List Operation) : Except Fault File := do
  return (descriptionPath r.1, fileText (← descriptionFile r.1 r.2))

theorem filesOf_eq_ok {files : List File} : filesOf m = .ok files ↔
    ∃ dispatch descriptions, dispatchLines (helperOf m.service) true m.resources = .ok dispatch ∧
      m.resources.mapM describedIn = .ok descriptions ∧
      files = Entries.ofList (mainFiles m dispatch ++ descriptions) := by
  constructor
  · intro h
    obtain ⟨dispatch, hdispatch, h⟩ := Outcome.bind_eq_ok.1 h
    obtain ⟨descriptions, hdescriptions, h⟩ := Outcome.bind_eq_ok.1 h
    rw [Outcome.pure_eq_ok] at h
    exact ⟨dispatch, descriptions, hdispatch, hdescriptions, h.symm⟩
  · rintro ⟨dispatch, descriptions, hdispatch, hdescriptions, rfl⟩
    exact Outcome.bind_eq_ok.2
      ⟨dispatch, hdispatch, Outcome.bind_eq_ok.2 ⟨descriptions, hdescriptions, rfl⟩⟩

/-- The files of a node can be made if the code and the fields of every operation can. -/
theorem exists_filesOf_iff :
    (∃ files, filesOf m = .ok files) ↔ ∀ r ∈ m.resources, ∀ o ∈ r.2,
      (∃ lines, requestLines (helperOf m.service) o = .ok lines) ∧
        ∃ lines, operationFieldLines r.1 o = .ok lines := by
  have hdescription (r : Text × List Operation) : (∃ file, describedIn r = .ok file) ↔
      ∀ o ∈ r.2, ∃ lines, operationFieldLines r.1 o = .ok lines := by
    rw [describedIn, exists_bind_pure_eq_ok, exists_descriptionFile_iff]
  have hparts : (∃ files, filesOf m = .ok files) ↔
      (∃ lines, dispatchLines (helperOf m.service) true m.resources = .ok lines) ∧
        ∃ descriptions, m.resources.mapM describedIn = .ok descriptions := by
    simp only [filesOf_eq_ok]
    constructor
    · rintro ⟨_, dispatch, descriptions, hdispatch, hdescriptions, -⟩
      exact ⟨⟨dispatch, hdispatch⟩, descriptions, hdescriptions⟩
    · rintro ⟨⟨dispatch, hdispatch⟩, descriptions, hdescriptions⟩
      exact ⟨_, dispatch, descriptions, hdispatch, hdescriptions, rfl⟩
  rw [hparts, exists_dispatchLines_iff, Outcome.exists_mapM_eq_ok]
  simp only [hdescription, forall_and]

/-! ### Paths -/

theorem ne_of_suffix {a b s t : Text} (hs : s <:+ a) (ht : t <:+ b) (hlength : s.length = t.length)
    (hne : s ≠ t) : a ≠ b := by
  rintro rfl
  exact hne ((List.suffix_of_suffix_length_le hs ht hlength.le).eq_of_length hlength)

theorem descriptionPath_eq_iff {a b : Text} :
    descriptionPath a = descriptionPath b ↔ Naming.stems a = Naming.stems b := by
  rw [descriptionPath, descriptionPath, List.append_left_inj, List.append_right_inj,
    descriptionModule, descriptionModule, List.append_left_inj, Naming.pascal_eq_iff]

/-- The last signs of the paths tell the main files from each other and from the descriptions. -/
theorem distinct_paths (dispatch : Lines) (names : List Text) :
    Entries.distinct (Entries.keys (mainFiles m dispatch) ++ names.map descriptionPath) =
      Entries.keys (mainFiles m dispatch) ++ Entries.distinct (names.map descriptionPath) := by
  have himports : Text.ofString "s.ts" <:+ Naming.pascal m.service.serviceName ++ ".imports.ts" :=
    (by decide : Text.ofString "s.ts" <:+ ".imports.ts").trans (List.suffix_append _ _)
  have hexecute : Text.ofString "e.ts" <:+ Naming.pascal m.service.serviceName ++ ".execute.ts" :=
    (by decide : Text.ofString "e.ts" <:+ ".execute.ts").trans (List.suffix_append _ _)
  have hindex : Text.ofString "x.ts" <:+ "descriptions/index.ts" := by decide
  have hdescription {path : Text} (hpath : path ∈ names.map descriptionPath) :
      Text.ofString "n.ts" <:+ path := by
    obtain ⟨name, -, rfl⟩ := List.mem_map.1 hpath
    refine ⟨"descriptions/" ++ Naming.pascal name ++ "Descriptio", ?_⟩
    simp [descriptionPath, descriptionModule, Text.ofString]
  have hfirst : Naming.pascal m.service.serviceName ++ ".imports.ts" ∉
      (Naming.pascal m.service.serviceName ++ ".execute.ts") :: "descriptions/index.ts" ::
        names.map descriptionPath := by
    rw [List.mem_cons, List.mem_cons, not_or, not_or]
    exact ⟨ne_of_suffix himports hexecute rfl (by decide),
      ne_of_suffix himports hindex rfl (by decide),
      fun hmem => ne_of_suffix himports (hdescription hmem) rfl (by decide) rfl⟩
  have hsecond : Naming.pascal m.service.serviceName ++ ".execute.ts" ∉
      ("descriptions/index.ts" : Text) :: names.map descriptionPath := by
    rw [List.mem_cons, not_or]
    exact ⟨ne_of_suffix hexecute hindex rfl (by decide),
      fun hmem => ne_of_suffix hexecute (hdescription hmem) rfl (by decide) rfl⟩
  have hthird : ("descriptions/index.ts" : Text) ∉ names.map descriptionPath := fun hmem =>
    ne_of_suffix hindex (hdescription hmem) rfl (by decide) rfl
  calc Entries.distinct (Entries.keys (mainFiles m dispatch) ++ names.map descriptionPath)
      = Entries.distinct ((Naming.pascal m.service.serviceName ++ ".imports.ts") ::
          (Naming.pascal m.service.serviceName ++ ".execute.ts") :: "descriptions/index.ts" ::
            names.map descriptionPath) := rfl
    _ = Entries.keys (mainFiles m dispatch) ++ Entries.distinct (names.map descriptionPath) := by
        rw [Entries.distinct_cons_of_not_mem hfirst, Entries.distinct_cons_of_not_mem hsecond,
          Entries.distinct_cons_of_not_mem hthird]
        rfl

/-- The paths of the descriptions are made of the names of the resources. -/
theorem keys_descriptions {resources : List (Text × List Operation)} {descriptions : List File}
    (h : List.Forall₂ (fun r file => describedIn r = .ok file) resources descriptions) :
    Entries.keys descriptions = (Entries.keys resources).map descriptionPath := by
  rw [Entries.keys, Entries.keys, List.map_map]
  refine (Outcome.map_eq_map_of_forall₂ (fun r file hfile => ?_) h).symm
  obtain ⟨lines, -, hfile⟩ := Outcome.bind_eq_ok.1 hfile
  rw [Outcome.pure_eq_ok] at hfile
  rw [← hfile]
  rfl

variable {files : List File}

/-- There are three main files and one description file for all resources with the same stems. -/
theorem length_filesOf (h : filesOf m = .ok files) : files.length =
    3 + (Entries.distinct (m.resources.map fun r => Naming.stems r.1)).length := by
  obtain ⟨dispatch, descriptions, -, hdescriptions, rfl⟩ := filesOf_eq_ok.1 h
  have hkeys : Entries.keys (Entries.ofList (mainFiles m dispatch ++ descriptions)) =
      Entries.keys (mainFiles m dispatch) ++
        Entries.distinct ((Entries.keys m.resources).map descriptionPath) := by
    rw [Entries.keys_ofList, Entries.keys, List.map_append, ← Entries.keys, ← Entries.keys,
      keys_descriptions (Outcome.mapM_eq_ok.1 hdescriptions), distinct_paths]
  have hnames : (Entries.keys m.resources).map descriptionPath =
      m.resources.map fun r => descriptionPath r.1 := List.map_map
  have hcount : (Entries.distinct (m.resources.map fun r => descriptionPath r.1)).length =
      (Entries.distinct (m.resources.map fun r => Naming.stems r.1)).length :=
    Entries.length_distinct_map_congr (fun _ _ => descriptionPath_eq_iff) m.resources
  have hlength := congrArg List.length hkeys
  rw [Entries.keys, List.length_map, List.length_append, hnames, hcount] at hlength
  exact hlength

/-- Each resource has a file of its own exactly if their stems differ. -/
theorem length_filesOf_eq_iff (h : filesOf m = .ok files) :
    files.length = 3 + m.resources.length ↔ (m.resources.map fun r => Naming.stems r.1).Nodup := by
  rw [length_filesOf h, Nat.add_left_cancel_iff, ← Entries.length_distinct_eq_iff, List.length_map]

/-- The description file of a resource is there if no later one folds to its name. -/
theorem lookup_description (h : filesOf m = .ok files)
    (hresources : m.resources = before ++ e :: behind)
    (hlast : ∀ r ∈ behind, Naming.stems r.1 ≠ Naming.stems e.1) :
    ∃ lines, descriptionFile e.1 e.2 = .ok lines ∧
      files.lookup (descriptionPath e.1) = some (fileText lines) := by
  obtain ⟨dispatch, descriptions, -, hdescriptions, rfl⟩ := filesOf_eq_ok.1 h
  rw [Outcome.mapM_eq_ok, hresources] at hdescriptions
  obtain ⟨early, others, rfl, -, hothers⟩ := Outcome.forall₂_append_left hdescriptions
  obtain ⟨file, late, hfile, hlate, rfl⟩ := List.forall₂_cons_left_iff.1 hothers
  obtain ⟨lines, hlines, hfile⟩ := Outcome.bind_eq_ok.1 hfile
  rw [Outcome.pure_eq_ok] at hfile
  refine ⟨lines, hlines, ?_⟩
  have hnone : late.reverse.lookup (descriptionPath e.1) = none := by
    rw [List.lookup_eq_none_iff]
    intro other hother
    have hkey : other.1 ∈ Entries.keys late := List.mem_map_of_mem (List.mem_reverse.1 hother)
    rw [keys_descriptions hlate] at hkey
    obtain ⟨name, hname, hpath⟩ := List.mem_map.1 hkey
    obtain ⟨r, hr, rfl⟩ := List.mem_map.1 hname
    rw [← hpath, bne_iff_ne, ne_eq, descriptionPath_eq_iff]
    exact fun heq => hlast r hr heq.symm
  rw [Entries.lookup_ofList, List.reverse_append, List.reverse_append, List.reverse_cons,
    List.append_assoc, List.append_assoc, List.lookup_append, hnone, Option.none_or, ← hfile]
  simp

/-! ### Staged documents -/

/-- Members have different labels in two ways at once where both ways tell the same ones apart. -/
theorem nodup_map_iff {α β γ : Type} {f : α → β} {g : α → γ} (h : ∀ a b, f a = f b ↔ g a = g b)
    (row : List α) : (row.map f).Nodup ↔ (row.map g).Nodup := by
  rw [List.Nodup, List.Nodup, List.pairwise_map, List.pairwise_map]
  simp only [ne_eq, h]

/-- What the generated code of a model reaches. Names are told apart by their stems alone. -/
structure Reaches (m : NodeModel) : Prop where
  resources_apart : (m.resources.map fun r => literal r.1).Nodup ↔
    (m.resources.map fun r => Naming.stems r.1).Nodup
  operations_apart : ∀ r ∈ m.resources, (r.2.map fun o => literal o.operationId).Nodup ↔
    (r.2.map fun o => Naming.stems o.operationId).Nodup
  /-- The dispatch leads to an operation unless an earlier name in either chain has the stems of its
  own. -/
  dispatched_iff : ∀ before e behind, m.resources = before ++ e :: behind →
    ∀ first o rest, e.2 = first ++ o :: rest →
    ((∃ resource operation, dispatched m.resources resource operation = some (e.1, o)) ↔
      (∀ r ∈ before, Naming.stems r.1 ≠ Naming.stems e.1) ∧
        ∀ p ∈ first, Naming.stems p.operationId ≠ Naming.stems o.operationId)
  /-- There are files if the code and the fields of every operation can be made. -/
  exists_files_iff : (∃ files, filesOf m = .ok files) ↔ ∀ r ∈ m.resources, ∀ o ∈ r.2,
    (∃ lines, requestLines (helperOf m.service) o = .ok lines) ∧
      ∃ lines, operationFieldLines r.1 o = .ok lines
  /-- Beside three main files there is one file for all resources with the same stems, so each
  resource has its own exactly if their stems differ. -/
  length_files : ∀ files, filesOf m = .ok files →
    files.length = 3 + (Entries.distinct (m.resources.map fun r => Naming.stems r.1)).length ∧
      (files.length = 3 + m.resources.length ↔
        (m.resources.map fun r => Naming.stems r.1).Nodup)
  /-- The file for resources with the same stems is that of the last one of them. -/
  lookup_files : ∀ files, filesOf m = .ok files →
    ∀ before e behind, m.resources = before ++ e :: behind →
    (∀ r ∈ behind, Naming.stems r.1 ≠ Naming.stems e.1) →
    ∃ lines, descriptionFile e.1 e.2 = .ok lines ∧
      files.lookup (descriptionPath e.1) = some (fileText lines)

variable {given : Option Text} {nodeColor : Text} {document : Value} {staged : Staged}

/-- **What is reached of a staged document.** The literals of its resources and operations differ
exactly if their stems do, and of names with the same stems the dispatch leads to the first one
alone, while the description file is that of the last one alone. -/
theorem reaches_of_stage (h : OpenApi.stage given nodeColor document = .ok staged) :
    Reaches staged.model where
  resources_apart := nodup_map_iff (fun _ _ => literal_eq_iff) _
  operations_apart _ _ := nodup_map_iff (fun _ _ => literal_eq_iff) _
  dispatched_iff _ _ _ hresources _ _ _ hoperations :=
    exists_dispatched_iff (OpenApi.inOrder_of_stage h) hresources hoperations
  exists_files_iff := exists_filesOf_iff
  length_files _ hfiles := ⟨length_filesOf hfiles, length_filesOf_eq_iff hfiles⟩
  lookup_files _ hfiles _ _ _ hresources hlast := lookup_description hfiles hresources hlast

/-- A shop with two tags that only a mark tells apart. -/
def foldedShop : Value :=
  .record [("openapi", .str "3.0.0"), ("info", .record [("title", .str "Shop"),
    ("version", .str "1")]), ("paths", .record [
    ("/orders", .record [("get", .record [("tags", .list [.str "order-item"]),
      ("operationId", .str "find"), ("responses", .record [])])]),
    ("/lines", .record [("get", .record [("tags", .list [.str "order item"]),
      ("operationId", .str "count"), ("responses", .record [])])])])]

theorem reaches_foldedShop : ∃ staged,
    OpenApi.stage none defaultNodeColor foldedShop = .ok staged ∧ Reaches staged.model := by
  obtain ⟨staged, h⟩ := OpenApi.isStageable_iff.1
    (by decide +kernel : OpenApi.isStageable none defaultNodeColor foldedShop = true)
  exact ⟨staged, h, reaches_of_stage h⟩

theorem not_nodup_literals_foldedShop : ∃ staged,
    OpenApi.stage none defaultNodeColor foldedShop = .ok staged ∧
    ¬ (staged.model.resources.map fun r => literal r.1).Nodup ∧
    ∀ files, filesOf staged.model = .ok files →
      files.length ≠ 3 + staged.model.resources.length := by
  obtain ⟨staged, h⟩ := OpenApi.isStageable_iff.1
    (by decide +kernel : OpenApi.isStageable none defaultNodeColor foldedShop = true)
  have hmentioned : Entries.distinct ((OpenApi.mentions foldedShop).flatMap
      OpenApi.Mention.resources) = (["order-item", "order item"] : List Text) := by decide +kernel
  have hnames : (staged.model.resources.map Prod.fst).Perm
      (["order-item", "order item"] : List Text) := by
    rw [OpenApi.map_fst_resources h, OpenApi.mentionedResources, hmentioned]
    exact List.mergeSort_perm ..
  -- both names have the stems `order` and `item`
  have hstems : ¬ (staged.model.resources.map fun r => Naming.stems r.1).Nodup := by
    have hperm := (hnames.map Naming.stems).nodup_iff
    rw [List.map_map] at hperm
    exact fun hnodup => absurd (hperm.1 hnodup) (by decide)
  refine ⟨staged, h, ?_, fun files hfiles => ?_⟩
  · rwa [nodup_map_iff fun _ _ => literal_eq_iff]
  · rwa [ne_eq, length_filesOf_eq_iff hfiles]

end NodeForge.Source
