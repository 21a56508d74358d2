import NodeForge.Proofs.Naming.Stems
import NodeForge.Proofs.Node.Sameness
import NodeForge.Proofs.OpenApi.Lookup
import NodeForge.Proofs.Text.Braces
import NodeForge.Source.Dispatch

/-!
# The chains of the dispatch

The branches and ends of a dispatch are written one by one, and each of them finds out from the row
of its resources or operations whether it is the first or the last one. `chain` is what they are
meant to make together: one branch that opens the chain, further ones, and one end. Where no two
operations of a resource are the same, the fragments of a dispatch are a chain of resources with a
chain of operations in each (`dispatchFragments_eq`), and their braces are in balance.
-/

namespace NodeForge.Source

/-! ### Fragments -/

/-- The fragments for the operations of a resource. -/
def operationFragments (withErrors : Bool) (operations : List Operation) : List Fragment :=
  operations.flatMap fun o =>
    operationBranch operations o :: (operationEnd? operations withErrors o).toList

/-- The fragments of a dispatch in the order in which they are written. -/
def dispatchFragments (withErrors : Bool) (resources : List (Text × List Operation)) :
    List Fragment :=
  let names := Entries.keys resources
  resources.flatMap fun r =>
    resourceBranch names r.1 :: operationFragments withErrors r.2 ++
      (resourceEnd? names withErrors r.1).toList

/-- A piece of a written dispatch. -/
inductive Piece where
  | gap
  | resourceDivider (resource : Text)
  | operationDivider (resource : Text) (o : Operation)
  | fragment (f : Fragment)
  /-- The code that runs an operation. -/
  | request (o : Operation) (lines : Lines)

/-- A piece as lines of code. -/
def Piece.lines : Piece → Lines
  | .gap => [[]]
  | .resourceDivider resource => (Divider.ofResource resource).lines
  | .operationDivider resource o =>
    indented 1 (operationHeading resource o.operationId o.operationUrl)
  | .fragment f => f.lines
  | .request _ lines => indented 2 lines

/-- The fragment that a piece is. -/
def Piece.fragment? : Piece → Option Fragment
  | .fragment f => some f
  | _ => none

/-- Whether lines consist of some fragments, with gaps, dividers and the code of operations between
them. -/
def IsWritten (helper : Text) (lines : Lines) (fragments : List Fragment) : Prop :=
  ∃ pieces : List Piece, lines = pieces.flatMap Piece.lines ∧
    pieces.filterMap Piece.fragment? = fragments ∧
    ∀ o request, .request o request ∈ pieces → requestLines helper o = .ok request

/-- A chain of branches: the first opens it, the others go on with it, and behind the last one it
ends. A branch is given by its literal and the fragments inside of it. -/
def chain (subject : Subject) (withError : Bool) : List (Text × List Fragment) → List Fragment
  | [] => []
  | first :: others =>
    .branch subject first.1 true :: first.2 ++
      others.flatMap (fun link => .branch subject link.1 false :: link.2) ++
      [.close subject withError]

/-! ### Places -/

section Places

variable {α : Type} {place : α → Nat} {row : List α}

/-- Whether the place of each member of a row is the one where it stands. -/
def Places (place : α → Nat) (row : List α) : Prop :=
  ∀ before a behind, row = before ++ a :: behind → place a = before.length

/-- A member is found where it stands if it is the same as itself and no earlier one is. -/
theorem places_findIdx {same : α → α → Bool} (hself : ∀ a ∈ row, same a a = true)
    (hapart : row.Pairwise fun a b => same a b = false) :
    Places (fun a => row.findIdx fun b => same b a) row := by
  rintro before a behind rfl
  have hbefore : ∀ b ∈ before, same b a = false := fun b hb =>
    (List.pairwise_append.1 hapart).2.2 b hb a List.mem_cons_self
  have ha : same a a = true := hself a (by simp)
  dsimp only
  rw [List.findIdx_append, List.findIdx_eq_length.2 hbefore, if_neg (Nat.lt_irrefl _),
    List.findIdx_cons, ha, cond_true, Nat.zero_add]

variable {before behind : List α} {a : α}

theorem place_eq_zero_iff (h : Places place row) (hrow : row = before ++ a :: behind) :
    (place a == 0) = before.isEmpty := by
  rw [h before a behind hrow]
  cases before <;> rfl

theorem place_eq_last_iff (h : Places place row) (hrow : row = before ++ a :: behind) :
    place a + 1 = row.length ↔ behind = [] := by
  rw [h before a behind hrow, hrow, List.length_append, List.length_cons]
  cases behind <;> simp

variable (subject : Subject) (withError : Bool) (label : α → Text) (inside : α → List Fragment)

/-- The end of a chain behind a member of a row that stands at the last place. -/
def endAt? (place : α → Nat) (length : Nat) (a : α) : Option Fragment :=
  if place a + 1 = length then some (.close subject withError) else none

theorem endAt?_eq (h : Places place row) (hrow : row = before ++ a :: behind) :
    endAt? subject withError place row.length a =
      if behind = [] then some (.close subject withError) else none := by
  unfold endAt?
  simp only [place_eq_last_iff h hrow]

/-- The fragments that are written for a member of a row. -/
def fragmentsAt (place : α → Nat) (length : Nat) (a : α) : List Fragment :=
  .branch subject (label a) (place a == 0) :: inside a ++
    (endAt? subject withError place length a).toList

/-- Behind the first member of a row every branch goes on with the chain, and behind the last one
the chain ends. -/
theorem flatMap_fragmentsAt_behind (h : Places place row) (before behind : List α)
    (hbefore : before ≠ []) (hrow : row = before ++ behind) :
    behind.flatMap (fragmentsAt subject withError label inside place row.length) =
      behind.flatMap (fun a => .branch subject (label a) false :: inside a) ++
        if behind = [] then [] else [.close subject withError] := by
  induction behind generalizing before with
  | nil => rfl
  | cons a behind ih =>
    -- the member moves to those before, so what is left is never at the first place
    have hrest := ih (before ++ [a]) (by simp) (by simp [hrow])
    have hfirst : (place a == 0) = false := by
      rw [place_eq_zero_iff h hrow]
      simpa using hbefore
    rw [List.flatMap_cons, List.flatMap_cons, hrest, fragmentsAt, hfirst,
      endAt?_eq subject withError h hrow, if_neg (List.cons_ne_nil a behind)]
    by_cases hlast : behind = [] <;> simp [hlast]

/-- Where each member knows its place, the fragments of a row are a chain. -/
theorem flatMap_fragmentsAt (h : Places place row) :
    row.flatMap (fragmentsAt subject withError label inside place row.length) =
      chain subject withError (row.map fun a => (label a, inside a)) := by
  cases row with
  | nil => rfl
  | cons a behind =>
    have hrow : a :: behind = [] ++ a :: behind := rfl
    have hrest := flatMap_fragmentsAt_behind subject withError label inside h [a] behind (by simp)
      rfl
    rw [List.flatMap_cons, hrest, fragmentsAt, place_eq_zero_iff h hrow,
      endAt?_eq subject withError h hrow, List.map_cons, chain, List.flatMap_map]
    by_cases hlast : behind = [] <;> simp [hlast]

end Places

/-! ### The chains of a dispatch -/

section Chains

variable {operations : List Operation} {resources : List (Text × List Operation)}

/-- Whether no operation of a row is the same as an earlier one. -/
def Differ (operations : List Operation) : Prop :=
  operations.Pairwise fun a b => a.same b = false

instance : Decidable (Differ operations) :=
  inferInstanceAs (Decidable (operations.Pairwise fun a b => a.same b = false))

theorem places_operations (hsound : ∀ o ∈ operations, o.isSound = true)
    (hdiffer : Differ operations) : Places (operationPlace operations) operations :=
  places_findIdx (fun o ho => Operation.same_self (hsound o ho)) hdiffer

theorem places_resources (h : (Entries.keys resources).Nodup) :
    Places (fun r => resourcePlace (Entries.keys resources) r.1) resources := by
  have hnames : Places (resourcePlace (Entries.keys resources)) (Entries.keys resources) :=
    places_findIdx (fun name _ => beq_self_eq_true name) (h.imp beq_false_of_ne)
  rintro before r behind rfl
  have hplace := hnames (Entries.keys before) r.1 (Entries.keys behind) (List.map_append ..)
  rwa [Entries.keys, Entries.keys, List.length_map] at hplace

theorem operationFragments_eq (h : Places (operationPlace operations) operations)
    (withErrors : Bool) :
    operationFragments withErrors operations =
      chain .operation withErrors (operations.map fun o => (literal o.operationId, [])) :=
  flatMap_fragmentsAt .operation withErrors (fun o : Operation => literal o.operationId)
    (fun _ => []) h

/-- The chain of the resources, with the chain of its operations inside of each. -/
def dispatchChain (withErrors : Bool) (resources : List (Text × List Operation)) :
    List Fragment :=
  chain .resource withErrors <| resources.map fun r =>
    (literal r.1, chain .operation withErrors (r.2.map fun o => (literal o.operationId, [])))

theorem resourceEnd?_eq (withErrors : Bool) (r : Text × List Operation) :
    resourceEnd? (Entries.keys resources) withErrors r.1 =
      endAt? .resource withErrors (fun r => resourcePlace (Entries.keys resources) r.1)
        resources.length r := by
  rw [resourceEnd?, endAt?, Entries.keys, List.length_map]

/-- The fragments of a dispatch are the chain of the resources with the chains of their operations
inside. -/
theorem dispatchFragments_eq (hnames : (Entries.keys resources).Nodup)
    (hoperations : ∀ r ∈ resources, Places (operationPlace r.2) r.2) (withErrors : Bool) :
    dispatchFragments withErrors resources = dispatchChain withErrors resources := by
  have hresource : ∀ r ∈ resources,
      (resourceBranch (Entries.keys resources) r.1 :: operationFragments withErrors r.2 ++
        (resourceEnd? (Entries.keys resources) withErrors r.1).toList) =
      fragmentsAt .resource withErrors (fun r => literal r.1)
        (fun r => chain .operation withErrors (r.2.map fun o => (literal o.operationId, [])))
        (fun r => resourcePlace (Entries.keys resources) r.1) resources.length r := by
    intro r hr
    rw [operationFragments_eq (hoperations r hr), resourceEnd?_eq]
    rfl
  rw [dispatchFragments, List.flatMap_congr hresource]
  exact flatMap_fragmentsAt .resource withErrors _ _ (places_resources hnames)

end Chains

/-! ### Writing -/

section Writing

variable {helper : Text}

theorem IsWritten.append {lines lines' : Lines} {fragments fragments' : List Fragment}
    (h : IsWritten helper lines fragments) (h' : IsWritten helper lines' fragments') :
    IsWritten helper (lines ++ lines') (fragments ++ fragments') := by
  obtain ⟨pieces, rfl, rfl, hrequests⟩ := h
  obtain ⟨pieces', rfl, rfl, hrequests'⟩ := h'
  refine ⟨pieces ++ pieces', List.flatMap_append.symm, List.filterMap_append, ?_⟩
  intro o request hmem
  rcases List.mem_append.1 hmem with hmem | hmem
  · exact hrequests o request hmem
  · exact hrequests' o request hmem

/-- What is written for the members of a row one by one is written for the row. -/
theorem isWritten_flatten {α : Type} {row : List α} {parts : List Lines}
    {fragments : α → List Fragment}
    (h : List.Forall₂ (fun a lines => IsWritten helper lines (fragments a)) row parts) :
    IsWritten helper parts.flatten (row.flatMap fragments) := by
  induction h with
  | nil => exact ⟨[], rfl, rfl, nofun⟩
  | cons hfirst _ ih => exact hfirst.append ih

theorem isWritten_toList (end? : Option Fragment) :
    IsWritten helper (end?.toList.flatMap Fragment.lines) end?.toList := by
  refine ⟨end?.toList.map .fragment, ?_, ?_, by simp⟩
  · rw [List.flatMap_map]
    rfl
  · rw [List.filterMap_map]
    exact List.filterMap_some

theorem isWritten_operationPart {resource : Text} {operations : List Operation} {withErrors : Bool}
    {o : Operation} {lines : Lines}
    (h : operationPart helper resource operations withErrors o = .ok lines) :
    IsWritten helper lines
      (operationBranch operations o :: (operationEnd? operations withErrors o).toList) := by
  obtain ⟨request, hrequest, h⟩ := Outcome.bind_eq_ok.1 h
  rw [Outcome.pure_eq_ok] at h
  have hbefore : IsWritten helper
      ([[]] ++ indented 1 (operationHeading resource o.operationId o.operationUrl) ++ [[]] ++
        (operationBranch operations o).lines ++ indented 2 request)
      [operationBranch operations o] := by
    refine ⟨[.gap, .operationDivider resource o, .gap, .fragment (operationBranch operations o),
      .request o request], ?_, rfl, ?_⟩
    · simp [Piece.lines]
    · simpa using hrequest
  have hwritten := hbefore.append (isWritten_toList (operationEnd? operations withErrors o))
  rw [← h]
  simpa [code] using hwritten

theorem isWritten_resourcePart {names : List Text} {withErrors : Bool} {resource : Text}
    {operations : List Operation} {lines : Lines}
    (h : resourcePart helper names withErrors resource operations = .ok lines) :
    IsWritten helper lines
      (resourceBranch names resource :: operationFragments withErrors operations ++
        (resourceEnd? names withErrors resource).toList) := by
  obtain ⟨parts, hparts, h⟩ := Outcome.bind_eq_ok.1 h
  rw [Outcome.pure_eq_ok] at h
  have hbefore : IsWritten helper ((Divider.ofResource resource).lines ++ [[]] ++
      (resourceBranch names resource).lines) [resourceBranch names resource] := by
    refine ⟨[.resourceDivider resource, .gap, .fragment (resourceBranch names resource)], ?_, rfl,
      by simp⟩
    simp [Piece.lines]
  have hoperations : IsWritten helper parts.flatten (operationFragments withErrors operations) :=
    isWritten_flatten ((Outcome.mapM_eq_ok.1 hparts).imp fun _ _ => isWritten_operationPart)
  have hgap : IsWritten helper [[]] [] := ⟨[.gap], rfl, rfl, by simp⟩
  have hwritten := ((hbefore.append hoperations).append hgap).append
    (isWritten_toList (resourceEnd? names withErrors resource))
  rw [← h]
  simpa [code] using hwritten

/-- A dispatch is written by its fragments. -/
theorem isWritten_dispatchLines {withErrors : Bool} {resources : List (Text × List Operation)}
    {lines : Lines} (h : dispatchLines helper withErrors resources = .ok lines) :
    IsWritten helper lines (dispatchFragments withErrors resources) := by
  obtain ⟨parts, hparts, h⟩ := Outcome.bind_eq_ok.1 h
  rw [Outcome.pure_eq_ok] at h
  rw [← h]
  exact isWritten_flatten ((Outcome.mapM_eq_ok.1 hparts).imp fun _ _ => isWritten_resourcePart)

end Writing

/-! ### Braces -/

section Balance

open Braces

/-- The text of some fragments. -/
def textOf (fragments : List Fragment) : Text := (fragments.flatMap Fragment.lines).flatten

variable {a : Int}

/-- The literals of a dispatch have no braces. -/
theorem braceless_literal (name : Text) : IsBraceless (literal name) := by
  constructor
  · intro hmem
    exact absurd (Naming.isWordSign_of_mem_camel hmem) (by decide)
  · intro hmem
    exact absurd (Naming.isWordSign_of_mem_camel hmem) (by decide)

@[simp] theorem textOf_nil : textOf [] = [] := rfl

theorem textOf_append (f g : List Fragment) : textOf (f ++ g) = textOf f ++ textOf g := by
  rw [textOf, List.flatMap_append, List.flatten_append]
  rfl

theorem textOf_cons (f : Fragment) (g : List Fragment) :
    textOf (f :: g) = f.lines.flatten ++ textOf g := by
  rw [textOf, List.flatMap_cons, List.flatten_append]
  rfl

/-- What a branch tests, up to the brace that it opens. -/
theorem braceless_test (subject : Subject) {literal : Text} (h : IsBraceless literal) :
    IsBraceless ("if (" ++ Fragment.variableOf subject ++ " === '" ++ literal ++ "') ") := by
  have hvariable : IsBraceless (Fragment.variableOf subject) := by cases subject <;> decide
  have hfront := braceless_append (by decide : IsBraceless "if (") hvariable
  have hequals := braceless_append hfront (by decide : IsBraceless " === '")
  exact braceless_append (braceless_append hequals h) (by decide)

theorem braceless_indentOf (subject : Subject) : IsBraceless (Fragment.indentOf subject) := by
  cases subject <;> decide

/-- The branch that opens a chain leads one brace down. -/
theorem leads_first (subject : Subject) {literal : Text} (h : IsBraceless literal) (ha : 0 ≤ a) :
    Leads a (Fragment.branch subject literal true).lines.flatten (a + 1) := by
  have htext : (Fragment.branch subject literal true).lines.flatten =
      Fragment.indentOf subject ++
        ("if (" ++ Fragment.variableOf subject ++ " === '" ++ literal ++ "') ") ++ "\x7b" := by
    simp [Fragment.lines, Text.ofString]
  rw [htext]
  exact ((leads_of_braceless (braceless_indentOf subject) ha).append
    (leads_of_braceless (braceless_test subject h) ha)).append (leads_open ha)

/-- A further branch closes the one before it and opens its own. -/
theorem leads_further (subject : Subject) {literal : Text} (h : IsBraceless literal) (ha : 0 ≤ a) :
    Leads (a + 1) (Fragment.branch subject literal false).lines.flatten (a + 1) := by
  have htext : (Fragment.branch subject literal false).lines.flatten =
      Fragment.indentOf subject ++ "\x7d" ++ (" else " ++
        ("if (" ++ Fragment.variableOf subject ++ " === '" ++ literal ++ "') ")) ++ "\x7b" := by
    simp [Fragment.lines, Text.ofString]
  have htest := braceless_append (by decide : IsBraceless " else ") (braceless_test subject h)
  have hbehind : Leads (a + 1) (Fragment.indentOf subject) (a + 1) :=
    leads_of_braceless (braceless_indentOf subject) (by omega)
  rw [htext]
  exact ((hbehind.append (leads_close ha)).append (leads_of_braceless htest ha)).append
    (leads_open ha)

/-- The statement for what no branch is about closes what it opens. -/
theorem leads_unknownLine (subject : Subject) (ha : 0 ≤ a) :
    Leads a (Fragment.unknownLine subject) a := by
  have htext : Fragment.unknownLine subject =
      ("throw new Error(`Unknown " ++ Fragment.variableOf subject ++ ": $") ++ "\x7b" ++
        Fragment.variableOf subject ++ "\x7d" ++ "`);" := by
    cases subject <;> rfl
  have hvariable : IsBraceless (Fragment.variableOf subject) := by cases subject <;> decide
  have hfront :
      IsBraceless ("throw new Error(`Unknown " ++ Fragment.variableOf subject ++ ": $") := by
    cases subject <;> decide
  rw [htext]
  exact ((((leads_of_braceless hfront ha).append (leads_open ha)).append
    (leads_of_braceless hvariable (by omega))).append (leads_close ha)).append
    (leads_of_braceless (by decide) ha)

/-- The end of a chain leads one brace up. -/
theorem leads_end (subject : Subject) (withError : Bool) (ha : 0 ≤ a) :
    Leads (a + 1) (Fragment.close subject withError).lines.flatten a := by
  have hindent {b : Int} (hb : 0 ≤ b) : Leads b (Fragment.indentOf subject) b :=
    leads_of_braceless (braceless_indentOf subject) hb
  have hclose : Leads (a + 1) (Fragment.indentOf subject ++ "\x7d") a :=
    (hindent (by omega)).append (leads_close ha)
  cases withError with
  | false =>
    have htext : (Fragment.close subject false).lines.flatten =
        Fragment.indentOf subject ++ "\x7d" := by
      simp [Fragment.lines]
    rwa [htext]
  | true =>
    have htext : (Fragment.close subject true).lines.flatten =
        (Fragment.indentOf subject ++ "\x7d") ++ " else " ++ "\x7b" ++
          (Fragment.indentOf subject ++ "\t" ++ Fragment.unknownLine subject) ++
          (Fragment.indentOf subject ++ "\x7d") := by
      simp [Fragment.lines, Text.ofString]
    have hopen : Leads (a + 1) ((Fragment.indentOf subject ++ "\x7d") ++ " else " ++ "\x7b")
        (a + 1) :=
      (hclose.append (leads_of_braceless (by decide) ha)).append (leads_open ha)
    have hline : Leads (a + 1) (Fragment.indentOf subject ++ "\t" ++ Fragment.unknownLine subject)
        (a + 1) :=
      ((hindent (by omega)).append (leads_of_braceless (by decide) (by omega))).append
        (leads_unknownLine subject (by omega))
    rw [htext]
    exact (hopen.append hline).append hclose

/-- A chain whose branches lead back to where they begin does so itself. -/
theorem leads_chain (subject : Subject) (withError : Bool) {links : List (Text × List Fragment)}
    (ha : 0 ≤ a) (hliteral : ∀ link ∈ links, IsBraceless link.1)
    (hinside : ∀ link ∈ links, Leads (a + 1) (textOf link.2) (a + 1)) :
    Leads a (textOf (chain subject withError links)) a := by
  have hothers (others : List (Text × List Fragment)) (hsub : others ⊆ links) :
      Leads (a + 1)
        (textOf (others.flatMap fun link => .branch subject link.1 false :: link.2)) (a + 1) := by
    induction others with
    | nil => exact leads_nil (by omega)
    | cons link rest ih =>
      have hmem : link ∈ links := hsub List.mem_cons_self
      rw [List.flatMap_cons, textOf_append, textOf_cons]
      exact ((leads_further subject (hliteral link hmem) ha).append (hinside link hmem)).append
        (ih fun other hother => hsub (.tail _ hother))
  cases links with
  | nil => exact leads_nil ha
  | cons first others =>
    rw [chain, textOf_append, textOf_append, textOf_cons]
    have hend : Leads (a + 1) (textOf [.close subject withError]) a := by
      rw [textOf_cons, textOf_nil, List.append_nil]
      exact leads_end subject withError ha
    exact (((leads_first subject (hliteral first List.mem_cons_self) ha).append
      (hinside first List.mem_cons_self)).append
      (hothers others (List.subset_cons_self _ _))).append hend

/-- The braces of a dispatch are in balance. -/
theorem leads_dispatchChain (withErrors : Bool) (resources : List (Text × List Operation)) :
    Leads 0 (textOf (dispatchChain withErrors resources)) 0 := by
  refine leads_chain .resource withErrors (Int.le_refl 0) ?_ ?_
  · intro link hlink
    obtain ⟨r, -, rfl⟩ := List.mem_map.1 hlink
    exact braceless_literal r.1
  · intro link hlink
    obtain ⟨r, -, rfl⟩ := List.mem_map.1 hlink
    refine leads_chain .operation withErrors (by decide) ?_ ?_
    · intro inner hinner
      obtain ⟨o, -, rfl⟩ := List.mem_map.1 hinner
      exact braceless_literal o.operationId
    · intro inner hinner
      obtain ⟨o, -, rfl⟩ := List.mem_map.1 hinner
      exact leads_nil (by decide)

end Balance

/-! ### Dispatches -/

/-- Whether a dispatch over some resources is well formed: its fragments open, go on with and end
the chain of the resources and the chains of their operations where they should. -/
structure IsWellFormed (withErrors : Bool) (resources : List (Text × List Operation)) : Prop where
  /-- The dispatch is written by these fragments. -/
  written : ∀ helper lines, dispatchLines helper withErrors resources = .ok lines →
    IsWritten helper lines (dispatchFragments withErrors resources)
  /-- The branch of a resource opens the chain if the resource is the first one, and only the last
  one is followed by the end. -/
  resources_placed : ∀ before r behind, resources = before ++ r :: behind →
    resourceBranch (Entries.keys resources) r.1 =
      .branch .resource (literal r.1) before.isEmpty ∧
    resourceEnd? (Entries.keys resources) withErrors r.1 =
      if behind = [] then some (.close .resource withErrors) else none
  /-- The same for the operations of each resource. -/
  operations_placed : ∀ r ∈ resources, ∀ before o behind, r.2 = before ++ o :: behind →
    operationBranch r.2 o = .branch .operation (literal o.operationId) before.isEmpty ∧
    operationEnd? r.2 withErrors o =
      if behind = [] then some (.close .operation withErrors) else none
  /-- All fragments together are a chain of resources with a chain of operations in each. -/
  chains : dispatchFragments withErrors resources = dispatchChain withErrors resources
  /-- The braces of the fragments never close more than was opened, and all are closed at the
  end. -/
  balanced : Braces.Leads 0 (textOf (dispatchFragments withErrors resources)) 0

/-- The operations of a staged resource differ in their ids already. -/
theorem differ_of_stage {given : Option Text} {nodeColor : Text} {document : Value}
    {staged : Staged} (h : OpenApi.stage given nodeColor document = .ok staged)
    {r : Text × List Operation} (hr : r ∈ staged.model.resources) : Differ r.2 := by
  refine ((OpenApi.inOrder_of_stage h).ids r hr).imp fun hprecedes => ?_
  rw [← Bool.not_eq_true]
  intro hsame
  exact hprecedes.ne (Operation.operationId_eq_of_same hsame)

/-- **The chains of a dispatch.** Wherever no resource has an operation twice, with or without
errors for what no branch is about, the dispatch is well formed; and no resource of a staged
document has one twice. That operations are sound only says that their mappings are mappings, with
each key once. -/
theorem isWellFormed_of_differ {resources : List (Text × List Operation)}
    (hnames : (Entries.keys resources).Nodup)
    (hsound : ∀ r ∈ resources, ∀ o ∈ r.2, o.isSound = true)
    (hdiffer : ∀ r ∈ resources, Differ r.2) (withErrors : Bool) :
    IsWellFormed withErrors resources ∧
      ∀ given nodeColor document staged,
        OpenApi.stage given nodeColor document = .ok staged →
        ∀ r ∈ staged.model.resources, Differ r.2 := by
  have hoperations : ∀ r ∈ resources, Places (operationPlace r.2) r.2 := fun r hr =>
    places_operations (hsound r hr) (hdiffer r hr)
  have hresources := places_resources hnames
  have hchains := dispatchFragments_eq hnames hoperations withErrors
  refine ⟨?_, fun given nodeColor document staged hstaged r hr => ?_⟩
  · exact {
      written := fun helper lines h => isWritten_dispatchLines h
      resources_placed := fun before r behind hrow => by
        rw [resourceBranch, place_eq_zero_iff hresources hrow, resourceEnd?_eq,
          endAt?_eq .resource withErrors hresources hrow]
        exact ⟨rfl, rfl⟩
      operations_placed := fun r hr before o behind hrow => by
        have hplaces := hoperations r hr
        rw [operationBranch, place_eq_zero_iff hplaces hrow]
        exact ⟨rfl, endAt?_eq .operation withErrors hplaces hrow⟩
      chains := hchains
      balanced := by
        rw [hchains]
        exact leads_dispatchChain withErrors resources }
  · exact differ_of_stage hstaged hr

/-- An operation of a shop without parameters. -/
def plainOperation (operationId : Text) : Operation where
  endpoint := "/" ++ operationId
  requestMethod := "GET"
  operationId := operationId
  description := none
  summary := none
  operationUrl := none
  parameters := []
  requestBody := []
  additionalFields := none
  updateFields := none

/-- Two operations on items, none on orders and one on customers. -/
def shopOperations : List (Text × List Operation) :=
  [("shop item", [plainOperation "find", plainOperation "getAll"]), ("order", []),
    ("customer", [plainOperation "find"])]

theorem isWellFormed_shopOperations :
    (Entries.keys shopOperations).Nodup ∧
    (∀ r ∈ shopOperations, ∀ o ∈ r.2, o.isSound = true) ∧
    (∀ r ∈ shopOperations, Differ r.2) ∧
    IsWellFormed true shopOperations ∧ IsWellFormed false shopOperations := by
  have hnames : (Entries.keys shopOperations).Nodup := by decide
  have hsound : ∀ r ∈ shopOperations, ∀ o ∈ r.2, o.isSound = true := by decide +kernel
  have hdiffer : ∀ r ∈ shopOperations, Differ r.2 := by decide +kernel
  exact ⟨hnames, hsound, hdiffer, (isWellFormed_of_differ hnames hsound hdiffer true).1,
    (isWellFormed_of_differ hnames hsound hdiffer false).1⟩

end NodeForge.Source
