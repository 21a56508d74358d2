import NodeForge.Proofs.Source.Exports
import NodeForge.Proofs.Source.Reach
import NodeForge.Proofs.Source.Statements

/-!
# The files fit together

The imports file names what it takes from the descriptions, the index names the modules with the
descriptions, and the dispatch calls the request helpers. All three are made from the names of the
model on their own, and of the description files one may overwrite another. What the imports file
takes is there in any case, and the modules of the index are the description files: two names that
make the same description file make the same exported names too (`Fits`).

The other direction fails where a text that the model brings in holds a line end: what stands behind
it is a line of the file, and may export a name or call a helper. `isClosed_iff_of_filesOf` says
that this is the only way: the files are closed exactly if these stray lines export and call nothing
that is not imported.
-/

namespace NodeForge.Source

/-! ### Calls -/

/-- The helper that a line calls for the data of a response, however far the line is moved in. -/
def called? (line : Text) : Option Text := between? "responseData = await " '.' (movedOut line)

/-- The helpers that the lines of a text call. -/
def calledIn (text : Text) : List Text := (Text.lines text).filterMap called?

section Calls

variable {helper : Text} {o : Operation} {statements : List Statement} {s : Statement}

/-- A line calls no helper if it is not moved in and its first sign is not that of a call. -/
theorem called?_cons {s : Sign} (rest : Text) (h : s ≠ .char 'r') (htab : s ≠ .char '\t')
    (hblank : s ≠ .char ' ') : called? (s :: rest) = none := by
  have hhead : (Text.ofString "responseData = await ").head? = some (.char 'r') := by decide
  have hline : between? "responseData = await " '.' ([s] ++ rest) = none := by
    apply between?_eq_none
    rw [hhead]
    simpa using h
  rw [called?, movedOut_cons, if_neg (not_or.2 ⟨htab, hblank⟩)]
  exact hline

/-- A tab in front of a line does not count. -/
theorem called?_tab (line : Text) : called? (.char '\t' :: line) = called? line := by
  rw [called?, called?, movedOut_cons, if_pos (Or.inl rfl)]

theorem called?_firstLine {line : Text} (h : ∀ name, called? line = some name → Text.feed ∉ name) :
    called? (Text.firstLine line) = called? line := by
  rw [called?, called?, ← firstLine_movedOut]
  exact between?_firstLine (by decide) (by decide) h

/-- The line that calls a helper. -/
def callLine (helper arguments : Text) : Text :=
  "responseData = await " ++ helper ++ ".call(" ++ arguments

theorem called?_callLine {helper : Text} (h : IsWordText helper) (arguments : Text) :
    called? (callLine helper arguments) = some helper := by
  have hline : callLine helper arguments =
      "responseData = await " ++ (helper ++ .char '.' :: (Text.ofString "call(" ++ arguments)) := by
    simp [callLine, Text.ofString]
  have hmoved : movedOut (callLine helper arguments) = callLine helper arguments := by
    simp [callLine, Text.ofString, movedOut_cons]
  rw [called?, hmoved, hline]
  exact between?_append (h.not_mem (by decide))

/-- The helpers that a call calls, one for each line with a call. -/
def Call.helpers (c : Call) : List Text :=
  if c.getAll then [allItems c.helper, allItems c.helper] else [c.helper]

theorem called_call {c : Call} (h : IsWordText c.helper) :
    c.lines.filterMap called? = c.helpers := by
  have hall := isWordText_allItems h
  unfold Call.lines Call.helpers
  dsimp only
  split
  · have hfirst :
        "\tresponseData = await " ++ allItems c.helper ++ ".call(" ++ c.arguments ++ ");" =
        .char '\t' :: callLine (allItems c.helper) (c.arguments ++ ");") := by
      simp [callLine, Text.ofString]
    have hsecond : "\tresponseData = await " ++ allItems c.helper ++ ".call(" ++ c.arguments ++
        ", limit);" = .char '\t' :: callLine (allItems c.helper) (c.arguments ++ ", limit);") := by
      simp [callLine, Text.ofString]
    rw [hfirst, hsecond]
    simp only [List.filterMap_cons, called?_tab, called?_callLine hall]
    simp [constantLine, Text.ofString, called?_cons, called?_tab]
  · have hline : "responseData = await " ++ c.helper ++ ".call(" ++ c.arguments ++ ");" =
        callLine c.helper (c.arguments ++ ");") := by
      simp [callLine]
    rw [hline, List.filterMap_cons, called?_callLine h]
    rfl

/-- The call that a statement is. -/
def Statement.call? : Statement → Option Call
  | .call c => some c
  | _ => none

/-- A statement that is no call calls no helper. -/
theorem called_lines {s : Statement} (h : s.call? = none) : s.lines.filterMap called? = [] := by
  cases s with
  | call c => cases h
  | begin carrier => simp [Statement.lines, Text.ofString, called?_cons]
  | store carrier key name type =>
    cases carrier <;> simp [Statement.lines, Carrier.text, Text.ofString, called?_cons]
  | _ => simp [Statement.lines, constantLine, Text.ofString, called?_cons]

theorem call?_of_mem_filling {carrier : Carrier} (h : ∀ s ∈ statements, s.call? = none)
    (hs : s ∈ filling carrier statements) : s.call? = none := by
  cases statements with
  | nil => cases hs
  | cons first rest =>
    rcases List.mem_cons.1 hs with rfl | hs
    · rfl
    · exact h s hs

theorem call?_of_mem_groupStatements {carrier : Carrier} {name : GroupName}
    (hs : s ∈ groupStatements carrier name) : s.call? = none := by
  rcases List.mem_cons.1 hs with rfl | hs
  · rfl
  · rw [List.mem_singleton.1 hs]
    rfl

theorem call?_of_mem_queryFilling (h : queryFilling o = .ok statements) (hs : s ∈ statements) :
    s.call? = none := by
  obtain ⟨single, hsingle, h⟩ := Outcome.bind_eq_ok.1 h
  rw [Outcome.pure_eq_ok] at h
  rw [← h] at hs
  refine call?_of_mem_filling (fun s hs => ?_) hs
  rcases List.mem_append.1 hs with hs | hs
  · obtain ⟨row, hrow, hs⟩ := List.mem_flatten.1 hs
    obtain ⟨p, -, hp⟩ := Outcome.exists_left_of_mem (Outcome.mapM_eq_ok.1 hsingle) hrow
    rcases eq_of_queryStatements hp with ⟨-, rfl⟩ | ⟨-, type, rfl⟩
    · rcases List.mem_cons.1 hs with rfl | hs
      · rfl
      · rw [List.mem_singleton.1 hs]
        rfl
    · rw [List.mem_singleton.1 hs]
      rfl
  · obtain ⟨g, -, hs⟩ := List.mem_flatMap.1 hs
    exact call?_of_mem_groupStatements hs

theorem call?_of_mem_bodyFilling (h : bodyFilling o = .ok statements) (hs : s ∈ statements) :
    s.call? = none := by
  obtain ⟨standard, hstandard, h⟩ := Outcome.bind_eq_ok.1 h
  obtain ⟨groups, -, h⟩ := Outcome.bind_eq_ok.1 h
  rw [Outcome.pure_eq_ok] at h
  rw [← h] at hs
  refine call?_of_mem_filling (fun s hs => ?_) hs
  rcases List.mem_append.1 hs with hs | hs
  · obtain ⟨row, hrow, hs⟩ := List.mem_flatten.1 hs
    obtain ⟨body, -, hbody⟩ := Outcome.exists_left_of_mem (Outcome.mapM_eq_ok.1 hstandard) hrow
    obtain ⟨properties, -, hbody⟩ := Outcome.bind_eq_ok.1 hbody
    obtain ⟨e, -, he⟩ := Outcome.exists_left_of_mem (Outcome.mapM_eq_ok.1 hbody) hs
    obtain ⟨name, type, -, rfl⟩ := eq_of_fieldStatement he
    rfl
  · obtain ⟨g, -, hs⟩ := List.mem_flatMap.1 hs
    exact call?_of_mem_groupStatements hs

/-- What is written to run an operation calls the helper of the service, and the one for whole
collections in its place where the operation retrieves one. -/
theorem filterMap_called?_requestLines {lines : Lines} (hhelper : IsWordText helper)
    (h : requestLines helper o = .ok lines) :
    lines.filterMap called? =
      if o.isGetAll then [allItems helper, allItems helper] else [helper] := by
  obtain ⟨statements, hstatements, h⟩ := Outcome.bind_eq_ok.1 h
  obtain ⟨query, hquery, hstatements⟩ := Outcome.bind_eq_ok.1 hstatements
  obtain ⟨body, hbody, hstatements⟩ := Outcome.bind_eq_ok.1 hstatements
  rw [Outcome.pure_eq_ok] at h hstatements
  have hnone : ∀ row : List Statement, (∀ s ∈ row, s.call? = none) →
      (row.flatMap Statement.lines).filterMap called? = [] := by
    intro row hrow
    rw [List.filterMap_flatMap, List.flatMap_eq_nil_iff]
    exact fun s hs => called_lines (hrow s hs)
  have hpath : ∀ s ∈ pathStatements o, s.call? = none := by
    intro s hs
    obtain ⟨p, -, rfl⟩ := List.mem_map.1 hs
    rfl
  have hcall : (Statement.call (callOf helper o (!query.isEmpty) (!body.isEmpty))).lines.filterMap
      called? = if o.isGetAll then [allItems helper, allItems helper] else [helper] :=
    called_call hhelper
  rw [← h, ← hstatements]
  simp only [List.flatMap_append, List.filterMap_append, List.flatMap_cons, List.flatMap_nil,
    List.append_nil, hnone _ hpath, hnone _ fun _ => call?_of_mem_queryFilling hquery,
    hnone _ fun _ => call?_of_mem_bodyFilling hbody, hcall,
    called_lines (s := .endpoint (endpointTemplate o)) rfl, List.nil_append]

end Calls

/-! ### The dispatch -/

section Dispatch

variable {helper resource name : Text} {o : Operation} {row : List Operation} {withErrors : Bool}
  {lines lines' : Lines}

/-- The helpers that the lines of what is written call. -/
def callsIn (lines : Lines) : List Text := (lines.flatMap Text.lines).filterMap called?

theorem callsIn_append (lines lines' : Lines) :
    callsIn (lines ++ lines') = callsIn lines ++ callsIn lines' := by
  rw [callsIn, List.flatMap_append, List.filterMap_append]
  rfl

theorem calledIn_fileText (lines : Lines) : calledIn (fileText lines) = callsIn lines := by
  have hlast : List.filterMap called? [[]] = [] := by decide
  cases lines with
  | nil => decide
  | cons line rest =>
    rw [calledIn, lines_fileText (List.cons_ne_nil _ _), List.filterMap_append, hlast,
      List.append_nil, callsIn]

theorem called?_indentLine (tabs : Nat) (line : Text) :
    called? (indentLine tabs line) = called? line := by
  have hmoved : ∀ n, called? (Text.repeated '\t' n ++ line) = called? line := by
    intro n
    induction n with
    | zero => rfl
    | succ n ih =>
      have hfirst : Text.repeated '\t' (n + 1) ++ line =
          .char '\t' :: (Text.repeated '\t' n ++ line) := rfl
      rw [hfirst, called?_tab, ih]
  rw [indentLine]
  split
  · rfl
  · exact hmoved tabs

/-- Moving a text in makes no call and hides none. -/
theorem callsIn_indented (tabs : Nat) (lines : Lines) :
    callsIn (indented tabs lines) = callsIn lines := by
  have hfeed : ∀ line ∈ indented tabs lines, Text.feed ∉ line := by
    intro line hline
    obtain ⟨moved, hmoved, rfl⟩ := List.mem_map.1 hline
    obtain ⟨text, -, hmoved⟩ := List.mem_flatMap.1 hmoved
    have hmem := Text.feed_notMem_of_mem_lines hmoved
    rw [indentLine]
    split
    · exact hmem
    · rw [List.mem_append, not_or]
      exact ⟨fun htab => absurd (List.eq_of_mem_replicate htab) (by decide), hmem⟩
  rw [callsIn, Text.flatMap_lines_of_notMem hfeed, indented, List.filterMap_map, callsIn]
  exact congrArg (List.filterMap · _) (funext fun line => called?_indentLine tabs line)

/-- Lines without line ends that call nothing. -/
theorem callsIn_eq_nil (h : ∀ line ∈ lines, Text.feed ∉ line ∧ called? line = none) :
    callsIn lines = [] := by
  rw [callsIn, Text.flatMap_lines_of_notMem fun line hline => (h line hline).1,
    List.filterMap_eq_nil_iff]
  exact fun line hline => (h line hline).2

theorem callsIn_divider (resource : Text) : callsIn (Divider.ofResource resource).lines = [] := by
  have htitle : Text.feed ∉ (Divider.ofResource resource).centred := by
    intro hmem
    rcases List.mem_append.1 ((Rows.trimEndWhere_prefix _ _).subset hmem) with hblank | hname
    · exact absurd (List.eq_of_mem_replicate hblank) (by decide)
    · exact (isWordText_camel resource).feed_notMem hname
  have hrule : Text.feed ∉ "// " ++ Text.repeated '*' 70 ∧
      called? ("// " ++ Text.repeated '*' 70) = none := by decide
  apply callsIn_eq_nil
  intro line hline
  simp only [Divider.lines, List.mem_cons, List.not_mem_nil, or_false] at hline
  rcases hline with rfl | rfl | rfl
  · exact hrule
  · refine ⟨fun hmem => ?_, called?_cons _ (by decide) (by decide) (by decide)⟩
    exact (List.mem_append.1 hmem).elim (by decide) htitle
  · exact hrule

theorem callsIn_branch (subject : Subject) (name : Text) (first : Bool) :
    callsIn (Fragment.branch subject (literal name) first).lines = [] := by
  have hname := (isWordText_camel name).feed_notMem
  apply callsIn_eq_nil
  intro line hline
  rw [List.mem_singleton.1 hline]
  constructor
  · simp only [List.mem_append, not_or]
    refine ⟨⟨⟨⟨⟨⟨?_, ?_⟩, by decide⟩, ?_⟩, by decide⟩, hname⟩, by decide⟩
    · cases subject <;> decide
    · cases first <;> decide
    · cases subject <;> decide
  · cases subject <;> cases first <;>
      simp [Fragment.indentOf, Text.ofString, called?_cons, called?_tab]

theorem callsIn_ends (end? : Option Fragment)
    (h : ∀ f ∈ end?, ∃ subject withError, f = .close subject withError) :
    callsIn (end?.toList.flatMap Fragment.lines) = [] := by
  cases end? with
  | none => rfl
  | some f =>
    obtain ⟨subject, withError, rfl⟩ := h f rfl
    cases subject <;> cases withError <;> decide

/-- The helper that the code of an operation calls. -/
def calledHelper (helper : Text) (o : Operation) : Text :=
  if o.isGetAll then allItems helper else helper

/-- Whether a line that begins behind a line end, in what is written for an operation, calls a
helper under a name. -/
def StraysToCall (helper resource : Text) (o : Operation) (name : Text) : Prop :=
  ∃ request, requestLines helper o = .ok request ∧
    name ∈ (Text.strayLines
      (operationHeading resource o.operationId o.operationUrl ++ request)).filterMap called?

theorem isWordText_calledHelper (h : IsWordText helper) (o : Operation) :
    IsWordText (calledHelper helper o) := by
  rw [calledHelper]
  split
  · exact isWordText_allItems h
  · exact h

theorem filterMap_called?_operationHeading (resource operationId : Text) (url : Option Text) :
    (operationHeading resource operationId url).filterMap called? = [] := by
  rw [List.filterMap_eq_nil_iff]
  intro line hline
  rcases List.mem_append.1 hline with hline | hline
  · simp only [Divider.lines, List.mem_cons, List.not_mem_nil, or_false] at hline
    rcases hline with rfl | rfl | rfl <;>
      exact called?_cons _ (by decide) (by decide) (by decide)
  · cases url with
    | none => cases hline
    | some url =>
      dsimp only at hline
      split at hline
      · cases hline
      · simp only [List.mem_cons, List.not_mem_nil, or_false] at hline
        rcases hline with rfl | rfl
        · decide
        · exact called?_cons _ (by decide) (by decide) (by decide)

/-- The code of an operation under its heading calls its helper, and what stray lines call. -/
theorem mem_callsIn_request {request : Lines} (hhelper : IsWordText helper)
    (hrequest : requestLines helper o = .ok request) :
    name ∈ callsIn (operationHeading resource o.operationId o.operationUrl ++ request) ↔
      name = calledHelper helper o ∨ StraysToCall helper resource o name := by
  have hname : ∀ name, name ∈ (operationHeading resource o.operationId o.operationUrl ++
      request).filterMap called? ↔ name = calledHelper helper o := by
    intro name
    rw [List.filterMap_append, filterMap_called?_operationHeading, List.nil_append,
      filterMap_called?_requestLines hhelper hrequest, calledHelper]
    split <;> simp
  have hfirst : ∀ line ∈ operationHeading resource o.operationId o.operationUrl ++ request,
      called? (Text.firstLine line) = called? line := by
    intro line hline
    refine called?_firstLine fun name hcalled => ?_
    rw [(hname name).1 (List.mem_filterMap.2 ⟨line, hline, hcalled⟩)]
    exact (isWordText_calledHelper hhelper o).feed_notMem
  have hstray : StraysToCall helper resource o name ↔ name ∈ (Text.strayLines
      (operationHeading resource o.operationId o.operationUrl ++ request)).filterMap called? := by
    constructor
    · rintro ⟨request', hrequest', hmem⟩
      rwa [Except.ok.inj (hrequest.symm.trans hrequest')]
    · exact fun hmem => ⟨request, hrequest, hmem⟩
  rw [callsIn, Text.mem_filterMap_lines hfirst, hname, hstray]

/-- What is written for an operation calls its helper, and what stray lines call. -/
theorem mem_callsIn_operationPart (hhelper : IsWordText helper)
    (h : operationPart helper resource row withErrors o = .ok lines) :
    name ∈ callsIn lines ↔ name = calledHelper helper o ∨ StraysToCall helper resource o name := by
  obtain ⟨request, hrequest, h⟩ := Outcome.bind_eq_ok.1 h
  rw [Outcome.pure_eq_ok] at h
  have hend : callsIn ((operationEnd? row withErrors o).toList.flatMap Fragment.lines) = [] := by
    apply callsIn_ends
    intro f hf
    rw [operationEnd?] at hf
    split at hf
    · exact ⟨_, _, (Option.some.inj hf).symm⟩
    · cases hf
  have hgap : callsIn [[]] = [] := by decide
  have hcalls : callsIn lines =
      callsIn (operationHeading resource o.operationId o.operationUrl ++ request) := by
    rw [← h]
    simp only [code, List.flatten_cons, List.flatten_nil, List.append_nil, callsIn_append,
      callsIn_indented, hgap, hend, operationBranch, callsIn_branch, List.nil_append]
  rw [hcalls, mem_callsIn_request hhelper hrequest]

/-- What is called in parts is called in one of them. -/
theorem mem_callsIn_flatten {α : Type} {members : List α} {parts : List Lines} {P : α → Prop}
    (h : List.Forall₂ (fun a lines => name ∈ callsIn lines ↔ P a) members parts) :
    name ∈ callsIn parts.flatten ↔ ∃ a ∈ members, P a := by
  induction h with
  | nil => simp [callsIn]
  | cons hfirst _ ih =>
    rw [List.flatten_cons, callsIn_append, List.mem_append, hfirst, ih]
    simp

theorem mem_callsIn_resourcePart {names : List Text} (hhelper : IsWordText helper)
    (h : resourcePart helper names withErrors resource row = .ok lines) :
    name ∈ callsIn lines ↔
      ∃ o ∈ row, name = calledHelper helper o ∨ StraysToCall helper resource o name := by
  obtain ⟨parts, hparts, h⟩ := Outcome.bind_eq_ok.1 h
  rw [Outcome.pure_eq_ok] at h
  have hend : callsIn ((resourceEnd? names withErrors resource).toList.flatMap Fragment.lines) =
      [] := by
    apply callsIn_ends
    intro f hf
    rw [resourceEnd?] at hf
    split at hf
    · exact ⟨_, _, (Option.some.inj hf).symm⟩
    · cases hf
  have hgap : callsIn [[]] = [] := by decide
  have hcalls : callsIn lines = callsIn parts.flatten := by
    rw [← h]
    simp only [code, List.flatten_cons, List.flatten_nil, List.append_nil, callsIn_append,
      callsIn_divider, hgap, hend, resourceBranch, callsIn_branch, List.nil_append]
  rw [hcalls]
  exact mem_callsIn_flatten
    ((Outcome.mapM_eq_ok.1 hparts).imp fun _ _ => mem_callsIn_operationPart hhelper)

/-- **The calls of a dispatch.** It calls the helpers of its operations, and what stray lines
call. -/
theorem mem_callsIn_dispatchLines {resources : List (Text × List Operation)}
    (hhelper : IsWordText helper) (h : dispatchLines helper withErrors resources = .ok lines) :
    name ∈ callsIn lines ↔ ∃ r ∈ resources, ∃ o ∈ r.2,
      name = calledHelper helper o ∨ StraysToCall helper r.1 o name := by
  obtain ⟨parts, hparts, h⟩ := Outcome.bind_eq_ok.1 h
  rw [Outcome.pure_eq_ok] at h
  rw [← h]
  exact mem_callsIn_flatten
    ((Outcome.mapM_eq_ok.1 hparts).imp fun _ _ => mem_callsIn_resourcePart hhelper)

end Dispatch

/-! ### All files -/

variable {m : NodeModel}

/-- A description file before it is written: its path and its lines. -/
abbrev Described := Text × Lines

/-- Whether a description is that of a resource. -/
def Describes (r : Text × List Operation) (d : Described) : Prop :=
  d.1 = descriptionPath r.1 ∧ descriptionFile r.1 r.2 = .ok d.2

/-- The file that a description is written to. -/
def Described.file (d : Described) : File := (d.1, fileText d.2)

/-- The description files before any of them is written over another. -/
theorem exists_described {resources : List (Text × List Operation)} {files : List File}
    (h : List.Forall₂ (fun r file => describedIn r = .ok file) resources files) :
    ∃ all : List Described, List.Forall₂ Describes resources all ∧
      files = all.map Described.file := by
  induction h with
  | nil => exact ⟨[], .nil, rfl⟩
  | @cons r file resources files hfile _ ih =>
    obtain ⟨lines, hlines, hfile⟩ := Outcome.bind_eq_ok.1 hfile
    rw [Outcome.pure_eq_ok] at hfile
    obtain ⟨all, hall, rfl⟩ := ih
    exact ⟨(descriptionPath r.1, lines) :: all, .cons ⟨rfl, hlines⟩ hall, by rw [← hfile]; rfl⟩

theorem keys_described {resources : List (Text × List Operation)} {all : List Described}
    (h : List.Forall₂ Describes resources all) :
    Entries.keys all = (Entries.keys resources).map descriptionPath := by
  rw [Entries.keys, Entries.keys, List.map_map]
  exact (Outcome.map_eq_map_of_forall₂ (fun r d hd => hd.1.symm) h).symm

/-- The main files stand in front of the descriptions that are left. -/
theorem ofList_files (dispatch : Lines) {all : List Described}
    (hall : List.Forall₂ Describes m.resources all) :
    Entries.ofList (mainFiles m dispatch ++ all.map Described.file) =
      mainFiles m dispatch ++ (Entries.ofList all).map Described.file := by
  have hkeys : Entries.keys (all.map Described.file) =
      (Entries.keys m.resources).map descriptionPath := by
    rw [← keys_described hall, Entries.keys, Entries.keys, List.map_map]
    rfl
  have happart : (Entries.keys (mainFiles m dispatch) ++
      Entries.distinct (Entries.keys (all.map Described.file))).Nodup := by
    rw [hkeys, ← distinct_paths]
    exact Entries.nodup_distinct _
  rw [Entries.ofList_append happart]
  congr 1
  exact Entries.ofList_map fileText all

/-- Names with one description file make the same exported names. -/
theorem names_eq_of_descriptionPath_eq {a b : Text} (h : descriptionPath a = descriptionPath b) :
    fieldsName a = fieldsName b ∧ operationsName a = operationsName b := by
  have hcamel : Naming.camel a = Naming.camel b :=
    Naming.camel_eq_iff.2 (descriptionPath_eq_iff.1 h)
  rw [fieldsName, fieldsName, operationsName, operationsName, hcamel]
  exact ⟨rfl, rfl⟩

/-- What files have to do with one another in any case: what the imports file takes from the
descriptions is exported by one of them, and the modules of the index are the description files. -/
structure Fits (imports index : Text) (descriptions : List File) : Prop where
  exported_of_imported : ∀ name ∈ importedFrom "./descriptions" [] (Text.lines imports),
    ∃ d ∈ descriptions, name ∈ exportedIn d.2
  reexported_iff : ∀ path, path ∈ descriptions.map Prod.fst ↔
    ∃ module ∈ (Text.lines index).filterMap reexported?, path = "descriptions/" ++ module ++ ".ts"

/-- **What closed files are.** The imports file takes from the descriptions all that they export,
and from the module of the helpers all that the dispatch calls. -/
structure IsClosed (imports dispatch index : Text) (descriptions : List File) : Prop
    extends Fits imports index descriptions where
  imported_of_exported : ∀ d ∈ descriptions, ∀ name ∈ exportedIn d.2,
    name ∈ importedFrom "./descriptions" [] (Text.lines imports)
  imported_of_called : ∀ helper ∈ calledIn dispatch,
    helper ∈ importedFrom "./GenericFunctions" [] (Text.lines imports)

/-- **When line ends in a model do no harm**: the lines that they begin export no name and call no
helper beyond those that are imported. -/
structure IsHarmless (m : NodeModel) (descriptions : List Described) : Prop where
  exports_imported : ∀ d ∈ descriptions, ∀ name ∈ (Text.strayLines d.2).filterMap exported?,
    name ∈ importedDescriptions m
  calls_imported : ∀ r ∈ m.resources, ∀ o ∈ r.2, ∀ name,
    StraysToCall (helperOf m.service) r.1 o name → name ∈ importedHelpers m

/-- Where no line that is written holds a line end, there is no stray line. -/
theorem isHarmless_of_notMem {descriptions : List Described}
    (hdescriptions : ∀ d ∈ descriptions, ∀ line ∈ d.2, Text.feed ∉ line)
    (hrequests : ∀ r ∈ m.resources, ∀ o ∈ r.2, ∀ request,
      requestLines (helperOf m.service) o = .ok request →
      ∀ line ∈ operationHeading r.1 o.operationId o.operationUrl ++ request, Text.feed ∉ line) :
    IsHarmless m descriptions where
  exports_imported d hd name hname := by
    rw [Text.strayLines_of_notMem (hdescriptions d hd)] at hname
    cases hname
  calls_imported r hr o ho name hcall := by
    obtain ⟨request, hrequest, hname⟩ := hcall
    rw [Text.strayLines_of_notMem (hrequests r hr o ho request hrequest)] at hname
    cases hname

section Left

variable {all : List Described} (hall : List.Forall₂ Describes m.resources all)

include hall

/-- The paths that are left are those of the resources. -/
theorem mem_paths_iff {path : Text} : path ∈ (Entries.ofList all).map Prod.fst ↔
    ∃ r ∈ m.resources, descriptionPath r.1 = path := by
  show path ∈ Entries.keys (Entries.ofList all) ↔ _
  rw [Entries.keys_ofList, Entries.mem_distinct, keys_described hall, Entries.keys, List.map_map,
    List.mem_map]
  exact Iff.rfl

theorem exists_describes {d : Described} (hd : d ∈ Entries.ofList all) :
    ∃ r ∈ m.resources, Describes r d :=
  Outcome.exists_left_of_mem hall (Entries.mem_of_mem_ofList hd)

/-- A name of a resource is exported by the description that is left for it: where that is the
description of another one, their names are the same. -/
theorem exists_exported_of_imported {name : Text} (hname : name ∈ importedDescriptions m) :
    ∃ d ∈ Entries.ofList all, name ∈ exportedIn (fileText d.2) := by
  obtain ⟨r, hr, hname⟩ := mem_importedDescriptions_iff.1 hname
  obtain ⟨d, hd, hpath⟩ := List.mem_map.1 ((mem_paths_iff hall).2 ⟨r, hr, rfl⟩)
  obtain ⟨last, -, hlast⟩ := exists_describes hall hd
  have hsame := names_eq_of_descriptionPath_eq (hpath.symm.trans hlast.1)
  rw [hsame.1, hsame.2] at hname
  exact ⟨d, hd, (mem_exportedIn_descriptionFile_iff hlast.2).2 (Or.inl hname.symm)⟩

/-- What a description exports is imported exactly if what its stray lines export is. -/
theorem exported_imported_iff {d : Described} (hd : d ∈ Entries.ofList all) :
    (∀ name ∈ exportedIn (fileText d.2), name ∈ importedDescriptions m) ↔
      ∀ name ∈ (Text.strayLines d.2).filterMap exported?, name ∈ importedDescriptions m := by
  obtain ⟨r, hr, hdescribes⟩ := exists_describes hall hd
  simp only [mem_exportedIn_descriptionFile_iff hdescribes.2]
  constructor
  · exact fun h name hname => h name (Or.inr hname)
  · rintro h name (hname | hname)
    · exact mem_importedDescriptions_iff.2 ⟨r, hr, hname.symm⟩
    · exact h name hname

theorem reexported_iff_written (path : Text) :
    path ∈ (Entries.ofList all).map Prod.fst ↔
      ∃ module ∈ (Text.lines (fileText (indexFile m))).filterMap reexported?,
        path = "descriptions/" ++ module ++ ".ts" := by
  rw [mem_paths_iff hall, filterMap_reexported?_indexFile]
  constructor
  · rintro ⟨r, hr, rfl⟩
    exact ⟨descriptionModule r.1, List.mem_map_of_mem hr, rfl⟩
  · rintro ⟨module, hmodule, rfl⟩
    obtain ⟨r, hr, rfl⟩ := List.mem_map.1 hmodule
    exact ⟨r, hr, rfl⟩

end Left

/-- The helper of an operation is imported, as the imports look at the same id as the call. -/
theorem mem_importedHelpers {r : Text × List Operation} (hr : r ∈ m.resources) {o : Operation}
    (ho : o ∈ r.2) : calledHelper (helperOf m.service) o ∈ importedHelpers m := by
  unfold importedHelpers calledHelper
  dsimp only
  by_cases hall : o.isGetAll = true
  · have hany : (m.resources.any fun r => r.2.any Operation.isGetAll) = true :=
      List.any_eq_true.2 ⟨r, hr, List.any_eq_true.2 ⟨o, ho, hall⟩⟩
    rw [if_pos hall, if_pos hany]
    exact List.mem_cons_of_mem _ List.mem_cons_self
  · rw [if_neg hall]
    split
    · exact List.mem_cons_self
    · exact List.mem_cons_self

/-- What a dispatch calls is imported exactly if what stray lines call is. -/
theorem called_imported_iff {dispatch : Lines}
    (h : dispatchLines (helperOf m.service) true m.resources = .ok dispatch) :
    (∀ helper ∈ calledIn (fileText dispatch), helper ∈ importedHelpers m) ↔
      ∀ r ∈ m.resources, ∀ o ∈ r.2, ∀ name,
        StraysToCall (helperOf m.service) r.1 o name → name ∈ importedHelpers m := by
  simp only [calledIn_fileText, mem_callsIn_dispatchLines (isWordText_helperOf m.service) h]
  constructor
  · exact fun h r hr o ho name hname => h name ⟨r, hr, o, ho, Or.inr hname⟩
  · rintro h name ⟨r, hr, o, ho, rfl | hname⟩
    · exact mem_importedHelpers hr ho
    · exact h r hr o ho name hname

/-- **How the files fit together.** Where a model has files, they are the three main files and the
descriptions that are left, each that of a resource. What the imports file takes from the
descriptions is there, and the modules of the index are the description files, however the names of
the resources fold together. The other way round the files are closed exactly if no line end in a
text of the model begins a line that exports or calls something else. -/
theorem isClosed_iff_of_filesOf {files : List File} (h : filesOf m = .ok files) :
    ∃ dispatch descriptions,
      files = mainFiles m dispatch ++ descriptions.map Described.file ∧
      dispatchLines (helperOf m.service) true m.resources = .ok dispatch ∧
      (∀ d ∈ descriptions, ∃ r ∈ m.resources, Describes r d) ∧
      Fits (fileText (importsFile m)) (fileText (indexFile m)) (descriptions.map Described.file) ∧
      (IsClosed (fileText (importsFile m)) (fileText dispatch) (fileText (indexFile m))
        (descriptions.map Described.file) ↔ IsHarmless m descriptions) := by
  obtain ⟨dispatch, written, hdispatch, hwritten, rfl⟩ := filesOf_eq_ok.1 h
  obtain ⟨all, hall, rfl⟩ := exists_described (Outcome.mapM_eq_ok.1 hwritten)
  have hdescriptions : importedFrom "./descriptions" [] (Text.lines (fileText (importsFile m))) =
      importedDescriptions m := by
    rw [importedFrom_importsFile, if_neg (by decide), if_pos rfl, List.nil_append]
  have hhelpers : importedFrom "./GenericFunctions" [] (Text.lines (fileText (importsFile m))) =
      importedHelpers m := by
    rw [importedFrom_importsFile, if_pos rfl, if_neg (by decide), List.append_nil]
  have hpaths : ((Entries.ofList all).map Described.file).map Prod.fst =
      (Entries.ofList all).map Prod.fst := by
    rw [List.map_map]
    rfl
  have hfits : Fits (fileText (importsFile m)) (fileText (indexFile m))
      ((Entries.ofList all).map Described.file) := by
    constructor
    · rw [hdescriptions]
      intro name hname
      obtain ⟨d, hd, hexported⟩ := exists_exported_of_imported hall hname
      exact ⟨Described.file d, List.mem_map_of_mem hd, hexported⟩
    · rw [hpaths]
      exact reexported_iff_written hall
  refine ⟨dispatch, Entries.ofList all, ofList_files _ hall, hdispatch,
    fun d => exists_describes hall, hfits, fun hclosed => ⟨fun d hd => ?_, ?_⟩, fun hharmless =>
    ⟨hfits, ?_, ?_⟩⟩
  · rw [← exported_imported_iff hall hd, ← hdescriptions]
    exact hclosed.imported_of_exported (Described.file d) (List.mem_map_of_mem hd)
  · rw [← called_imported_iff hdispatch, ← hhelpers]
    exact hclosed.imported_of_called
  · rw [hdescriptions]
    intro file hfile
    obtain ⟨d, hd, rfl⟩ := List.mem_map.1 hfile
    exact (exported_imported_iff hall hd).2 (hharmless.exports_imported d hd)
  · rw [hhelpers]
    exact (called_imported_iff hdispatch).2 hharmless.calls_imported

/-- A shop with two resources that only a mark tells apart. The description of the first one, from
which all orders can be retrieved, is written over by that of the second. -/
def twinShop : NodeModel where
  service := ⟨"Twin Shop", .anonymous, defaultNodeColor, "https://twin.example"⟩
  resources := [("order-item", [ordersOperation]),
    ("order item", [{ ordersOperation with operationId := "find" }]), ("gift", [])]

theorem isHarmless_twinShop {descriptions : List Described}
    (h : ∀ d ∈ descriptions, ∃ r ∈ twinShop.resources, Describes r d) :
    IsHarmless twinShop descriptions := by
  have hdescriptions : ∀ r ∈ twinShop.resources, ∀ lines ∈ (descriptionFile r.1 r.2).toOption,
      ∀ line ∈ lines, Text.feed ∉ line := by decide +kernel
  have hrequests : ∀ r ∈ twinShop.resources, ∀ o ∈ r.2,
      ∀ request ∈ (requestLines (helperOf twinShop.service) o).toOption,
      ∀ line ∈ operationHeading r.1 o.operationId o.operationUrl ++ request,
        Text.feed ∉ line := by decide +kernel
  apply isHarmless_of_notMem
  · intro d hd
    obtain ⟨r, hr, hdescribes⟩ := h d hd
    exact hdescriptions r hr d.2 (by rw [hdescribes.2]; rfl)
  · intro r hr o ho request hrequest
    exact hrequests r hr o ho request (by rw [hrequest]; rfl)

/-- The files of the twin shop are closed, though one of three descriptions is lost. -/
theorem isClosed_twinShop : ∃ files dispatch, ∃ descriptions : List Described,
    filesOf twinShop = .ok files ∧
    files = mainFiles twinShop dispatch ++ descriptions.map Described.file ∧
    files.length = 5 ∧
    IsClosed (fileText (importsFile twinShop)) (fileText dispatch) (fileText (indexFile twinShop))
      (descriptions.map Described.file) := by
  obtain ⟨files, h, hlength⟩ := Outcome.exists_ok_of_any (by decide +kernel :
    (filesOf twinShop).toOption.any (fun files => files.length == 5) = true)
  obtain ⟨dispatch, descriptions, hfiles, -, hdescribes, -, hclosed⟩ := isClosed_iff_of_filesOf h
  exact ⟨files, dispatch, descriptions, h, hfiles, beq_iff_eq.1 hlength,
    hclosed.2 (isHarmless_twinShop hdescribes)⟩

/-- A shop with an operation id of several lines, which end a list of fields and begin another. -/
def spilledShop : Value :=
  .record [("openapi", .str "3.0.0"), ("info", .record [("title", .str "Shop"),
    ("version", .str "1")]), ("paths", .record [("/pets", .record [("get", .record [
      ("tags", .list [.str "pet"]), ("responses", .record []), ("operationId", .str
        "find\n];\n\nexport const extra: INodeProperties[] = [\n// more")])])])]

/-- Whether a description among files exports a name that the imports file does not take. -/
def LeavesOut (files : List File) (importsPath descriptionPath name : Text) : Prop :=
  ∃ imports ∈ files.lookup importsPath, ∃ description ∈ files.lookup descriptionPath,
    name ∈ exportedIn description ∧
      name ∉ importedFrom "./descriptions" [] (Text.lines imports)

instance (files : List File) (importsPath descriptionPath name : Text) :
    Decidable (LeavesOut files importsPath descriptionPath name) :=
  inferInstanceAs (Decidable (∃ imports ∈ files.lookup importsPath,
    ∃ description ∈ files.lookup descriptionPath, name ∈ exportedIn description ∧
      name ∉ importedFrom "./descriptions" [] (Text.lines imports)))

theorem leavesOut_spilledShop : ∃ staged files,
    OpenApi.stage none defaultNodeColor spilledShop = .ok staged ∧
    filesOf staged.model = .ok files ∧
    LeavesOut files "Shop.imports.ts" "descriptions/PetDescription.ts" "extra" := by
  obtain ⟨staged, hstaged, hrest⟩ := Outcome.exists_ok_of_any (by decide +kernel :
    (OpenApi.stage none defaultNodeColor spilledShop).toOption.any (fun staged =>
      (filesOf staged.model).toOption.any fun files =>
        LeavesOut files "Shop.imports.ts" "descriptions/PetDescription.ts" "extra") = true)
  obtain ⟨files, hfiles, hleaves⟩ := Outcome.exists_ok_of_any hrest
  exact ⟨staged, files, hstaged, hfiles, of_decide_eq_true hleaves⟩

end NodeForge.Source
