import NodeForge.Proofs.CommandLine.Steps
import NodeForge.Proofs.Document.Parts
import NodeForge.Proofs.Outcome

/-!
# What a failing run leaves

A run reads and stages before it writes, and writes while it renders. Whether a run that fails has
left something behind hangs on how far it came: until the file of the node model is put, nothing is
listed as written and all files are what they were, apart from the one that a bundler writes; from
then on that file is there, however the run ends (`output_of_run`).
-/

namespace NodeForge

theorem Text.hasHalf_ofString (s : String) : (Text.ofString s).hasHalf = false := by
  rw [Text.hasHalf, Text.ofString, Text.ofChars, List.any_map, List.any_eq_false]
  intro c _
  exact Bool.false_ne_true

theorem Text.hasHalf_append (s t : Text) : (s ++ t).hasHalf = (s.hasHalf || t.hasHalf) :=
  List.any_append

namespace CommandLine

/-! ### Up to the model of the node -/

/-- The run of an invocation up to the model of its node. -/
def staging (i : Invocation) (outcome : Bundler.Outcome) : Run NodeModel := do
  say ("Staging " ++ (Path.ofText i.spec).text ++ " (format: " ++ formatName i.format ++ ")...")
  stage i outcome

/-- The run of an invocation from the model of its node on. -/
def making (i : Invocation) (m : NodeModel) : Run Unit :=
  match i.action with
  | .stage => writeStaged (.ofText i.output) m
  | .generate => writeGenerated (.ofText i.output) m

theorem carryOut_eq (i : Invocation) (outcome : Bundler.Outcome) :
    carryOut i outcome = staging i outcome >>= making i := by
  rw [staging, bind_assoc]
  rfl

theorem ending_bundled (spec : Path) (outcome : Bundler.Outcome) (p : Progress) :
    ending (bundled spec outcome) p =
      ((Bundler.run bundlerCommand spec bundlerTarget outcome p.folder).result,
        { p with folder :=
          (Bundler.run bundlerCommand spec bundlerTarget outcome p.folder).folder }) := rfl

/-- Apart from its target, the bundler leaves all files as they are. -/
theorem lookup_of_bundler {command : Text} {spec : Path} {outcome : Bundler.Outcome} {d : Folder}
    {names : List Text} (hnames : names ≠ bundlerTarget.names) :
    (Bundler.run command spec bundlerTarget outcome d).folder.files.lookup names =
      d.files.lookup names := by
  unfold Bundler.run
  split
  · rfl
  · next made hmade =>
    have hfiles := Folder.files_of_ensureFolders hmade
    have hplace : made.placeOf bundlerTarget ≠ .ok (.inside names) := by
      intro h
      have heq := Folder.eq_of_placeOf rfl (by decide) h
      exact hnames (Place.inside.inj heq)
    split
    · rw [hfiles]
    · split
      · next text =>
        have hwrite : (made.write bundlerTarget text).1.files.lookup names =
            made.files.lookup names := Folder.lookup_of_write hplace
        split <;> next h => rw [h] at hwrite; rw [hwrite, hfiles]
      · rw [hfiles]

theorem spares_bundled (spec : Path) (outcome : Bundler.Outcome) :
    Leads (Spares [bundlerTarget.names]) (bundled spec outcome) := by
  intro p
  rw [ending_bundled]
  exact ⟨rfl, fun names hnames => lookup_of_bundler fun h => hnames (List.mem_singleton.2 h)⟩

/-- The places that a bundler may write to. -/
def bundlerPlaces (i : Invocation) : List (List Text) :=
  if i.bundles then [bundlerTarget.names] else []

/-- The format of the description of an invocation. -/
def formatOf (i : Invocation) : Run Description.Format :=
  let spec := (Path.ofText i.spec).text
  match i.format with
  | some f => pure f
  | none => need ((Description.read spec i.content).bind (Description.formatOf spec))

/-- The document of an invocation in which no reference is left. -/
def wholeOf (i : Invocation) (outcome : Bundler.Outcome) : Run Value :=
  let spec := Path.ofText i.spec
  if i.bundles then bundled spec outcome
  else need ((Description.read spec.text i.content).bind Bundler.withoutReferences)

/-- The model of the node for the description of an invocation in a format. -/
def stageAs (i : Invocation) (outcome : Bundler.Outcome) : Description.Format → Run NodeModel
  | .openApi => do
    let whole ← wholeOf i outcome
    let spec := Path.ofText i.spec
    return (← need (OpenApi.stage (some spec.stem) defaultNodeColor whole.copied)).model
  | .custom =>
    need ((Description.read (Path.ofText i.spec).text i.content).bind
      fun d => Outline.stage d.enter i.validates (.map d.fields))

theorem stage_eq (i : Invocation) (outcome : Bundler.Outcome) :
    stage i outcome = formatOf i >>= stageAs i outcome := by
  unfold stage formatOf stageAs wholeOf
  cases i.format <;> cases i.bundles <;> rfl

/-- Staging leaves all files as they are that the bundler does not write. -/
theorem spares_stage (i : Invocation) (outcome : Bundler.Outcome) :
    Leads (Spares (bundlerPlaces i)) (stage i outcome) := by
  rw [stage_eq]
  refine Leads.bind ?_ fun format => ?_
  · unfold formatOf
    cases i.format with
    | some f => exact Leads.pure f
    | none => exact Leads.need _
  cases format with
  | custom => exact Leads.need _
  | openApi =>
    refine Leads.bind ?_ fun whole => Leads.bind (Leads.need _) fun staged => Leads.pure _
    unfold wholeOf
    split
    · next hbundles =>
      rw [bundlerPlaces, if_pos hbundles]
      exact spares_bundled _ _
    · exact Leads.need _

theorem spares_staging (i : Invocation) (outcome : Bundler.Outcome) :
    Leads (Spares (bundlerPlaces i)) (staging i outcome) :=
  Leads.bind (spares_say _) fun _ => spares_stage i outcome

/-! ### From the model of the node on -/

/-- The file of the node model can be put in `d`, where the folder of the output has been made
inside `before`, and the model has a text. -/
structure CanBegin (output : Path) (m : NodeModel) (before d : Folder) : Prop where
  folders : before.ensureFolders output = .ok d
  dumps : ∃ text, Json.write m.dump = .ok text
  puts : ∃ d', d.put (output.join modelFile) "" = .ok d'

theorem extends_sayCreated (paths : List Path) : Leads Extends (sayCreated paths) :=
  Leads.forM (fun _ => extends_say _) paths

/-- First comes a line that can be printed and then the model, and what follows takes nothing
away. -/
theorem making_eq (i : Invocation) (m : NodeModel) :
    ∃ (line : Text) (rest : List Path → Run Unit), line.hasHalf = false ∧
      (∀ paths, Leads Extends (rest paths)) ∧
      making i m = say line >>= fun _ => writeModel (.ofText i.output) m >>= rest := by
  unfold making
  cases i.action with
  | stage =>
    refine ⟨_, sayCreated, ?_, extends_sayCreated, rfl⟩
    simp only [Text.hasHalf_append, Text.hasHalf_ofString, Numeral.ofNat, Bool.or_false]
  | generate =>
    refine ⟨_, _, ?_, ?_, rfl⟩
    · simp only [Text.hasHalf_append, Text.hasHalf_ofString, Numeral.ofNat, Bool.or_false]
    · intro paths
      refine Leads.bind (extends_say _) fun _ => Leads.bind (Leads.need _) fun files => ?_
      refine Leads.bind (Leads.forM (fun file => ?_) _) fun _ => ?_
      · exact Leads.bind (extends_makeFolders _) fun _ => extends_write _
      refine Leads.bind (Leads.need _) fun text => Leads.bind (extends_write _) fun _ => ?_
      exact Leads.bind (extends_sayCreated _) fun _ => extends_say _

theorem writeModel_eq (output : Path) (m : NodeModel) :
    writeModel output m = makeFolders output >>= fun _ => needValue (Json.write m.dump) >>=
      fun text => write (output.join modelFile, text ++ "\n") >>= fun _ =>
        write (output.join overviewFile, Overview.text m) >>= fun _ =>
          pure [output.join modelFile, output.join overviewFile] := rfl

variable {output : Path} {m : NodeModel} {p : Progress} {places : List (List Text)}

/-- Where the file of the model cannot be put, making the model fails and leaves all files as they
are. -/
theorem writeModel_of_not_canBegin (h : ∀ d, ¬ CanBegin output m p.folder d) :
    ∃ failure q, ending (writeModel output m) p = (.error failure, q) ∧ Spares places p q := by
  rw [writeModel_eq, ending_bind, makeFolders, ending_change]
  cases hfolders : p.folder.ensureFolders output with
  | error fault => exact ⟨_, _, rfl, refl_of _ _⟩
  | ok d =>
    have hfiles : d.files = p.folder.files := Folder.files_of_ensureFolders hfolders
    have hspares : Spares places p { p with folder := d } := spares_of_files rfl hfiles
    dsimp only
    rw [ending_bind, needValue, ending_need]
    cases hdump : Json.write m.dump with
    | error fault => exact ⟨_, _, rfl, hspares⟩
    | ok text =>
      show ∃ failure q, ending (write _ >>= _) _ = (.error failure, q) ∧ Spares places p q
      rw [ending_bind, ending_write]
      cases hput : d.put (output.join modelFile) ((text ++ "\n").string?.getD "") with
      | error fault =>
        dsimp only
        rw [Folder.write_eq_of_error hput]
        exact ⟨_, _, rfl, hspares⟩
      | ok d' => exact absurd ⟨hfolders, ⟨_, hdump⟩, Folder.exists_put_iff.1 ⟨_, hput⟩⟩ (h d)

/-- Where the file of the model can be put, it is written, and what follows takes nothing away. -/
theorem extends_writeModel_of_canBegin {d : Folder} (h : CanBegin output m p.folder d) :
    ∃ text, Json.write m.dump = .ok text ∧
      Extends (ending (write (output.join modelFile, text ++ "\n")) { p with folder := d }).2
        (ending (writeModel output m) p).2 := by
  obtain ⟨text, hdump⟩ := h.dumps
  refine ⟨text, hdump, ?_⟩
  rw [writeModel_eq, ending_bind, makeFolders, ending_change, h.folders]
  dsimp only
  rw [ending_bind, needValue, ending_need, hdump]
  exact Leads.behind (fun _ => Leads.bind (extends_write _) fun _ => Leads.pure _) _

/-- Where the file of the model can be put, it is there from then on, and it is listed as written
if its text can be. -/
theorem model_of_canBegin {d : Folder} {q : Progress} (h : CanBegin output m p.folder d)
    (hq : Extends (ending (writeModel output m) p).2 q) :
    (∀ text, Json.write m.dump = .ok text → (text ++ "\n").string?.isSome = true →
        (output.join modelFile, text ++ "\n") ∈ q.written) ∧
      ∀ names, d.placeOf (output.join modelFile) = .ok (.inside names) →
        Entries.has names q.folder.files = true := by
  obtain ⟨text, hdump, hwritten⟩ := extends_writeModel_of_canBegin h
  have hq := trans_of Extends hwritten hq
  have hputs : ∃ d', d.put (output.join modelFile) ((text ++ "\n").string?.getD "") = .ok d' :=
    Folder.exists_put_iff.1 h.puts
  obtain ⟨d', hput⟩ := hputs
  have hwrite := Folder.write_eq_of_put hput
  constructor
  · intro text' hdump' hstring
    rw [← Except.ok.inj (hdump.symm.trans hdump')] at hstring ⊢
    rw [hstring, if_pos rfl] at hwrite
    refine hq.listed.subset ?_
    rw [ending_write]
    dsimp only
    rw [hwrite]
    exact List.mem_append_right _ List.mem_cons_self
  · intro names hplace
    refine hq.kept names ?_
    rw [folder_of_write]
    dsimp only
    rw [hwrite, Entries.has, (Folder.lookup_of_put hput).1 hplace, Option.isSome_some]

/-- A package whose source cannot be made fails, wherever its making goes on from. -/
theorem writeGenerated_of_filesOf_error {fault : Fault} (h : Source.filesOf m = .error fault) :
    ∃ failure q, ending (writeGenerated output m) p = (.error failure, q) := by
  unfold writeGenerated
  refine fails_bind (fun _ _ => fails_bind (fun _ _ => fails_bind (fun _ _ => ?_) _) _) _
  rw [needValue, h]
  exact ⟨_, _, rfl⟩

/-! ### Whole runs -/

/-- What is done before anything has been done. -/
def start (folder : Folder) : Progress := ⟨[], [], folder⟩

/-- How a run comes to its report. -/
theorem run_eq_some {find : Lookup} {folder : Folder} {outcome : Bundler.Outcome}
    {arguments : List Text} {r : Report} (h : run find folder outcome arguments = some r) :
    (∃ fault, Invocation.ofArguments find arguments = .error (.store fault) ∧
        r = ⟨start folder, .error (.store fault)⟩) ∨
      ∃ i, Invocation.ofArguments find arguments = .ok i ∧
        ending (carryOut i outcome) (start folder) = (r.result, r.toProgress) := by
  unfold run at h
  dsimp only at h
  split at h
  · cases h
  · next fault hrefused =>
    exact Or.inl ⟨fault, hrefused, (Option.some.inj h).symm⟩
  · next i hasked =>
    rw [← Option.some.inj h]
    exact Or.inr ⟨i, hasked, rfl⟩

/-- A line that can be carried out has a report. -/
theorem exists_run {find : Lookup} {arguments : List Text} {i : Invocation}
    (h : Invocation.ofArguments find arguments = .ok i) (folder : Folder)
    (outcome : Bundler.Outcome) :
    ∃ r, run find folder outcome arguments = some r ∧
      ending (carryOut i outcome) (start folder) = (r.result, r.toProgress) := by
  refine ⟨⟨(ending (carryOut i outcome) (start folder)).2,
    (ending (carryOut i outcome) (start folder)).1⟩, ?_, rfl⟩
  rw [run, h]
  rfl

variable {i : Invocation} {outcome : Bundler.Outcome} {q : Progress}

/-- After its staging, an invocation has one line more and goes on with its model, and what follows
takes nothing away. -/
theorem ending_carryOut_of_staging (h : ending (staging i outcome) p = (.ok m, q)) :
    ∃ (lines : List Text) (rest : List Path → Run Unit), (∀ paths, Leads Extends (rest paths)) ∧
      ending (carryOut i outcome) p =
        ending (writeModel (.ofText i.output) m >>= rest) { q with lines } := by
  obtain ⟨line, rest, hline, hrest, hmaking⟩ := making_eq i m
  refine ⟨q.lines ++ [withoutColours 0 line], rest, hrest, ?_⟩
  rw [carryOut_eq, ending_bind, h]
  dsimp only
  rw [hmaking, ending_bind, ending_say, hline, if_neg Bool.false_ne_true]

/-- An invocation that is not staged, or whose model cannot be put, fails and leaves all files as
they are that the bundler does not write. -/
theorem spares_carryOut
    (h : ∀ m q, ending (staging i outcome) p = (.ok m, q) →
      ∀ d, ¬ CanBegin (.ofText i.output) m q.folder d) :
    ∃ failure q, ending (carryOut i outcome) p = (.error failure, q) ∧
      Spares (bundlerPlaces i) p q := by
  have hstaging := spares_staging i outcome p
  cases hend : ending (staging i outcome) p with
  | mk result q =>
    rw [hend] at hstaging
    cases result with
    | error failure =>
      rw [carryOut_eq, ending_bind, hend]
      exact ⟨failure, q, rfl, hstaging⟩
    | ok m =>
      obtain ⟨lines, rest, -, hcarried⟩ := ending_carryOut_of_staging hend
      have hlines : Spares (bundlerPlaces i) q { q with lines } := spares_of_files rfl rfl
      obtain ⟨failure, q', hmodel, hspares⟩ :=
        writeModel_of_not_canBegin (p := { q with lines }) (h m q hend)
      rw [hcarried, ending_bind, hmodel]
      exact ⟨failure, q', rfl, trans_of _ hstaging (trans_of _ hlines hspares)⟩

/-- From the model of its node on, an invocation takes nothing of what its model leaves away. -/
theorem extends_carryOut (h : ending (staging i outcome) p = (.ok m, q)) :
    ∃ q', q'.folder = q.folder ∧ Extends (ending (writeModel (.ofText i.output) m) q').2
      (ending (carryOut i outcome) p).2 := by
  obtain ⟨lines, rest, hrest, hcarried⟩ := ending_carryOut_of_staging h
  refine ⟨{ q with lines }, rfl, ?_⟩
  rw [hcarried]
  exact Leads.behind hrest _

theorem carryOut_of_filesOf_error {fault : Fault}
    (h : ending (staging i outcome) p = (.ok m, q)) (haction : i.action = .generate)
    (hsource : Source.filesOf m = .error fault) :
    ∃ failure q', ending (carryOut i outcome) p = (.error failure, q') := by
  rw [carryOut_eq, ending_bind, h]
  dsimp only
  rw [making, haction]
  exact writeGenerated_of_filesOf_error hsource

/-- A run comes so far that the file of the node model is put: its command line asks for `i`, which
is staged to `m`, and the file can be put in `d`, where the folder of the output is made. -/
def BeginsOutput (find : Lookup) (folder : Folder) (outcome : Bundler.Outcome)
    (arguments : List Text) (i : Invocation) (m : NodeModel) (d : Folder) : Prop :=
  Invocation.ofArguments find arguments = .ok i ∧
    ∃ p, ending (staging i outcome) (start folder) = (.ok m, p) ∧
      CanBegin (.ofText i.output) m p.folder d

/-- **Output of a run**: a run that does not come as far as the file of the node model fails, lists
nothing as written, and leaves every file as it is that the bundler does not write. From there on
that file is there, however the run ends, and it is listed as written if its text can be; and the
run does fail if it is to make a package whose source cannot be made. -/
theorem output_of_run {find : Lookup} {folder : Folder} {outcome : Bundler.Outcome}
    {arguments : List Text} {r : Report} (hrun : run find folder outcome arguments = some r) :
    ((∀ i m d, ¬ BeginsOutput find folder outcome arguments i m d) →
        (∃ failure, r.result = .error failure) ∧ r.written = [] ∧
          ∀ names, (∀ i, Invocation.ofArguments find arguments = .ok i → names ∉ bundlerPlaces i) →
            r.folder.files.lookup names = folder.files.lookup names) ∧
      ∀ i m d, BeginsOutput find folder outcome arguments i m d →
        (∀ text, Json.write m.dump = .ok text → (text ++ "\n").string?.isSome = true →
            ((Path.ofText i.output).join modelFile, text ++ "\n") ∈ r.written) ∧
          (∀ names, d.placeOf ((Path.ofText i.output).join modelFile) = .ok (.inside names) →
            Entries.has names r.folder.files = true) ∧
          ∀ fault, i.action = .generate → Source.filesOf m = .error fault →
            ∃ failure, r.result = .error failure := by
  constructor
  · intro hnone
    rcases run_eq_some hrun with ⟨fault, -, rfl⟩ | ⟨i, hasked, hend⟩
    · exact ⟨⟨_, rfl⟩, rfl, fun _ _ => rfl⟩
    · obtain ⟨failure, q, hfails, hspares⟩ := spares_carryOut
        fun m q hstaged d hcan => hnone i m d ⟨hasked, q, hstaged, hcan⟩
      obtain ⟨hresult, hprogress⟩ := Prod.ext_iff.1 (hend.symm.trans hfails)
      obtain rfl : r.toProgress = q := hprogress
      exact ⟨⟨failure, hresult⟩, hspares.listed, fun names hnames =>
        hspares.files names (hnames i hasked)⟩
  · rintro i m d ⟨hasked, p, hstaged, hcan⟩
    rcases run_eq_some hrun with ⟨fault, hrefused, -⟩ | ⟨i', hasked', hend⟩
    · cases hrefused.symm.trans hasked
    · obtain rfl : i' = i := Except.ok.inj (hasked'.symm.trans hasked)
      obtain ⟨q', hfolder, hextends⟩ := extends_carryOut hstaged
      rw [hend] at hextends
      obtain ⟨hlisted, hthere⟩ := model_of_canBegin (hfolder ▸ hcan) hextends
      refine ⟨hlisted, hthere, fun fault haction hsource => ?_⟩
      obtain ⟨failure, q, hfails⟩ := carryOut_of_filesOf_error hstaged haction hsource
      exact ⟨failure, (Prod.ext_iff.1 (hend.symm.trans hfails)).1⟩

/-- A custom schema of one operation, which sends a list of anything. -/
def giftSpec : String := "
  mainParams:
    gift:
    - endpoint: /gifts
      requestMethod: POST
      operationId: create
      requiredFields:
        requestBody:
          tags:
            type: array
            items: true
  metaParams:
    serviceName: Shop
"

/-- A folder with the schema in it, and with a file that is none. -/
def giftFolder : Folder := .ofFiles [(["gift.yaml"], giftSpec), (["other.yaml"], "foo: bar\n")]

/-- What there is at the paths of the folder. -/
def findGift : Lookup := fun path => giftFolder.find path

/-- The command line that makes a package of a file of the folder. -/
def giftArguments (spec : Text) : List Text :=
  ["generate", spec, "-o", "out", "--format", "custom"]

/-- What it asks for. -/
def giftCall (spec : Text) (content : String) : Invocation :=
  ⟨.generate, spec, content, "out", some .custom, false, false⟩

theorem asked_gift : Invocation.ofArguments findGift (giftArguments "gift.yaml") =
    .ok (giftCall "gift.yaml" giftSpec) := by
  rfl

theorem asked_other : Invocation.ofArguments findGift (giftArguments "other.yaml") =
    .ok (giftCall "other.yaml" "foo: bar\n") := by
  rfl

theorem fileText_giftSpec : Description.fileText giftSpec = giftSpec := by
  have h : Description.unifyLineEnds giftSpec.toList = giftSpec.toList := by
    rw [giftSpec, String.toList_ofList]
    decide +kernel
  rw [Description.fileText, h, String.ofList_toList]

/-- The schema is staged to a model that has a text, but whose source cannot be made. -/
theorem staged_gift : ∃ m,
    (Description.read "gift.yaml" giftSpec).bind
        (fun d => Outline.stage d.enter false (.map d.fields)) = .ok m ∧
      (∃ text, Json.write m.dump = .ok text) ∧ ∃ fault, Source.filesOf m = .error fault := by
  have hrun : ((Yaml.read giftSpec).toOption.any fun d => d.root.fields?.any fun fields =>
      (Outline.stage (Description.enter ⟨fields, d.nodeCount, d.isKnotted⟩) false
          (.map fields)).toOption.any fun m =>
        (Json.write m.dump).isOk && !(Source.filesOf m).isOk) = true := by
    rw [Yaml.read, giftSpec, String.toList_ofList]
    decide +kernel
  obtain ⟨⟨root, n, isKnotted⟩, hread, hrun⟩ := Outcome.exists_ok_of_any hrun
  obtain ⟨fields, hroot, hrun⟩ := (Option.any_eq_true _ _).1 hrun
  obtain ⟨m, hm, hrun⟩ := Outcome.exists_ok_of_any hrun
  obtain ⟨hdumps, hsource⟩ := Bool.and_eq_true_iff.1 hrun
  refine ⟨m, ?_, Outcome.isOk_iff.1 hdumps, ?_⟩
  · dsimp only at hroot
    rw [Description.read, fileText_giftSpec, hread, Value.fields?_eq_some.1 hroot]
    exact hm
  · cases hfiles : Source.filesOf m with
    | error fault => exact ⟨fault, rfl⟩
    | ok files => rw [hfiles] at hsource; cases hsource

/-- What has been done when it is staged: the first line has been printed. -/
def giftProgress : Progress :=
  ⟨["Staging gift.yaml (format: custom)..."], [], giftFolder⟩

theorem ending_staging_gift {m : NodeModel} (h : (Description.read "gift.yaml" giftSpec).bind
    (fun d => Outline.stage d.enter false (.map d.fields)) = .ok m) :
    ending (staging (giftCall "gift.yaml" giftSpec) .missing) (start giftFolder) =
      (.ok m, giftProgress) := by
  rw [← h, staging, ending_bind, ending_say, if_neg (by decide), stage_eq]
  rfl

/-- The place of the file of its model. -/
def giftPlace : List Text := ["out", "nodegen-params.json"]

theorem begins_gift : ∃ m d fault,
    BeginsOutput findGift giftFolder .missing (giftArguments "gift.yaml")
        (giftCall "gift.yaml" giftSpec) m d ∧
      d.placeOf ((Path.ofText "out").join modelFile) = .ok (.inside giftPlace) ∧
      Source.filesOf m = .error fault := by
  obtain ⟨m, hm, hdumps, fault, hsource⟩ := staged_gift
  refine ⟨m, { giftFolder with folders := [["out"]] }, fault, ?_, rfl, hsource⟩
  exact ⟨asked_gift, giftProgress, ending_staging_gift hm, rfl, hdumps, _, rfl⟩

theorem not_begins_other (i : Invocation) (m : NodeModel) (d : Folder) :
    ¬ BeginsOutput findGift giftFolder .missing (giftArguments "other.yaml") i m d := by
  rintro ⟨hasked, p, hstaged, -⟩
  have hfails : (ending (staging (giftCall "other.yaml" "foo: bar\n") .missing)
      (start giftFolder)).1.isOk = false := by decide +kernel
  rw [← Except.ok.inj (asked_other.symm.trans hasked)] at hstaged
  rw [hstaged] at hfails
  cases hfails

/-- The run with the schema fails and leaves its model behind, the one with the other file fails and
leaves all files as they are. -/
theorem output_giftFolder :
    (∃ r, run findGift giftFolder .missing (giftArguments "gift.yaml") = some r ∧
      (∃ failure, r.result = .error failure) ∧ Entries.has giftPlace r.folder.files = true) ∧
    ∃ r, run findGift giftFolder .missing (giftArguments "other.yaml") = some r ∧
      (∃ failure, r.result = .error failure) ∧ r.written = [] ∧
        ∀ names, r.folder.files.lookup names = giftFolder.files.lookup names := by
  constructor
  · obtain ⟨m, d, fault, hbegins, hplace, hsource⟩ := begins_gift
    obtain ⟨r, hrun, -⟩ := exists_run asked_gift giftFolder .missing
    obtain ⟨-, hthere, hfails⟩ := (output_of_run hrun).2 _ _ _ hbegins
    exact ⟨r, hrun, hfails fault rfl hsource, hthere _ hplace⟩
  · obtain ⟨r, hrun, -⟩ := exists_run asked_other giftFolder .missing
    obtain ⟨hfails, hwritten, hfiles⟩ := (output_of_run hrun).1 not_begins_other
    refine ⟨r, hrun, hfails, hwritten, fun names => hfiles names fun i hasked => ?_⟩
    rw [← Except.ok.inj (asked_other.symm.trans hasked)]
    exact List.not_mem_nil

/-- A failing run leaves a file behind in the folder of its output. -/
theorem leaves_model_of_gift :
    ∃ r failure, run findGift giftFolder .missing (giftArguments "gift.yaml") = some r ∧
      r.result = .error failure ∧ Entries.has giftPlace giftFolder.files = false ∧
        Entries.has giftPlace r.folder.files = true := by
  obtain ⟨m, d, fault, ⟨hasked, p, hstaged, hcan⟩, hplace, hsource⟩ := begins_gift
  obtain ⟨r, hrun, hend⟩ := exists_run hasked giftFolder .missing
  obtain ⟨failure, q, hfails⟩ := carryOut_of_filesOf_error hstaged rfl hsource
  obtain ⟨q', hfolder, hextends⟩ := extends_carryOut hstaged
  rw [hend] at hextends hfails
  have hthere := (model_of_canBegin (hfolder ▸ hcan) hextends).2 _ hplace
  exact ⟨r, failure, hrun, (Prod.ext_iff.1 hfails).1, rfl, hthere⟩

end CommandLine

end NodeForge
