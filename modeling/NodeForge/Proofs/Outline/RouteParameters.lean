import NodeForge.Proofs.Outline.Buckets

/-!
# Route parameters

An operation that is about one thing has to name it in its endpoint. The check of an operation and
its staging look for this name in different ways: the check for an opening brace
(`validate_eq_ok_iff`), the staging for a placeholder, which is a name between braces. So an
operation whose braces are empty or not closed passes the check and has no path parameter, and all
others that pass have one (`route_of_validate`).
-/

namespace NodeForge.Outline

variable {enter : Value → Value} {operation : Value} {fields : Fields} {endpoint : Text}

/-! ### Checking -/

/-- The keys that an operation has to have. -/
def mainKeys : List Text := ["endpoint", "requestMethod", "operationId"]

/-- Whether an operation is about one thing, by its method in any letter case and its id. -/
def IsAboutOne (fields : Fields) : Prop :=
  ∃ v method, Fields.get? "requestMethod" fields = some v ∧ methodText v = .ok method ∧
    (method = "DELETE" ∨ method = "PATCH" ∨
      method = "GET" ∧ Fields.get? "operationId" fields ≠ some (.str "getAll"))

theorem isText_eq_false_iff {v : Value} {t : Text} : v.isText t = false ↔ v ≠ .str t := by
  cases v with
  | scalar s => cases s <;> simp [Value.isText, Value.text?]
  | _ => simp [Value.isText, Value.text?]

theorem isText_getAll_eq_false (h : Fields.get? "operationId" fields ≠ some (.str "getAll")) :
    (Fields.get "operationId" fields).isText "getAll" = false := by
  refine isText_eq_false_iff.2 fun hgot => ?_
  rw [Fields.get] at hgot
  cases hfound : Fields.get? "operationId" fields with
  | none =>
    rw [hfound] at hgot
    cases hgot
  | some id =>
    rw [hfound] at hgot h
    exact h (congrArg some hgot)

theorem needsRouteParameter_of_isAboutOne (h : IsAboutOne fields) :
    needsRouteParameter (.map fields) = .ok true := by
  obtain ⟨v, method, hv, hmethod, hone⟩ := h
  have hfound : (Value.map fields).field? "requestMethod" = .ok (some v) :=
    congrArg Except.ok hv
  have hasked : (method == "GET" && !(Fields.get "operationId" fields).isText "getAll" ||
      method == "DELETE" || method == "PATCH") = true := by
    rcases hone with rfl | rfl | ⟨rfl, hid⟩
    · simp
    · simp
    · rw [isText_getAll_eq_false hid]
      rfl
  exact Outcome.bind_eq_ok.2 ⟨some v, hfound, Outcome.bind_eq_ok.2 ⟨method, hmethod,
    Outcome.bind_eq_ok.2 ⟨_, rfl, congrArg Except.ok hasked⟩⟩⟩

theorem requireKey_eq_ok_iff {key : Text} {u : Unit} :
    requireKey operation key = .ok u ↔ operation.holds key = .ok true := by
  rw [requireKey, Outcome.bind_eq_ok]
  simp only [Outcome.lift_eq_ok]
  constructor
  · rintro ⟨found, hfound, h⟩
    cases found with
    | true => exact hfound
    | false => exact absurd h Outcome.failSpec_ne_ok
  · intro h
    exact ⟨true, h, rfl⟩

/-- The check for an opening brace. -/
theorem bracesChecked_iff (operation : Value) :
    (do
      if !(← (Value.str endpoint).holds "\x7b") then
        failSpec (.noRouteParameter (← operation.demand "requestMethod") (.str endpoint)) :
        Except Failure Unit) = .ok () ↔ Sign.char '\x7b' ∈ endpoint := by
  have hholds : (Value.str endpoint).holds "\x7b" =
      .ok (Rows.contains [Sign.char '\x7b'] endpoint) := rfl
  rw [hholds, ← Rows.contains_singleton]
  cases Rows.contains [Sign.char '\x7b'] endpoint with
  | true => exact iff_of_true rfl rfl
  | false =>
    refine iff_of_false (fun h => ?_) Bool.false_ne_true
    obtain ⟨method, -, h⟩ := Outcome.bind_eq_ok.1 (show (do
      failSpec (.noRouteParameter (← operation.demand "requestMethod") (.str endpoint)) :
        Except Failure Unit) = .ok () from h)
    exact Outcome.failSpec_ne_ok h

/-- Of an operation with a text as its endpoint the check asks for the main keys and, where it is
about one thing, for an opening brace. -/
theorem validate_eq_ok_iff (hfields : enter operation = .map fields)
    (hendpoint : Fields.get? "endpoint" fields = some (.str endpoint)) (hone : IsAboutOne fields) :
    validate enter operation = .ok () ↔
      (∀ key ∈ mainKeys, operation.holds key = .ok true) ∧ Sign.char '\x7b' ∈ endpoint := by
  have hdemand : (Value.map fields).demand "endpoint" = .ok (.str endpoint) := by
    rw [Value.demand, hendpoint]
    rfl
  have hneeds := needsRouteParameter_of_isAboutOne hone
  unfold validate
  rw [hfields]
  dsimp only
  rw [hneeds, hdemand, ← bracesChecked_iff (.map fields)]
  constructor
  · intro h
    obtain ⟨_, hfirst, h⟩ := Outcome.bind_eq_ok.1 h
    obtain ⟨_, hsecond, h⟩ := Outcome.bind_eq_ok.1 h
    obtain ⟨_, hthird, h⟩ := Outcome.bind_eq_ok.1 h
    rw [requireKey_eq_ok_iff] at hfirst hsecond hthird
    refine ⟨?_, h⟩
    simp only [mainKeys, List.forall_mem_cons]
    exact ⟨hfirst, hsecond, hthird, by simp⟩
  · rintro ⟨hkeys, hbrace⟩
    simp only [mainKeys, List.forall_mem_cons] at hkeys
    obtain ⟨hfirst, hsecond, hthird, -⟩ := hkeys
    exact Outcome.bind_eq_ok.2 ⟨(), requireKey_eq_ok_iff.2 hfirst,
      Outcome.bind_eq_ok.2 ⟨(), requireKey_eq_ok_iff.2 hsecond,
        Outcome.bind_eq_ok.2 ⟨(), requireKey_eq_ok_iff.2 hthird, hbrace⟩⟩⟩

/-! ### Staging -/

/-- Path parameters can be staged for every endpoint, if the resource has a name. -/
theorem exists_stagePath (endpoint : Text) (id : Value) (resource : Text) :
    ∃ path, stagePath endpoint id (.str resource) = .ok path := by
  refine Outcome.exists_mapM_eq_ok.2 fun name _ => ?_
  obtain ⟨description, hdescription⟩ : ∃ description,
      placeholderPhraseOf id (.str resource) = .ok description := by
    unfold placeholderPhraseOf
    split
    · split
      · exact ⟨_, rfl⟩
      · exact ⟨_, rfl⟩
    · exact ⟨_, rfl⟩
  rw [hdescription]
  exact ⟨_, rfl⟩

/-- There are path parameters exactly where a name is enclosed. -/
theorem ArePlaceholders.exists_iff {path : List Parameter} (h : ArePlaceholders endpoint path) :
    (∃ p, p ∈ path) ↔ ∃ name, Endpoint.Encloses endpoint name := by
  rw [← Endpoint.placeholders_ne_nil_iff, ← h.names, Ne, List.map_eq_nil_iff,
    List.eq_nil_iff_forall_not_mem, not_forall_not]

theorem IsStagedFrom.exists_path_iff {o : Operation} (h : IsStagedFrom enter fields o) :
    (∃ p ∈ o.parameters, p.location = .path) ↔ ∃ name, Endpoint.Encloses o.endpoint name := by
  obtain ⟨path, required, filters, hparameters, hpath, hrequired, hfilters⟩ := h.parameters
  have hquery {required : Bool} {listed : Fields} {ps : List Parameter}
      (hps : List.Forall₂ (IsQueryField enter required) listed ps) :
      ∀ p ∈ ps, p.location ≠ .path := by
    intro p hp hlocation
    obtain ⟨e, -, he⟩ := Outcome.exists_left_of_mem hps hp
    rw [he.location] at hlocation
    cases hlocation
  rw [← hpath.exists_iff, hparameters]
  constructor
  · rintro ⟨p, hp, hlocation⟩
    rcases List.mem_append.1 hp with hp | hp
    · rcases List.mem_append.1 hp with hp | hp
      · exact ⟨p, hp⟩
      · exact absurd hlocation (hquery hrequired p hp)
    · exact absurd hlocation (hquery hfilters p hp)
  · rintro ⟨p, hp⟩
    exact ⟨p, List.mem_append_left _ (List.mem_append_left _ hp), hpath.location p hp⟩

/-- **Route parameters.** An operation on one thing that passes the check has an opening brace in
its endpoint. Its path parameters can be staged, and wherever it is staged as a whole, it has path
parameters exactly if the endpoint encloses a name in braces. -/
theorem route_of_validate (henter : enter = id ∨ enter = Value.opened)
    (hfields : enter operation = .map fields)
    (hendpoint : Fields.get? "endpoint" fields = some (.str endpoint)) (hone : IsAboutOne fields)
    (h : validate enter operation = .ok ()) :
    Sign.char '\x7b' ∈ endpoint ∧
    (∀ id resource, ∃ path, stagePath endpoint id (.str resource) = .ok path ∧
      ((∃ p, p ∈ path) ↔ ∃ name, Endpoint.Encloses endpoint name)) ∧
    ∀ resource o, stageOperation enter resource operation = .ok o →
      ((∃ p ∈ o.parameters, p.location = .path) ↔ ∃ name, Endpoint.Encloses endpoint name) := by
  refine ⟨((validate_eq_ok_iff hfields hendpoint hone).1 h).2, fun id resource => ?_,
    fun resource o ho => ?_⟩
  · obtain ⟨path, hpath⟩ := exists_stagePath endpoint id resource
    exact ⟨path, hpath, (arePlaceholders_of_stagePath hpath).exists_iff⟩
  · obtain ⟨fields', hfields', hstaged⟩ :=
      isStagedFrom_of_stageOperation (keepsKeys_of_eq henter) ho
    rw [hfields, Value.map.injEq] at hfields'
    have hsame := hstaged.endpoint
    rw [← hfields', hendpoint, Option.some.injEq, Value.str, Value.str, Value.scalar.injEq,
      Scalar.str.injEq] at hsame
    rw [hsame]
    exact hstaged.exists_path_iff

/-- The entries of an operation that removes something, with its method in small letters. -/
def removing (endpoint : Text) : Fields :=
  [(.str "endpoint", .str endpoint), (.str "requestMethod", .str "delete"),
    (.str "operationId", .str "remove")]

theorem isAboutOne_removing (endpoint : Text) : IsAboutOne (removing endpoint) :=
  ⟨_, "DELETE", rfl, by decide +kernel, Or.inl rfl⟩

theorem route_removing : ∃ o, IsAboutOne (removing "/pets/\x7bid\x7d") ∧
    validate id (.map (removing "/pets/\x7bid\x7d")) = .ok () ∧
      stageOperation id (.str "pet") (.map (removing "/pets/\x7bid\x7d")) = .ok o ∧
      ∃ p ∈ o.parameters, p.location = .path := by
  obtain ⟨_, hvalid⟩ := Outcome.isOk_iff.1
    (by decide +kernel : (validate id (.map (removing "/pets/\x7bid\x7d"))).isOk = true)
  obtain ⟨o, ho⟩ := Outcome.isOk_iff.1 (by decide +kernel :
    (stageOperation id (.str "pet") (.map (removing "/pets/\x7bid\x7d"))).isOk = true)
  have hencloses : Endpoint.Encloses "/pets/\x7bid\x7d" "id" :=
    ⟨by decide, by decide, "/pets/", [], rfl⟩
  obtain ⟨-, -, hroute⟩ := route_of_validate (Or.inl rfl) rfl rfl (isAboutOne_removing _) hvalid
  exact ⟨o, isAboutOne_removing _, hvalid, ho, (hroute _ o ho).2 ⟨"id", hencloses⟩⟩

/-- An operation whose braces are empty passes the check and has no parameters at all. -/
theorem passes_without_route : IsAboutOne (removing "/pets/\x7b\x7d") ∧
    validate id (.map (removing "/pets/\x7b\x7d")) = .ok () ∧
    ∃ o, stageOperation id (.str "pet") (.map (removing "/pets/\x7b\x7d")) = .ok o ∧
      o.parameters = [] := by
  obtain ⟨_, hvalid⟩ := Outcome.isOk_iff.1
    (by decide +kernel : (validate id (.map (removing "/pets/\x7b\x7d"))).isOk = true)
  obtain ⟨o, ho, hempty⟩ := Outcome.exists_ok_of_any (by decide +kernel :
    (stageOperation id (.str "pet") (.map (removing "/pets/\x7b\x7d"))).toOption.any
      (fun o => o.parameters.isEmpty) = true)
  exact ⟨isAboutOne_removing _, hvalid, o, ho, List.isEmpty_iff.1 hempty⟩

end NodeForge.Outline
