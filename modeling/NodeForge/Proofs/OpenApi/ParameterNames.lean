import NodeForge.Proofs.OpenApi.Parameters
import NodeForge.Proofs.Text.Bytes

/-!
# When two parameters have one name

The parameter that gathers the optional query parameters is called `query`, whatever else is
declared. So it takes the name of a mandatory query parameter that is called `query` too. The only
other clash comes from a name that is given as a text and once more as bytes. `Mention.NamesClash`
says this about the declarations, and `nodup_keys_iff` that there are no other clashes.
-/

namespace NodeForge

/-- What tells parameters apart: where they travel, and their name. -/
def Parameter.key (p : Parameter) : Location × Text := (p.location, p.name)

namespace OpenApi

/-- The name that a declaration gives its parameter. -/
def nameIn (raw : Fields) : Option Text :=
  match Wire.checkText (nameOf raw) with
  | .good name => some name
  | .bad _ => none

/-- Whether two parameters get one name: an optional query parameter stands beside a mandatory one
that is called `query`, or two mandatory ones are called the same, one by a text and one by
bytes. -/
def Mention.NamesClash (m : Mention) : Prop :=
  (m.optionalQuery ≠ [] ∧ ∃ raw ∈ m.requiredQuery, nameIn raw = some ("query" : Text)) ∨
    ∃ a ∈ m.requiredQuery, ∃ b ∈ m.requiredQuery, ∃ name bytes,
      nameOf a = .str name ∧ nameOf b = .scalar (.bytes bytes) ∧ nameIn b = some name

/-! ### Names of declarations -/

theorem nameIn_eq_some {raw : Fields} {name : Text} :
    nameIn raw = some name ↔ Wire.checkText (nameOf raw) = .good name := by
  unfold nameIn
  split
  · next found hfound => rw [hfound, Option.some.injEq, Checked.good.injEq]
  · next hbad =>
    rw [hbad]
    exact iff_of_false nofun nofun

/-- Bytes are the UTF-8 form of one text at most. -/
theorem bytes_eq_of_checkText {a b : List UInt8} {name : Text}
    (ha : Wire.checkText (.scalar (.bytes a)) = .good name)
    (hb : Wire.checkText (.scalar (.bytes b)) = .good name) : a = b := by
  obtain ⟨cs, hcs, hforma⟩ := Text.exists_utf8_of_checkText ha
  obtain ⟨ds, hds, hformb⟩ := Text.exists_utf8_of_checkText hb
  have hsame : cs = ds :=
    List.map_injective_iff.2 (fun _ _ h => Sign.char.inj h) (hcs.symm.trans hds)
  rw [hforma, hformb, hsame]

/-- A text or bytes is all that a name can be. -/
theorem nameOf_of_nameIn {raw : Fields} {name : Text} (h : nameIn raw = some name) :
    nameOf raw = .str name ∨ ∃ bytes, nameOf raw = .scalar (.bytes bytes) := by
  rw [nameIn_eq_some] at h
  cases hraw : nameOf raw with
  | scalar s =>
    cases s with
    | str t =>
      rw [hraw] at h
      cases h
      exact Or.inl rfl
    | bytes bs => exact Or.inr ⟨bs, rfl⟩
    | _ =>
      rw [hraw] at h
      cases h
  | _ =>
    rw [hraw] at h
    cases h

/-! ### Declarations in force have different keys -/

theorem apart_inForce {m : Mention} {declared : List (DeclarationKey × Fields)}
    (h : m.Declares declared) :
    m.inForce.Pairwise fun a b => ∀ k k', declarationKey? a = some k → declarationKey? b = some k' →
      (k == k') = false := by
  rw [← h.values, List.pairwise_map]
  refine h.apart.imp_of_mem fun {d d'} hd hd' hne k k' hk hk' => ?_
  obtain ⟨own, hown, hsame⟩ := h.keys d hd
  obtain ⟨own', hown', hsame'⟩ := h.keys d' hd'
  rw [hown, Option.some.injEq] at hk
  rw [hown', Option.some.injEq] at hk'
  rw [← hk, ← hk']
  by_contra heq
  have hchain : (d.1 == d'.1) = true :=
    BEq.trans hsame (BEq.trans (by simpa using heq) (BEq.symm hsame'))
  rw [hne] at hchain
  cases hchain

/-- Two query parameters in force are not declared under one and the same name. -/
theorem nameOf_ne_of_query {m : Mention} {declared : List (DeclarationKey × Fields)}
    (h : m.Declares declared) :
    m.query.Pairwise fun a b => ∀ s, nameOf a = .scalar s → nameOf b ≠ .scalar s := by
  have hkey {raw : Fields} {s : Scalar} (hraw : raw ∈ m.query) (hname : nameOf raw = .scalar s) :
      declarationKey? raw = some (.one (.str "query"), .one s) := by
    have hplace := isText_iff.1 (List.mem_filter.1 hraw).2
    exact declarationKey?_eq_some.2 ⟨keyPart_eq_ok_one.2 hplace, keyPart_eq_ok_one.2 hname⟩
  refine ((apart_inForce h).sublist List.filter_sublist).imp_of_mem ?_
  intro a b ha hb hne s hsa hsb
  have hfalse := hne _ _ (hkey ha hsa) (hkey hb hsb)
  rw [BEq.refl] at hfalse
  cases hfalse

/-- The mandatory query parameters get different names, unless a text and bytes make one. -/
theorem nodup_nameIn_iff {m : Mention} {declared : List (DeclarationKey × Fields)}
    (h : m.Declares declared) (hnamed : ∀ raw ∈ m.requiredQuery, ∃ name, nameIn raw = some name) :
    (m.requiredQuery.map nameIn).Nodup ↔
      ¬ ∃ a ∈ m.requiredQuery, ∃ b ∈ m.requiredQuery, ∃ name bytes,
        nameOf a = .str name ∧ nameOf b = .scalar (.bytes bytes) ∧ nameIn b = some name := by
  constructor
  · rintro hnodup ⟨a, ha, b, hb, name, bytes, hname, hbytes, hsame⟩
    have hnameIn : nameIn a = some name := by
      rw [nameIn_eq_some, hname]
      rfl
    have hab : a = b := List.inj_on_of_nodup_map hnodup ha hb (hnameIn.trans hsame.symm)
    rw [hab, hbytes] at hname
    cases hname
  · intro hclash
    have hapart := (nameOf_ne_of_query h).sublist (List.filter_sublist (p := isRequired))
    refine List.pairwise_map.2 (hapart.imp_of_mem fun {a b} ha hb hne heq => ?_)
    obtain ⟨name, hna⟩ := hnamed a ha
    have hnb : nameIn b = some name := heq ▸ hna
    -- two texts or two rows of bytes would be one key, and a text with bytes is the clash
    rcases nameOf_of_nameIn hna with hsa | ⟨bytes, hsa⟩
    · rcases nameOf_of_nameIn hnb with hsb | ⟨bytes, hsb⟩
      · exact hne _ hsa hsb
      · exact hclash ⟨a, ha, b, hb, name, bytes, hsa, hsb, hnb⟩
    · rcases nameOf_of_nameIn hnb with hsb | ⟨bytes', hsb⟩
      · exact hclash ⟨b, hb, a, ha, name, bytes, hsb, hsa, hna⟩
      · rw [nameIn_eq_some, hsa] at hna
        rw [nameIn_eq_some, hsb] at hnb
        rw [bytes_eq_of_checkText hna hnb] at hsa
        exact hne _ hsa hsb

/-! ### Keys of the three parts -/

theorem keys_path {m : Mention} {endpoint : Text} {path required gathered : List Parameter}
    (h : m.Parts endpoint path required gathered) :
    path.map Parameter.key = (Endpoint.placeholders endpoint).map fun name => (.path, name) := by
  refine (Outcome.map_eq_map_of_forall₂ (fun name p hp => ?_) h.forall₂_placeholders).symm
  obtain ⟨hname, raw, hmade, -⟩ := hp
  rw [Parameter.key, hmade.location, hname]

theorem keys_required {m : Mention} {endpoint : Text} {path required gathered : List Parameter}
    (h : m.Parts endpoint path required gathered) :
    required.map Parameter.key = (required.map Parameter.name).map fun name => (.query, name) := by
  rw [List.map_map]
  refine List.map_congr_left fun p hp => ?_
  obtain ⟨raw, -, hmade⟩ := Outcome.exists_left_of_mem h.required hp
  show (p.location, p.name) = (.query, p.name)
  rw [hmade.location]

theorem names_required {m : Mention} {endpoint : Text} {path required gathered : List Parameter}
    (h : m.Parts endpoint path required gathered) :
    m.requiredQuery.map nameIn = (required.map Parameter.name).map some := by
  rw [List.map_map]
  exact Outcome.map_eq_map_of_forall₂ (fun _ _ hp => nameIn_eq_some.2 hp.name) h.required

/-- The placeholders keep to themselves, so the names of the mandatory query parameters decide
whether all keys before the gathered one are different. -/
theorem nodup_front_iff {m : Mention} {endpoint : Text} {path required gathered : List Parameter}
    (h : m.Parts endpoint path required gathered) :
    ((path ++ required).map Parameter.key).Nodup ↔ (required.map Parameter.name).Nodup := by
  have hpath : ((Endpoint.placeholders endpoint).map fun name => (Location.path, name)).Nodup :=
    (Entries.nodup_distinct _).map fun _ _ hkey => (Prod.mk.inj hkey).2
  have hquery : ((required.map Parameter.name).map fun name => (Location.query, name)).Nodup ↔
      (required.map Parameter.name).Nodup :=
    List.nodup_map_iff fun _ _ hkey => (Prod.mk.inj hkey).2
  rw [List.map_append, keys_path h, keys_required h, List.nodup_append, hquery]
  refine ⟨fun hparts => hparts.2.1, fun hnames => ⟨hpath, hnames, ?_⟩⟩
  intro a ha b hb heq
  obtain ⟨name, -, rfl⟩ := List.mem_map.1 ha
  obtain ⟨name', -, rfl⟩ := List.mem_map.1 hb
  cases heq

/-- The keys are all different if the names of the mandatory query parameters are, and the gathered
one does not get one of them. -/
theorem nodup_keys_iff {m : Mention} {endpoint : Text} {path required gathered : List Parameter}
    (h : m.Parts endpoint path required gathered) :
    ((path ++ required ++ gathered).map Parameter.key).Nodup ↔
      (required.map Parameter.name).Nodup ∧
        (m.optionalQuery ≠ [] → ("query" : Text) ∉ required.map Parameter.name) := by
  rw [List.map_append, List.nodup_append, nodup_front_iff h]
  rcases h.gathered with ⟨hnone, rfl⟩ | ⟨hsome, p, rfl, hp⟩
  · simp [hnone]
  · have hkey : p.key = (Location.query, ("query" : Text)) := by
      rw [Parameter.key, hp.location, hp.name]
    rw [List.map_singleton, hkey]
    constructor
    · rintro ⟨hnames, -, hnew⟩
      refine ⟨hnames, fun _ hmem => hnew _ ?_ _ (List.mem_singleton.2 rfl) rfl⟩
      rw [List.map_append, keys_required h]
      exact List.mem_append_right _ (List.mem_map_of_mem hmem)
    · rintro ⟨hnames, hnew⟩
      refine ⟨hnames, List.nodup_singleton _, fun a ha b hb heq => hnew hsome ?_⟩
      rw [List.mem_singleton] at hb
      rw [heq, hb, List.map_append, keys_path h, keys_required h] at ha
      rcases List.mem_append.1 ha with hpath | hrequired
      -- a placeholder makes no query parameter
      · obtain ⟨name, -, hname⟩ := List.mem_map.1 hpath
        cases hname
      · obtain ⟨name, hmem, hname⟩ := List.mem_map.1 hrequired
        rwa [(Prod.mk.inj hname).2] at hmem

/-- **No other clashes.** The parameters of an operation are all different exactly if its
declarations do not clash. -/
theorem nodup_iff_not_namesClash {m : Mention} {endpoint : Text}
    {path required gathered : List Parameter} {declared : List (DeclarationKey × Fields)}
    (hdeclares : m.Declares declared) (h : m.Parts endpoint path required gathered) :
    ((path ++ required ++ gathered).map Parameter.key).Nodup ↔ ¬ m.NamesClash := by
  have hnames := names_required h
  have hnamed : ∀ raw ∈ m.requiredQuery, ∃ name, nameIn raw = some name := by
    intro raw hraw
    obtain ⟨p, -, hp⟩ := Outcome.exists_right_of_mem h.required hraw
    exact ⟨p.name, nameIn_eq_some.2 hp.name⟩
  have hnodup : (required.map Parameter.name).Nodup ↔ (m.requiredQuery.map nameIn).Nodup := by
    rw [hnames, List.nodup_map_iff (Option.some_injective _)]
  have hquery : ("query" : Text) ∈ required.map Parameter.name ↔
      ∃ raw ∈ m.requiredQuery, nameIn raw = some ("query" : Text) := by
    rw [← List.mem_map, hnames, List.mem_map_of_injective (Option.some_injective _)]
  rw [nodup_keys_iff h, hnodup, nodup_nameIn_iff hdeclares hnamed, hquery, Mention.NamesClash,
    not_or, not_and, and_comm]

/-! ### Staged operations -/

variable {given : Option Text} {nodeColor : Text} {document : Value} {staged : Staged}

/-- **When parameters are told apart.** The parameters of a staged operation differ in their places
and names exactly if the declarations that it is made from do not clash. -/
theorem nodup_keys_of_stage (h : stage given nodeColor document = .ok staged) :
    ∀ e ∈ staged.model.resources, ∀ o ∈ e.2,
      ∃ m ∈ mentions document, e.1 ∈ m.resources ∧ m.Makes e.1 o.operationId o ∧
        ((o.parameters.map Parameter.key).Nodup ↔ ¬ m.NamesClash) := by
  intro e he o ho
  obtain ⟨m, hm, hresource, hmakes⟩ := exists_mention_of_mem h he ho
  obtain ⟨dropped, hparameters⟩ := hmakes.parameters
  obtain ⟨declared, hdeclared, -⟩ := Outcome.bind_eq_ok.1 hparameters
  have hdeclares := (declares_of_declarations (Outcome.lift_eq_ok.1 hdeclared)).2
  obtain ⟨path, required, gathered, heq, hparts⟩ :=
    parts_of_stageParameters hmakes.endpoint hparameters
  refine ⟨m, hm, hresource, hmakes, ?_⟩
  rw [heq]
  exact nodup_iff_not_namesClash hdeclares hparts

/-- A shop where a mandatory query parameter is called `query` and another one is optional. -/
def searchShop : Value :=
  .record [("paths", .record [("/pets", .record [("get", .record [("parameters", .list [
    .record [("in", .str "query"), ("name", .str "query"), ("required", .bool true)],
    .record [("in", .str "query"), ("name", .str "page")]])])])])]

theorem nodup_keys_searchShop : ∃ staged, stage none defaultNodeColor searchShop = .ok staged ∧
    ∀ e ∈ staged.model.resources, ∀ o ∈ e.2, ∃ m ∈ mentions searchShop,
      ((o.parameters.map Parameter.key).Nodup ↔ ¬ m.NamesClash) := by
  obtain ⟨staged, h⟩ := isStageable_iff.1
    (by decide +kernel : isStageable none defaultNodeColor searchShop = true)
  refine ⟨staged, h, fun e he o ho => ?_⟩
  obtain ⟨m, hm, -, -, hiff⟩ := nodup_keys_of_stage h e he o ho
  exact ⟨m, hm, hiff⟩

/-- In this shop two parameters of one operation cannot be told apart. -/
theorem not_nodup_keys_searchShop : ∃ staged,
    stage none defaultNodeColor searchShop = .ok staged ∧
      ∃ e ∈ staged.model.resources, ∃ o ∈ e.2, ¬ (o.parameters.map Parameter.key).Nodup := by
  have hclash : ((stage none defaultNodeColor searchShop).toOption.any fun staged =>
      staged.model.resources.any fun e => e.2.any fun o =>
        !decide (o.parameters.map Parameter.key).Nodup) = true := by
    decide +kernel
  cases h : stage none defaultNodeColor searchShop with
  | error e =>
    rw [h] at hclash
    cases hclash
  | ok staged =>
    rw [h] at hclash
    obtain ⟨e, he, hclash⟩ := List.any_eq_true.1 hclash
    obtain ⟨o, ho, hclash⟩ := List.any_eq_true.1 hclash
    exact ⟨staged, rfl, e, he, o, ho, by simpa using hclash⟩

end OpenApi

end NodeForge
