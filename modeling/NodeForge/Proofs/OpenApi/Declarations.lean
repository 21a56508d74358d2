import NodeForge.Proofs.Document.Entries
import NodeForge.Proofs.Document.Sameness
import NodeForge.Proofs.OpenApi.Mention

/-!
# The declarations in force

The parameters of an operation are declared for its path and for itself. `Mention.inForce` says
which of these declarations count: of those with the same place and name the last one, at the place
where the first one stands (`mem_inForce_iff`). It goes through the declarations alone and cannot
fail. If the declarations of an operation can be read at all, they are these
(`declares_of_declarations`).
-/

namespace NodeForge.OpenApi

/-! ### Declarations that count -/

/-- The place and name of a declaration, if they can be a key. -/
def declarationKey? (raw : Fields) : Option DeclarationKey :=
  match keyPart (Fields.get "in" raw), keyPart (nameOf raw) with
  | .ok place, .ok name => some (place, name)
  | _, _ => none

/-- Declarations under their keys. -/
def keyed (raws : List Fields) : List (DeclarationKey × Fields) :=
  raws.filterMap fun raw => (declarationKey? raw).map fun key => (key, raw)

/-- Whether a declaration is for a given place. -/
def isIn (place : Text) (raw : Fields) : Bool := (Fields.get "in" raw).isText place

namespace Mention

/-- The parameters that the operation itself declares. -/
def own (m : Mention) : List Fields := mappingsOf ((parametersOf m.fields).toOption.getD [])

/-- All declarations for the operation, those of its path first. What has no name declares
nothing. -/
def declared (m : Mention) : List Fields := (m.shared ++ m.own).filter (Fields.has "name")

/-- The declarations that count: for each place and name the last one, in the order in which places
and names come up first. -/
def inForce (m : Mention) : List Fields :=
  let rows := keyed m.declared
  (Entries.distinct (Entries.keys rows)).filterMap fun key => rows.reverse.lookup key

/-- The declared query parameters. -/
def query (m : Mention) : List Fields := m.inForce.filter (isIn "query")

/-- The declared query parameters that are mandatory. -/
def requiredQuery (m : Mention) : List Fields := m.query.filter isRequired

/-- The other declared query parameters. -/
def optionalQuery (m : Mention) : List Fields := m.query.filter fun raw => !isRequired raw

/-- Whether a row is that of the declarations that count, each under a key that is the same as its
own. -/
structure Declares (m : Mention) (declared : List (DeclarationKey × Fields)) : Prop where
  values : declared.map Prod.snd = m.inForce
  keys : ∀ d ∈ declared, ∃ key, declarationKey? d.2 = some key ∧ (d.1 == key) = true
  apart : declared.Pairwise fun d d' => (d.1 == d'.1) = false

end Mention

/-! ### Reading declarations -/

theorem keyPart_eq_ok_one {v : Value} {s : Scalar} : keyPart v = .ok (.one s) ↔ v = .scalar s := by
  cases v with
  | scalar t => simp [keyPart]
  | pair a b => cases a <;> cases b <;> simp [keyPart]
  | _ => simp [keyPart]

theorem declarationKey?_eq_some {raw : Fields} {key : DeclarationKey} :
    declarationKey? raw = some key ↔
      keyPart (Fields.get "in" raw) = .ok key.1 ∧ keyPart (nameOf raw) = .ok key.2 := by
  obtain ⟨place, name⟩ := key
  unfold declarationKey?
  cases keyPart (Fields.get "in" raw) <;> cases keyPart (nameOf raw) <;> simp

/-- A declaration that can be read stands under its key. -/
theorem declarationOf_eq_ok {raw : Value} {d : Option (DeclarationKey × Fields)}
    (h : declarationOf raw = .ok d) :
    d = raw.fields?.bind fun fields =>
      if Fields.has "name" fields then (declarationKey? fields).map fun key => (key, fields)
      else none := by
  unfold declarationOf at h
  split at h
  · next fields =>
    show d = if Fields.has "name" fields then _ else none
    split at h
    · next hname =>
      obtain ⟨place, hplace, h⟩ := Outcome.bind_eq_ok.1 h
      obtain ⟨name, hname', h⟩ := Outcome.bind_eq_ok.1 h
      rw [Outcome.pure_eq_ok] at h
      have hkey : declarationKey? fields = some (place, name) :=
        declarationKey?_eq_some.2 ⟨hplace, hname'⟩
      rw [if_pos hname, hkey, ← h]
      rfl
    · next hname =>
      rw [Except.ok.injEq] at h
      rw [if_neg hname, h]
  · next hnot =>
    rw [Except.ok.injEq] at h
    cases raw with
    | map fields => exact absurd rfl (hnot fields)
    | _ => exact h.symm

/-- Every named declaration that was read has a key. -/
theorem exists_declarationKey {fields : Fields} {d : Option (DeclarationKey × Fields)}
    (hname : Fields.has "name" fields = true) (h : declarationOf (.map fields) = .ok d) :
    ∃ key, declarationKey? fields = some key := by
  unfold declarationOf at h
  dsimp only at h
  rw [if_pos hname] at h
  obtain ⟨place, hplace, h⟩ := Outcome.bind_eq_ok.1 h
  obtain ⟨name, hname', -⟩ := Outcome.bind_eq_ok.1 h
  exact ⟨(place, name), declarationKey?_eq_some.2 ⟨hplace, hname'⟩⟩

theorem mappingsOf_map (rows : List Fields) : mappingsOf (rows.map Value.map) = rows := by
  rw [mappingsOf, List.filterMap_map]
  exact List.filterMap_some

/-- The declarations that were found are those with a name, under their keys. -/
theorem filterMap_found {m : Mention} {own : List Value}
    {found : List (Option (DeclarationKey × Fields))} (hown : parametersOf m.fields = .ok own)
    (h : (m.shared.map Value.map ++ own).mapM declarationOf = .ok found) :
    found.filterMap id = keyed m.declared := by
  have hmappings : mappingsOf (m.shared.map Value.map ++ own) = m.shared ++ m.own := by
    rw [mappingsOf, List.filterMap_append]
    show mappingsOf (m.shared.map Value.map) ++ mappingsOf own = _
    rw [mappingsOf_map, Mention.own, hown]
    rfl
  rw [Outcome.mapM_eq_map h fun _ _ _ hd => declarationOf_eq_ok hd, List.filterMap_map, keyed,
    Mention.declared, List.filterMap_filter, ← hmappings, mappingsOf, List.filterMap_filterMap]
  rfl

theorem declarationKey?_of_mem_keyed {raws : List Fields} {d : DeclarationKey × Fields}
    (hd : d ∈ keyed raws) : declarationKey? d.2 = some d.1 := by
  obtain ⟨raw, -, hraw⟩ := List.mem_filterMap.1 hd
  obtain ⟨key, hkey, rfl⟩ := Option.map_eq_some_iff.1 hraw
  exact hkey

/-- **The declarations in force.** If the declarations of an operation can be read, each of them has
a key, and what is made of them is the row of those that count. -/
theorem declares_of_declarations {m : Mention} {resource : Text}
    {declared : List (DeclarationKey × Fields)}
    (h : declarations (m.context resource) = .ok declared) :
    (∀ raw ∈ m.declared, ∃ key, declarationKey? raw = some key) ∧ m.Declares declared := by
  obtain ⟨own, hown, h⟩ := Outcome.bind_eq_ok.1 h
  change parametersOf m.fields = .ok own at hown
  obtain ⟨found, hfound, h⟩ := Outcome.bind_eq_ok.1 h
  rw [Outcome.pure_eq_ok] at h
  have hrows := filterMap_found hown hfound
  rw [hrows] at h
  refine ⟨fun raw hraw => ?_, ?_, ?_, ?_⟩
  -- every declaration was read, so it has a key
  · obtain ⟨hmem, hname⟩ := List.mem_filter.1 hraw
    have hvalue : Value.map raw ∈ m.shared.map Value.map ++ own := by
      rcases List.mem_append.1 hmem with hshared | hown'
      · exact List.mem_append_left _ (List.mem_map_of_mem hshared)
      · rw [Mention.own, hown] at hown'
        obtain ⟨v, hv, hfields⟩ := List.mem_filterMap.1 hown'
        cases v with
        | map fields =>
          cases hfields
          exact List.mem_append_right _ hv
        | _ => cases hfields
    obtain ⟨d, -, hd⟩ := Outcome.exists_ok_of_mem hfound hvalue
    exact exists_declarationKey hname hd
  -- the values are the last ones written under the different keys
  · rw [← h, Entries.ofList_eq, List.map_filterMap, Mention.inForce]
    refine List.filterMap_congr fun key _ => ?_
    cases (keyed m.declared).reverse.lookup key <;> rfl
  -- a key that was written first may be spelled in another way than the own one
  · intro d hd
    rw [← h, Entries.ofList_eq] at hd
    obtain ⟨key, -, hd⟩ := List.mem_filterMap.1 hd
    obtain ⟨raw, hraw, rfl⟩ := Option.map_eq_some_iff.1 hd
    obtain ⟨own, hmem, hsame⟩ := Entries.mem_of_lookup_eq_some hraw
    exact ⟨own, declarationKey?_of_mem_keyed (List.mem_reverse.1 hmem), hsame⟩
  · rw [← h, ← List.pairwise_map (f := Prod.fst) (R := fun k k' => (k == k') = false)]
    show (Entries.keys (Entries.ofList _)).Pairwise _
    rw [Entries.keys_ofList]
    exact Entries.pairwise_distinct _

/-- **Later declarations win.** A declaration is in force exactly if none behind it has the same
place and name. Those of the operation stand behind those of its path. -/
theorem mem_inForce_iff {m : Mention} {raw : Fields} :
    raw ∈ m.inForce ↔ ∃ before key behind, keyed m.declared = before ++ (key, raw) :: behind ∧
      ∀ d ∈ behind, (key == d.1) = false := by
  rw [Mention.inForce, List.mem_filterMap]
  constructor
  · rintro ⟨key, -, hlookup⟩
    obtain ⟨behind, own, before, hrows, hsame, hbehind⟩ := Entries.lookup_eq_some_iff.1 hlookup
    have hsplit : keyed m.declared = before.reverse ++ (own, raw) :: behind.reverse := by
      rw [← List.reverse_reverse (keyed m.declared), hrows]
      simp
    refine ⟨before.reverse, own, behind.reverse, hsplit, fun d hd => ?_⟩
    rw [← BEq.congr_left hsame]
    exact hbehind d (List.mem_reverse.1 hd)
  · rintro ⟨before, key, behind, hsplit, hbehind⟩
    -- the key that stands for this one may be spelled in another way
    have hmem : key ∈ Entries.keys (keyed m.declared) := by
      rw [hsplit, Entries.keys, List.map_append]
      exact List.mem_append_right _ List.mem_cons_self
    obtain ⟨left, hleft, hsame⟩ := Entries.exists_mem_distinct hmem
    refine ⟨left, hleft, Entries.lookup_eq_some_iff.2
      ⟨behind.reverse, key, before.reverse, ?_, hsame, fun d hd => ?_⟩⟩
    · rw [hsplit]
      simp
    · rw [BEq.congr_left hsame]
      exact hbehind d (List.mem_reverse.1 hd)

/-! ### Names of properties -/

/-- A property is called like its declaration. A pair of keys is no name, and null stands for it. -/
theorem eq_of_propertyKey {name : Value} {key : Scalar} (h : propertyKey name = .ok key) :
    name = .scalar key ∨ ∃ a b, name = .pair a b ∧ key = .null := by
  obtain ⟨member, hmember, h⟩ := Outcome.bind_eq_ok.1 h
  rw [Outcome.pure_eq_ok] at h
  unfold Value.asMember at hmember
  split at hmember
  · next a b =>
    cases hmember
    exact Or.inr ⟨.scalar a, .scalar b, rfl, h.symm⟩
  · obtain ⟨own, hown, rfl⟩ := Outcome.map_eq_ok.1 hmember
    rw [Option.getD_some] at h
    rw [h] at hown
    cases name with
    | scalar s =>
      cases hown
      exact Or.inl rfl
    | _ => cases hown

/-! ### Declarations for one place -/

theorem isText_iff {s : Text} {v : Value} : v.isText s = true ↔ v = .str s := by
  rw [Value.isText, beq_iff_eq]
  cases v with
  | scalar t => cases t <;> simp [Value.text?]
  | _ => simp [Value.text?]

theorem keyPart_beq_str_iff {k : KeyPart} {s : Text} :
    (k == .one (.str s)) = true ↔ k = .one (.str s) := by
  cases k with
  | one t =>
    show (t == Scalar.str s) = true ↔ _
    rw [Scalar.beq_str_iff, KeyPart.one.injEq]
  | two a b => exact iff_of_false nofun nofun

/-- The place in the key of a declaration is the one that it is for. -/
theorem key_beq_str_eq_isIn {raw : Fields} {key : DeclarationKey}
    (h : declarationKey? raw = some key) (place : Text) :
    (key.1 == KeyPart.one (.str place)) = isIn place raw := by
  rw [Bool.eq_iff_iff]
  calc (key.1 == KeyPart.one (.str place)) = true
      ↔ key.1 = .one (.str place) := keyPart_beq_str_iff
    _ ↔ keyPart (Fields.get "in" raw) = .ok (.one (.str place)) := by
        rw [(declarationKey?_eq_some.1 h).1, Except.ok.injEq]
    _ ↔ isIn place raw = true := by
        rw [keyPart_eq_ok_one, isIn, isText_iff]

/-- What travels in a place is what declares it. -/
theorem declaredIn_eq {m : Mention} {declared : List (DeclarationKey × Fields)}
    (h : m.Declares declared) (place : Text) :
    declaredIn place declared = m.inForce.filter (isIn place) := by
  rw [declaredIn, ← h.values, List.filter_map]
  refine congrArg (List.map Prod.snd) (List.filter_congr fun d hd => ?_)
  obtain ⟨key, hkey, hsame⟩ := h.keys d hd
  show (d.1.1 == KeyPart.one (.str place)) = isIn place d.2
  rw [BEq.congr_left (declarationKey_beq_iff.1 hsame).1, key_beq_str_eq_isIn hkey]

end NodeForge.OpenApi
