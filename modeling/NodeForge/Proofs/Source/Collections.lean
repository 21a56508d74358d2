import NodeForge.Proofs.Document.Sameness
import NodeForge.Proofs.Source.Fields

/-!
# What the collections of an operation hold

The optional fields of an operation are shown in collections, one for each group: a body field and
a query field under one group name share a collection. `holdsKey_groupsOf_iff` says which keys a
group holds, and `offers_of_holdsKey` that the collection of the group has an option for each of
them, under the key itself.
-/

namespace NodeForge.Source

/-! ### Groups -/

/-- Whether a group holds a key. -/
def HoldsKey (groups : Groups) (name : GroupName) (key : Scalar) : Prop :=
  ∃ properties, groups.lookup name = some properties ∧ Entries.has key properties = true

variable {groups : Groups} {name : GroupName} {key : Scalar}

theorem holdsKey_add_iff {added : GroupName} {properties : Fields} :
    HoldsKey (groups.add added properties) name key ↔
      HoldsKey groups name key ∨ added = name ∧ Entries.has key properties = true := by
  unfold HoldsKey Groups.add
  rw [Entries.lookup_put]
  by_cases hname : name = added
  · rw [← hname, BEq.rfl, if_pos rfl]
    simp only [Option.some.injEq, exists_eq_left', Entries.has_putAll, Bool.or_eq_true, true_and]
    cases groups.lookup name <;> simp
  · have hbeq : (name == added) = false := beq_eq_false_iff_ne.2 hname
    have hnot : ¬ added = name := fun heq => hname heq.symm
    rw [hbeq, if_neg Bool.false_ne_true]
    simp only [hnot, false_and, or_false]

/-- What is added to groups part by part is held in the end. -/
theorem holdsKey_foldl_iff {parts : List (GroupName × Fields)} :
    HoldsKey (parts.foldl (fun groups part => Groups.add groups part.1 part.2) groups) name key ↔
      HoldsKey groups name key ∨ ∃ part ∈ parts, part.1 = name ∧ Entries.has key part.2 = true := by
  induction parts generalizing groups with
  | nil => simp
  | cons part rest ih =>
    rw [List.foldl_cons, ih, holdsKey_add_iff, or_assoc]
    simp only [List.mem_cons, exists_eq_or_imp]

theorem has_groupProperties {g : FieldGroup} :
    Entries.has key (groupProperties g) = true ↔ ∃ p ∈ g.options, key = .str p.name := by
  rw [groupProperties, Entries.has_ofList, Entries.has_iff_exists]
  simp [Scalar.beq_str_iff]

variable {o : Operation}

/-- **Groups.** A group holds the properties of the bodies of its name and the query fields of the
groups of its name. -/
theorem holdsKey_groupsOf_iff (h : groupsOf o = .ok groups) :
    HoldsKey groups name key ↔
      (∃ b ∈ o.extraBodies, b.name = name ∧ ∃ properties, bodyProperties b = .ok properties ∧
        Entries.has key properties = true) ∨
      ∃ g ∈ o.fieldGroups, g.name = name ∧ ∃ p ∈ g.options, key = .str p.name := by
  obtain ⟨bodies, hbodies, h⟩ := Outcome.bind_eq_ok.1 h
  have hnone : ¬ HoldsKey [] name key := by
    rintro ⟨properties, hlookup, -⟩
    cases hlookup
  rw [← Outcome.pure_eq_ok.1 h, holdsKey_foldl_iff, or_iff_right hnone]
  simp only [List.mem_append, or_and_right, exists_or, Outcome.mem_iff_of_mapM hbodies,
    Outcome.bind_eq_ok, Outcome.pure_eq_ok]
  refine or_congr ?_ ?_
  · constructor
    · rintro ⟨part, ⟨b, hb, properties, hproperties, rfl⟩, rfl, hkey⟩
      exact ⟨b, hb, rfl, properties, hproperties, hkey⟩
    · rintro ⟨b, hb, rfl, properties, hproperties, hkey⟩
      exact ⟨_, ⟨b, hb, properties, hproperties, rfl⟩, rfl, hkey⟩
  · simp [has_groupProperties]

/-! ### Collections -/

/-- Whether blocks offer a key in a collection. -/
def Offers (blocks : List FieldBlock) (control key : Text) : Prop :=
  ∃ title prompt shown options, .collection control title prompt shown options ∈ blocks ∧
    key ∈ options.map FieldBlock.name

theorem names_of_ofEntries {entries : Fields} {blocks : List FieldBlock}
    (h : FieldBlock.ofEntries entries = .ok blocks) :
    blocks.map FieldBlock.name = entries.map fun e => e.1.text := by
  induction entries generalizing blocks with
  | nil =>
    cases h
    rfl
  | cons e rest ih =>
    obtain ⟨block, hblock, h⟩ := Outcome.bind_eq_ok.1 h
    obtain ⟨blocks', hblocks', h⟩ := Outcome.bind_eq_ok.1 h
    rw [← Outcome.pure_eq_ok.1 h, List.map_cons, List.map_cons, ih hblocks',
      (block_of_ofSchema hblock).1]

/-- The block for a group offers the properties of the group under their keys. -/
theorem offers_of_ofGroup {title : Text} {properties : Fields} {shown : Lines} {block : FieldBlock}
    (h : FieldBlock.ofGroup title (.map properties) shown = .ok block) {blocks : List FieldBlock}
    (hblock : block ∈ blocks) {k : Text} {schema : Value} (hkey : (.str k, schema) ∈ properties) :
    Offers blocks (Naming.camel title) k := by
  obtain ⟨entries, hentries, h⟩ := Outcome.bind_eq_ok.1 h
  obtain ⟨options, hoptions, h⟩ := Outcome.bind_eq_ok.1 h
  have heq : properties = entries := Except.ok.inj hentries
  rw [← Outcome.pure_eq_ok.1 h] at hblock
  refine ⟨_, _, _, _, hblock, ?_⟩
  rw [names_of_ofEntries hoptions, ← heq]
  exact List.mem_map.2 ⟨_, hkey, rfl⟩

/-- **Collections.** The collection of a group has an option for each text key that the group
holds, under this key. -/
theorem offers_of_holdsKey {resource : Text} {blocks : List FieldBlock}
    (h : operationBlocks resource o = .ok blocks) (hgroups : groupsOf o = .ok groups) {k : Text}
    (hkey : HoldsKey groups name (.str k)) : Offers blocks (Naming.camel name.text) k := by
  obtain ⟨parameters, standard, groups', blocksOfGroups, -, -, hgroups', hblocks, rfl⟩ :=
    operationBlocks_eq_ok h
  rw [← Except.ok.inj (hgroups.symm.trans hgroups')] at hblocks
  obtain ⟨properties, hlookup, hhas⟩ := hkey
  have hmem : (name, properties) ∈ groups := by
    obtain ⟨own, hown, hsame⟩ := Entries.mem_of_lookup_eq_some hlookup
    rwa [← eq_of_beq hsame] at hown
  obtain ⟨block, hblock, hgroup⟩ := Outcome.exists_ok_of_mem hblocks hmem
  obtain ⟨e, he, hsame⟩ := Entries.has_iff_exists.1 hhas
  have hmem' : (.str k, e.2) ∈ properties := by
    rw [← Scalar.str_beq_iff.1 hsame]
    exact he
  exact offers_of_ofGroup hgroup (List.mem_append_left _ (List.mem_append_right _ hblock)) hmem'

end NodeForge.Source
