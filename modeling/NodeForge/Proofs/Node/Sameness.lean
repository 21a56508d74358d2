import NodeForge.Node.Basic
import NodeForge.Proofs.Document.Entries
import NodeForge.Proofs.Document.Sameness

/-!
# What is the same as itself

Mappings are compared by looking up each key of the one in the other, so a mapping is the same as
itself as long as no key comes up twice. A value in which all mappings are of this kind is called
sound, and so is an operation that is made of such values. A sound operation is the same as itself
(`Operation.same_self`), and it is found in a row at its place if no earlier one is the same.
-/

namespace NodeForge

namespace Entries

variable {κ α : Type} [BEq κ]

/-- Where keys are apart, each entry is found under its key. -/
theorem lookup_of_apart [EquivBEq κ] {entries : List (κ × α)} (h : Apart entries) {e : κ × α}
    (he : e ∈ entries) : entries.lookup e.1 = some e.2 := by
  induction entries with
  | nil => cases he
  | cons first rest ih =>
    obtain ⟨hfirst, hrest⟩ := apart_cons_iff.1 h
    rw [List.lookup_cons]
    rcases List.mem_cons.1 he with rfl | he
    · rw [BEq.refl]
    · rw [BEq.comm, hfirst e.1 (List.mem_map_of_mem he)]
      exact ih hrest he

end Entries

/-! ### Values -/

namespace Value

mutual

/-- Whether no mapping in a value has a key twice. -/
def isSound : Value → Bool
  | .list xs => soundItems xs
  | .pair a b => isSound a && isSound b
  | .map es => decide (Entries.Apart es) && soundFields es
  | .scalar _ | .set _ | .again _ _ => true

/-- Whether all values of a row are sound. -/
def soundItems : List Value → Bool
  | [] => true
  | x :: xs => isSound x && soundItems xs

/-- Whether all values of a mapping are sound. -/
def soundFields : List (Scalar × Value) → Bool
  | [] => true
  | (_, v) :: es => isSound v && soundFields es

end

mutual

/-- A sound value is the same as itself. -/
theorem same_self : ∀ {v : Value}, v.isSound = true → v.same v = true
  | .scalar s, _ => s.same_self
  | .list _, h => sameItems_self h
  | .pair a b, h => by
    rw [isSound, Bool.and_eq_true] at h
    rw [same, same_self h.1, same_self h.2, Bool.and_self]
  | .map es, h => by
    rw [isSound, Bool.and_eq_true, decide_eq_true_iff] at h
    rw [same, beq_self_eq_true, Bool.true_and]
    exact sameFields_of_lookup h.2 fun e he => Entries.lookup_of_apart h.1 he
  | .set members, _ => by
    rw [same, beq_self_eq_true, Bool.true_and, List.all_eq_true]
    exact fun x hx => List.any_eq_true.2 ⟨x, hx, x.same_self⟩
  | .again shape outward, _ => by rw [same, beq_self_eq_true, beq_self_eq_true, Bool.and_self]

theorem sameItems_self : ∀ {xs : List Value}, soundItems xs = true → sameItems xs xs = true
  | [], _ => rfl
  | x :: xs, h => by
    rw [soundItems, Bool.and_eq_true] at h
    rw [sameItems, same_self h.1, sameItems_self h.2, Bool.and_self]

/-- Entries that are found in a mapping have the same values there. -/
theorem sameFields_of_lookup : ∀ {es fs : Fields}, soundFields es = true →
    (∀ e ∈ es, fs.lookup e.1 = some e.2) → sameFields es fs = true
  | [], _, _, _ => rfl
  | (k, v) :: es, fs, hsound, hfound => by
    rw [soundFields, Bool.and_eq_true] at hsound
    have hfirst : fs.lookup k = some v := hfound _ List.mem_cons_self
    rw [sameFields, hfirst, sameFields_of_lookup hsound.2 fun e he => hfound e (.tail _ he)]
    simpa using same_self hsound.1

end

end Value

/-! ### Operations -/

theorem sameRow_self {α : Type} {same : α → α → Bool} {row : List α}
    (h : ∀ a ∈ row, same a a = true) : sameRow same row row = true := by
  induction row with
  | nil => rfl
  | cons a rest ih =>
    rw [sameRow, h a List.mem_cons_self, ih fun b hb => h b (.tail _ hb), Bool.and_self]

theorem sameOption_self {α : Type} {same : α → α → Bool} {a? : Option α}
    (h : ∀ a ∈ a?, same a a = true) : sameOption same a? a? = true := by
  cases a? with
  | none => rfl
  | some a => exact h a rfl

theorem Example.same_self (e : Example) : e.same e = true := by
  cases e with
  | real x => exact Scalar.same_self (.float x)
  | _ => simp [same]

/-- The content of a body as a mapping. -/
def RequestBody.contentValue (b : RequestBody) : Value :=
  .map (b.content.map fun e => (.str e.1, .map e.2))

def Parameter.isSound (p : Parameter) : Bool := (Value.map p.schema).isSound

def RequestBody.isSound (b : RequestBody) : Bool := b.contentValue.isSound

def FieldGroup.isSound (g : FieldGroup) : Bool :=
  (Value.map g.default).isSound && g.options.all Parameter.isSound

/-- Whether no mapping in an operation has a key twice. -/
def Operation.isSound (o : Operation) : Bool :=
  o.parameters.all Parameter.isSound && o.requestBody.all RequestBody.isSound &&
    o.fieldGroups.all FieldGroup.isSound

theorem Parameter.same_self {p : Parameter} (h : p.isSound = true) : p.same p = true := by
  have hschema : Fields.same p.schema p.schema = true := Value.same_self h
  have hexample : sameOption Example.same p.exampleValue p.exampleValue = true :=
    sameOption_self fun e _ => e.same_self
  simp only [same, beq_self_eq_true, hschema, hexample, Bool.and_self]

theorem RequestBody.same_self {b : RequestBody} (h : b.isSound = true) : b.same b = true := by
  have hcontent : b.contentValue.same b.contentValue = true := Value.same_self h
  simp only [same, beq_self_eq_true, Fields.same, Bool.true_and]
  exact hcontent

theorem FieldGroup.same_self {g : FieldGroup} (h : g.isSound = true) : g.same g = true := by
  rw [isSound, Bool.and_eq_true, List.all_eq_true] at h
  have hdefault : Fields.same g.default g.default = true := Value.same_self h.1
  have hoptions : sameRow Parameter.same g.options g.options = true :=
    sameRow_self fun p hp => Parameter.same_self (h.2 p hp)
  simp only [same, beq_self_eq_true, hdefault, hoptions, Bool.and_self]

/-- A sound operation is the same as itself. -/
theorem Operation.same_self {o : Operation} (h : o.isSound = true) : o.same o = true := by
  rw [isSound, Bool.and_eq_true, Bool.and_eq_true, List.all_eq_true, List.all_eq_true,
    List.all_eq_true] at h
  obtain ⟨⟨hparameters, hbodies⟩, hgroups⟩ := h
  have hgroup {g? : Option FieldGroup} (hg? : g?.toList ⊆ o.fieldGroups) :
      sameOption FieldGroup.same g? g? = true :=
    sameOption_self fun g hg => FieldGroup.same_self (hgroups g (hg? (Option.mem_toList.2 hg)))
  simp only [same, beq_self_eq_true, Bool.true_and, Bool.and_eq_true]
  exact ⟨⟨⟨sameRow_self fun p hp => Parameter.same_self (hparameters p hp),
    sameRow_self fun b hb => RequestBody.same_self (hbodies b hb)⟩,
    hgroup (List.subset_append_left _ _)⟩, hgroup (List.subset_append_right _ _)⟩

/-- Operations that are the same have one id. -/
theorem Operation.operationId_eq_of_same {a b : Operation} (h : a.same b = true) :
    a.operationId = b.operationId := by
  simp only [same, Bool.and_eq_true, beq_iff_eq] at h
  obtain ⟨⟨⟨⟨⟨⟨⟨⟨-, hid⟩, -⟩, -⟩, -⟩, -⟩, -⟩, -⟩, -⟩ := h
  exact hid

end NodeForge
