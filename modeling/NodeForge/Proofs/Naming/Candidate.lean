import NodeForge.Proofs.Naming.Ids
import NodeForge.Proofs.Outcome

/-!
# No id is empty

Every rule that makes a candidate out of the id of an operation leaves something of it, and where an
operation has no id its method alone is enough for one. So a candidate has no empty names
(`isNamed_derive`), and whatever id it allows is not empty (`Candidate.ne_nil_of_allows`).
-/

namespace NodeForge

/-! ### Small letters -/

theorem toSmall_ne_nil (c : Char) : Letter.toSmall c ≠ [] := by
  rw [Letter.toSmall, Letter.imageIn]
  split
  · exact List.cons_ne_nil _ _
  · split <;> exact List.cons_ne_nil _ _

theorem expand_toSmall_ne_nil (s : Sign) : s.expand Letter.toSmall ≠ [] := by
  cases s with
  | char c => exact fun h => toSmall_ne_nil c (List.map_eq_nil_iff.1 h)
  | half k => exact List.cons_ne_nil _ _

theorem lower_ne_nil {text : Text} (h : text ≠ []) : Text.lower text ≠ [] := by
  cases text with
  | nil => exact absurd rfl h
  | cons c cs =>
    rw [Text.lower, Text.lowerAfter]
    refine List.append_ne_nil_of_left_ne_nil ?_ _
    split
    · exact List.cons_ne_nil _ _
    · exact expand_toSmall_ne_nil c

theorem lowerFirst_ne_nil {text : Text} (h : text ≠ []) : Text.lowerFirst text ≠ [] := by
  cases text with
  | nil => exact absurd rfl h
  | cons c cs =>
    exact List.append_ne_nil_of_left_ne_nil (lower_ne_nil (List.cons_ne_nil c [])) _

/-! ### Candidates -/

/-- Whether a candidate has no empty name. -/
structure Candidate.IsNamed (c : Candidate) : Prop where
  canonical : c.canonical ≠ []
  variant : ∀ v, c.variant = some v → v ≠ []

theorem Candidate.ne_nil_of_allows {c : Candidate} {id : Text} (hc : c.IsNamed)
    (h : c.Allows id) : id ≠ [] := by
  obtain ⟨own, hnames, h⟩ := h
  have hown : own ≠ [] := by
    rcases hnames with rfl | hvariant
    · exact hc.canonical
    · exact hc.variant own hvariant
  rcases h with rfl | ⟨n, -, rfl⟩
  · exact hown
  · exact List.append_ne_nil_of_left_ne_nil hown _

theorem isNamed_withSurplus {canonical verb extra : Text} (h : canonical ≠ []) :
    (Naming.withSurplus canonical verb extra).IsNamed := by
  refine ⟨h, fun v hv => ?_⟩
  rw [Naming.withSurplus] at hv
  dsimp only at hv
  split at hv
  · cases hv
  · next hextra =>
    rw [Option.some.injEq] at hv
    rw [← hv]
    refine List.append_ne_nil_of_right_ne_nil _ ?_
    rintro rfl
    exact hextra rfl

theorem isNamed_plain {id : Text} (h : id ≠ []) : Candidate.IsNamed ⟨id, none⟩ :=
  ⟨h, nofun⟩

/-- The candidate of an id that is not empty has no empty names, by whatever rule it is made. -/
theorem isNamed_candidateOf {resource id : Text} (h : id ≠ []) :
    (Naming.candidateOf resource id).IsNamed := by
  have hrules : ∀ rule ∈ Naming.verbRules, rule.2 ≠ [] := by decide
  unfold Naming.candidateOf
  dsimp only
  split
  -- an id that asks for one thing by its key
  · exact isNamed_withSurplus (by decide)
  split
  -- an id that gets a plural
  · exact isNamed_withSurplus (by decide)
  split
  · next verb canonical hfound =>
    exact isNamed_withSurplus (hrules _ (List.mem_of_find?_eq_some hfound))
  · split
    · exact isNamed_plain h
    · next hrest =>
      -- something is left without the resource, and the id itself is the variant
      refine ⟨lowerFirst_ne_nil fun hnil => hrest (by rw [hnil]; rfl), fun v hv => ?_⟩
      dsimp only at hv
      split at hv
      · cases hv
      · rw [Option.some.injEq] at hv
        rwa [← hv]

/-- An operation without an id gets one that is not empty. -/
theorem synthesizeId_ne_nil {method : Text} {endpoint : Scalar} {summary : Value} {id : Text}
    (hmethod : method ≠ []) (h : synthesizeId method endpoint summary = .ok id) : id ≠ [] := by
  have hrest (title : Text) (h : (if title.isEmpty then do
      return Naming.idFromEndpoint method (← endpoint.asText .noSuchMember)
      else return title : Except Fault Text) = .ok id) : id ≠ [] := by
    split at h
    · obtain ⟨path, -, h⟩ := Outcome.bind_eq_ok.1 h
      rw [Outcome.pure_eq_ok] at h
      rw [← h]
      exact List.append_ne_nil_of_left_ne_nil (lower_ne_nil hmethod) _
    · next htitle =>
      rw [Outcome.pure_eq_ok] at h
      rw [← h]
      rintro rfl
      exact htitle rfl
  unfold synthesizeId at h
  dsimp only at h
  split at h
  · obtain ⟨title, -, h⟩ := Outcome.bind_eq_ok.1 h
    exact hrest title h
  · exact hrest [] h

/-- **Candidates have names.** Whatever a document says about an operation, the candidate for its id
has no empty name. -/
theorem isNamed_derive {id : Value} {resource method : Text} {endpoint : Scalar} {summary : Value}
    {c : Candidate} (hmethod : method ≠ [])
    (h : Candidate.derive id resource method endpoint summary = .ok c) : c.IsNamed := by
  unfold Candidate.derive at h
  split at h
  · next htruthy =>
    obtain ⟨text, htext, h⟩ := Outcome.bind_eq_ok.1 h
    rw [Outcome.pure_eq_ok] at h
    rw [← h]
    refine isNamed_candidateOf ?_
    -- the empty text does not count as an id
    rintro rfl
    cases id with
    | scalar s =>
      have hs : s = .str [] := Outcome.asText_eq_ok.1 htext
      rw [hs] at htruthy
      cases htruthy
    | _ => cases htext
  · obtain ⟨text, htext, h⟩ := Outcome.bind_eq_ok.1 h
    rw [Outcome.pure_eq_ok] at h
    rw [← h]
    exact isNamed_plain (synthesizeId_ne_nil hmethod htext)

end NodeForge
