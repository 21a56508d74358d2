import NodeForge.OpenApi.Context
import NodeForge.Proofs.Outcome

/-!
# What a document mentions

`mentions` reads the operations off a document: one for every path and every key of its item that is
a method. It goes through the entries alone and cannot fail. A document whose contexts can be found
has exactly the contexts of its mentions, one for each of their resources (`contexts_eq`), and each
mention can be read in full.
-/

namespace NodeForge.OpenApi

/-- An operation that a document mentions: the entry under a method, in the item of a path. -/
structure Mention where
  path : Scalar
  item : Fields
  /-- The method in small letters. -/
  method : Text
  entry : Value

/-- The method that a key of a path item stands for, in whatever letter case it is written. -/
def methodOf? : Scalar → Option Text
  | .str key => if httpMethods.contains (Text.lower key) then some (Text.lower key) else none
  | _ => none

/-- The mention that an entry of a path item makes. -/
def mentionOf? (path : Scalar) (item : Fields) (e : Scalar × Value) : Option Mention :=
  (methodOf? e.1).map fun method => { path, item, method, entry := e.2 }

/-- The paths of a document with their items. -/
def pathEntries (document : Value) : Fields :=
  ((document.fields?.bind (Fields.get? "paths")).bind Value.fields?).getD []

/-- What is mentioned in the item of a path. -/
def mentionsAt (path : Scalar) (item : Value) : List Mention :=
  (item.fields?.getD []).filterMap (mentionOf? path (item.fields?.getD []))

/-- The operations that a document mentions, in its order. -/
def mentions (document : Value) : List Mention :=
  (pathEntries document).flatMap fun e => mentionsAt e.1 e.2

namespace Mention

/-- The fields of the entry. -/
def fields (m : Mention) : Fields := m.entry.fields?.getD []

/-- The resources that the operation belongs to. -/
def resources (m : Mention) : List Text := (resourcesOf m.entry m.path).toOption.getD []

/-- The parameters that are declared for all methods of the path. -/
def shared (m : Mention) : List Fields := mappingsOf ((parametersOf m.item).toOption.getD [])

/-- All that is known about the operation on a resource. -/
def context (m : Mention) (resource : Text) : Context :=
  { endpoint := m.path, method := m.method, resource, entry := m.fields, shared := m.shared }

/-- Whether a mention can be read: its entry is a mapping, and there are its resources and what its
path declares. -/
structure Reads (m : Mention) : Prop where
  entry : ∃ fields, m.entry = .map fields
  resources : ∃ rs, resourcesOf m.entry m.path = .ok rs
  shared : ∃ ps, parametersOf m.item = .ok ps

end Mention

/-! ### Methods -/

theorem methodOf?_isSome_iff {key : Scalar} : (methodOf? key).isSome = true ↔
    ∃ s, key = .str s ∧ httpMethods.contains (Text.lower s) = true := by
  cases key with
  | str s =>
    rw [methodOf?]
    split
    · next h => exact iff_of_true rfl ⟨s, rfl, h⟩
    · next h =>
      refine iff_of_false (by simp) ?_
      rintro ⟨t, ht, hmem⟩
      cases ht
      exact h hmem
  | _ => simp [methodOf?]

theorem isMethod_eq_ok {key : Scalar} {b : Bool} (h : isMethod key = .ok b) :
    b = (methodOf? key).isSome := by
  cases key with
  | bytes bs => cases h; rfl
  | str s =>
    change Except.ok (httpMethods.contains (Text.lower s)) = .ok b at h
    rw [Except.ok.injEq] at h
    rw [← h, methodOf?]
    split <;> simp_all
  | _ => cases h

theorem mem_httpMethods_of_mem_mentions {document : Value} {m : Mention}
    (h : m ∈ mentions document) : m.method ∈ httpMethods := by
  obtain ⟨e, -, h⟩ := List.mem_flatMap.1 h
  obtain ⟨e', -, h⟩ := List.mem_filterMap.1 h
  obtain ⟨method, hmethod, rfl⟩ := Option.map_eq_some_iff.1 h
  have hsome : (methodOf? e'.1).isSome = true := by rw [hmethod]; rfl
  obtain ⟨s, hs, hmem⟩ := methodOf?_isSome_iff.1 hsome
  rw [hs, methodOf?, if_pos hmem, Option.some.injEq] at hmethod
  rw [← hmethod]
  exact List.contains_iff_mem.1 hmem

/-! ### Contexts -/

theorem Mention.resources_eq {m : Mention} {rs : List Text}
    (h : resourcesOf m.entry m.path = .ok rs) : m.resources = rs := by
  rw [resources, h]
  rfl

theorem Mention.shared_eq {m : Mention} {ps : List Value} (h : parametersOf m.item = .ok ps) :
    m.shared = mappingsOf ps := by
  rw [shared, h]
  rfl

/-- The contexts of a method are those of its mention. -/
theorem methodContexts_eq {path : Scalar} {item : Fields} {ps : List Value} {key : Text}
    {entry : Value} {cs : List Context} (hps : parametersOf item = .ok ps)
    (h : methodContexts path (mappingsOf ps) key entry = .ok cs) :
    let m : Mention := { path, item, method := Text.lower key, entry }
    m.Reads ∧ cs = m.resources.map m.context := by
  unfold methodContexts at h
  split at h
  · next fields =>
    obtain ⟨rs, hrs, h⟩ := Outcome.bind_eq_ok.1 h
    rw [Outcome.pure_eq_ok] at h
    refine ⟨⟨⟨fields, rfl⟩, ⟨rs, hrs⟩, ⟨ps, hps⟩⟩, ?_⟩
    rw [← h, Mention.resources_eq hrs]
    refine List.map_congr_left fun r _ => ?_
    rw [Mention.context, Mention.shared_eq hps]
    rfl
  · exact absurd h Outcome.failSpec_ne_ok

theorem flatMap_filterMap {α β γ : Type} (f : α → Option β) (g : β → List γ) (row : List α) :
    (row.filterMap f).flatMap g = row.flatMap fun a => (f a).elim [] g := by
  induction row with
  | nil => rfl
  | cons a rest ih =>
    rw [List.filterMap_cons, List.flatMap_cons, ← ih]
    cases f a <;> rfl

/-- An entry of a path item that can be read under a method makes a mention. -/
theorem exists_mention {path : Scalar} {item : Fields} {ps : List Value} {e : Scalar × Value}
    {cs : List Context} (hps : parametersOf item = .ok ps) (he : (methodOf? e.1).isSome = true)
    (h : (do methodContexts path (mappingsOf ps) (← e.1.asText .noSuchMember) e.2 :
      Except Failure (List Context)) = .ok cs) :
    ∃ m, mentionOf? path item e = some m ∧ m.Reads ∧ cs = m.resources.map m.context := by
  obtain ⟨s, hs, hmem⟩ := methodOf?_isSome_iff.1 he
  obtain ⟨key, hkey, h⟩ := Outcome.bind_eq_ok.1 h
  rw [Outcome.lift_eq_ok, Outcome.asText_eq_ok, hs, Scalar.str.injEq] at hkey
  rw [← hkey] at h
  refine ⟨⟨path, item, Text.lower s, e.2⟩, ?_, methodContexts_eq hps h⟩
  rw [mentionOf?, hs, methodOf?, if_pos hmem]
  rfl

/-- The contexts of a path are those of its mentions. -/
theorem pathContexts_eq {path : Scalar} {item : Value} {cs : List Context}
    (h : pathContexts path item = .ok cs) :
    (∀ m ∈ mentionsAt path item, m.Reads) ∧
      cs = (mentionsAt path item).flatMap fun m => m.resources.map m.context := by
  unfold pathContexts at h
  split at h
  · next fields =>
    obtain ⟨methods, hmethods, h⟩ := Outcome.bind_eq_ok.1 h
    dsimp only at h
    split at h
    · obtain ⟨_, hfail, -⟩ := Outcome.bind_eq_ok.1 h
      exact absurd hfail Outcome.failSpec_ne_ok
    obtain ⟨ps, hps, h⟩ := Outcome.bind_eq_ok.1 h
    rw [Outcome.lift_eq_ok] at hps
    obtain ⟨found, hfound, h⟩ := Outcome.bind_eq_ok.1 h
    rw [Outcome.pure_eq_ok] at h
    -- the entries that are looked at are those that make mentions
    have hfilter := Outcome.filterM_eq_filter (p := fun e => (methodOf? e.1).isSome) hmethods
      fun e _ b hb => isMethod_eq_ok (Outcome.lift_eq_ok.1 hb)
    have hsome : ∀ e ∈ methods, (methodOf? e.1).isSome = true := by
      intro e he
      rw [hfilter] at he
      exact (List.mem_filter.1 he).2
    have hmentions : mentionsAt path (.map fields) =
        methods.filterMap (mentionOf? path fields) := by
      rw [hfilter, List.filterMap_filter]
      refine List.filterMap_congr fun e _ => ?_
      unfold mentionOf?
      cases methodOf? e.1 <;> rfl
    rw [hmentions]
    constructor
    · intro m hm
      obtain ⟨e, he, hem⟩ := List.mem_filterMap.1 hm
      obtain ⟨cs', -, hcs'⟩ := Outcome.exists_ok_of_mem hfound he
      obtain ⟨m', hm', hreads, -⟩ := exists_mention hps (hsome e he) hcs'
      rw [hem, Option.some.injEq] at hm'
      rwa [hm']
    · rw [← h, Outcome.mapM_eq_map (g := fun e =>
          (mentionOf? path fields e).elim [] fun m => m.resources.map m.context) hfound ?_,
        ← List.flatMap_def, flatMap_filterMap]
      intro e he cs' hcs'
      obtain ⟨m, hm, -, hcontexts⟩ := exists_mention hps (hsome e he) hcs'
      rw [hcontexts, hm]
      rfl
  · exact absurd h Outcome.failSpec_ne_ok

theorem pathsOf_eq {document : Value} {paths : Fields} (h : pathsOf document = .ok paths) :
    pathEntries document = paths := by
  unfold pathsOf at h
  obtain ⟨held, -, h⟩ := Outcome.bind_eq_ok.1 h
  dsimp only at h
  split at h
  · obtain ⟨_, hfail, -⟩ := Outcome.bind_eq_ok.1 h
    exact absurd hfail Outcome.failSpec_ne_ok
  obtain ⟨v, hv, h⟩ := Outcome.bind_eq_ok.1 h
  rw [Outcome.lift_eq_ok] at hv
  split at h
  · next p ps =>
    have hpaths : p :: ps = paths := Outcome.pure_eq_ok.1 h
    cases document with
    | map es =>
      have hget : Fields.get? "paths" es = some (.map (p :: ps)) := Outcome.orFault_eq_ok.1 hv
      show (((Fields.get? "paths" es).bind Value.fields?).getD []) = paths
      rw [hget, ← hpaths]
      rfl
    | _ => cases hv
  · exact absurd h Outcome.failSpec_ne_ok

/-- **Contexts are mentions.** A document whose contexts can be found has one for each mention and
each of its resources, in the order of the document. -/
theorem contexts_eq {document : Value} {cs : List Context} (h : contexts document = .ok cs) :
    (∀ m ∈ mentions document, m.Reads) ∧
      cs = (mentions document).flatMap fun m => m.resources.map m.context := by
  obtain ⟨paths, hpaths, h⟩ := Outcome.bind_eq_ok.1 h
  obtain ⟨found, hfound, h⟩ := Outcome.bind_eq_ok.1 h
  rw [Outcome.pure_eq_ok] at h
  rw [mentions, pathsOf_eq hpaths]
  constructor
  · intro m hm
    obtain ⟨e, he, hm⟩ := List.mem_flatMap.1 hm
    obtain ⟨cs', -, hcs'⟩ := Outcome.exists_ok_of_mem hfound he
    exact (pathContexts_eq hcs').1 m hm
  · rw [← h, Outcome.mapM_eq_map hfound fun e _ cs' hcs' => (pathContexts_eq hcs').2,
      ← List.flatMap_def, List.flatMap_assoc]

end NodeForge.OpenApi
