import Mathlib.Data.List.Perm.Basic
import NodeForge.Document.Value

/-!
# Laws of ordered entries

What `Entries.put`, `Entries.ofList` and `Entries.distinct` leave, seen through the keys and through
`List.lookup`. The keys need no equality, only an equivalence. The main statement is `ofList_eq`: a
row of writings becomes its different keys, each at the place where it was first written and with
the value that was written last.
-/

namespace NodeForge.Entries

variable {κ α β : Type}

/-! ### Different members -/

section Distinct

variable [BEq κ]

/-- No member that is left is the same as an earlier one. -/
theorem pairwise_distinct (ks : List κ) :
    (distinct ks).Pairwise fun a b => (a == b) = false := by
  induction ks with
  | nil => exact .nil
  | cons k rest ih =>
    rw [distinct, List.pairwise_cons]
    refine ⟨fun x hx => ?_, ih.sublist List.filter_sublist⟩
    simpa using (List.mem_filter.1 hx).2

/-- Every member is the same as one that is left. -/
theorem exists_mem_distinct [EquivBEq κ] {ks : List κ} {k : κ} (h : k ∈ ks) :
    ∃ left ∈ distinct ks, (left == k) = true := by
  induction ks with
  | nil => simp at h
  | cons first rest ih =>
    rw [distinct]
    rcases List.mem_cons.1 h with rfl | h
    · exact ⟨k, List.mem_cons_self, BEq.refl k⟩
    · obtain ⟨left, hleft, hsame⟩ := ih h
      by_cases hfirst : first == left
      · exact ⟨first, List.mem_cons_self, BEq.trans hfirst hsame⟩
      · have hkept : left ∈ (distinct rest).filter fun x => !(first == x) :=
          List.mem_filter.2 ⟨hleft, by simpa using hfirst⟩
        exact ⟨left, List.mem_cons_of_mem _ hkept, hsame⟩

theorem nodup_distinct [LawfulBEq κ] (ks : List κ) : (distinct ks).Nodup :=
  (pairwise_distinct ks).imp fun h => by simpa using h

@[simp] theorem mem_distinct [LawfulBEq κ] {a : κ} {ks : List κ} : a ∈ distinct ks ↔ a ∈ ks := by
  induction ks with
  | nil => simp [distinct]
  | cons k rest ih =>
    rw [distinct, List.mem_cons, List.mem_cons, List.mem_filter, ih]
    by_cases h : a = k
    · simp [h]
    · simp [h, Ne.symm h]

/-- Whether a row holds the members of another one, each once and in the order in which they come up
there first. -/
structure IsOnceEach (all row : List κ) : Prop where
  nodup : row.Nodup
  mem_iff : ∀ k, k ∈ row ↔ k ∈ all
  order : row.Pairwise fun a b => all.idxOf a < all.idxOf b

/-- The different members stand in the order in which they come up first. -/
theorem isOnceEach_distinct [LawfulBEq κ] (ks : List κ) : IsOnceEach ks (distinct ks) := by
  refine ⟨nodup_distinct ks, fun _ => mem_distinct, ?_⟩
  induction ks with
  | nil => exact .nil
  | cons k rest ih =>
    have hbehind : ∀ a ∈ (distinct rest).filter fun x => !(k == x),
        (k :: rest).idxOf a = rest.idxOf a + 1 := by
      intro a ha
      have hne : (k == a) = false := by simpa using (List.mem_filter.1 ha).2
      rw [List.idxOf_cons, hne, cond_false]
    rw [distinct, List.pairwise_cons]
    refine ⟨fun a ha => ?_, (ih.sublist List.filter_sublist).imp_of_mem fun ha hb hlt => ?_⟩
    · rw [hbehind a ha, List.idxOf_cons_self]
      exact Nat.succ_pos _
    · rw [hbehind _ ha, hbehind _ hb]
      exact Nat.succ_lt_succ hlt

/-- There is one such row. -/
theorem IsOnceEach.unique [LawfulBEq κ] {all row row' : List κ} (h : IsOnceEach all row)
    (h' : IsOnceEach all row') : row = row' := by
  have hperm : row.Perm row' :=
    (List.perm_ext_iff_of_nodup h.nodup h'.nodup).2 fun k => (h.mem_iff k).trans (h'.mem_iff k).symm
  exact hperm.eq_of_pairwise (fun a b _ _ hab hba => absurd hba (Nat.lt_asymm hab)) h.order h'.order

theorem distinct_cons_of_not_mem [LawfulBEq κ] {k : κ} {rest : List κ} (h : k ∉ rest) :
    distinct (k :: rest) = k :: distinct rest := by
  rw [distinct, List.filter_eq_self.2 fun x hx => ?_]
  have hne : k ≠ x := fun heq => h (heq ▸ mem_distinct.1 hx)
  simpa using hne

theorem length_distinct_le (ks : List κ) : (distinct ks).length ≤ ks.length := by
  induction ks with
  | nil => exact Nat.le_refl 0
  | cons k rest ih =>
    rw [distinct, List.length_cons, List.length_cons]
    exact Nat.succ_le_succ (Nat.le_trans (List.length_filter_le _ _) ih)

/-- Nothing is left out exactly where all members are different. -/
theorem length_distinct_eq_iff [LawfulBEq κ] {ks : List κ} :
    (distinct ks).length = ks.length ↔ ks.Nodup := by
  induction ks with
  | nil => simp [distinct]
  | cons k rest ih =>
    rw [List.nodup_cons, ← ih]
    constructor
    · intro h
      have hfilter := List.length_filter_le (fun x => !(k == x)) (distinct rest)
      have hrest := length_distinct_le rest
      rw [distinct, List.length_cons, List.length_cons] at h
      have hall : ∀ x ∈ distinct rest, (!(k == x)) = true :=
        List.length_filter_eq_length_iff.1 (by omega)
      refine ⟨fun hk => ?_, by omega⟩
      simpa using hall k (mem_distinct.2 hk)
    · rintro ⟨hk, hrest⟩
      rw [distinct_cons_of_not_mem hk, List.length_cons, List.length_cons, hrest]

/-- Members are told apart by what they are renamed to. -/
theorem distinct_map (f : α → κ) (row : List α) :
    distinct (row.map f) = (@distinct α ⟨fun a b => f a == f b⟩ row).map f := by
  induction row with
  | nil => rfl
  | cons a rest ih =>
    rw [List.map_cons, distinct, ih, List.filter_map]
    rfl

/-- Two ways of renaming that tell the same members apart leave as many of them. -/
theorem length_distinct_map_congr [LawfulBEq κ] [BEq β] [LawfulBEq β] {f : α → κ} {g : α → β}
    (h : ∀ a b, f a = f b ↔ g a = g b) (row : List α) :
    (distinct (row.map f)).length = (distinct (row.map g)).length := by
  have hsame : (fun a b => f a == f b) = fun a b => g a == g b := by
    funext a b
    rw [Bool.eq_iff_iff, beq_iff_eq, beq_iff_eq]
    exact h a b
  rw [distinct_map f, distinct_map g, List.length_map, List.length_map, hsame]

end Distinct

/-! ### Writing one entry -/

section Put

variable [BEq κ]

theorem lookup_put [EquivBEq κ] (k key : κ) (value : α) (entries : List (κ × α)) :
    (put key value entries).lookup k = if k == key then some value else entries.lookup k := by
  induction entries with
  | nil =>
    rw [put_nil, List.lookup_cons, List.lookup_nil]
    cases k == key <;> rfl
  | cons e rest ih =>
    obtain ⟨k', v⟩ := e
    rw [put]
    by_cases h : k' == key
    · rw [if_pos h, List.lookup_cons, List.lookup_cons, BEq.congr_right h]
      cases k == key <;> rfl
    · rw [if_neg h, List.lookup_cons, List.lookup_cons, ih]
      by_cases hk : k == k'
      · -- the key that is looked for stands here already, so it is not the written one
        have hne : (k == key) = false := by
          rw [BEq.congr_left hk]
          simpa using h
        rw [hk, hne]
        rfl
      · simp [hk]

theorem has_put [EquivBEq κ] (k key : κ) (value : α) (entries : List (κ × α)) :
    has k (put key value entries) = (k == key || has k entries) := by
  rw [has, lookup_put, has]
  cases k == key <;> rfl

@[simp] theorem has_nil (k : κ) : has k ([] : List (κ × α)) = false := rfl

theorem has_cons (k : κ) (e : κ × α) (rest : List (κ × α)) :
    has k (e :: rest) = (k == e.1 || has k rest) := by
  rw [has, List.lookup_cons, has]
  cases k == e.1 <;> rfl

theorem has_iff_exists {k : κ} {entries : List (κ × α)} :
    has k entries = true ↔ ∃ e ∈ entries, (k == e.1) = true := by
  induction entries with
  | nil => simp
  | cons e rest ih => simp [has_cons, ih]

/-- Leaving out entries under other keys does not matter to a key. -/
theorem lookup_filter [EquivBEq κ] {p : κ → Bool} {k : κ}
    (h : ∀ k', (k == k') = true → p k' = true) (entries : List (κ × α)) :
    (entries.filter fun e => p e.1).lookup k = entries.lookup k := by
  induction entries with
  | nil => rfl
  | cons e rest ih =>
    rw [List.filter_cons, List.lookup_cons]
    cases hk : k == e.1 with
    | true => rw [h e.1 hk, if_pos rfl, List.lookup_cons, hk]
    | false =>
      cases p e.1 with
      | true => rw [if_pos rfl, List.lookup_cons, hk, ih]
      | false => rw [if_neg Bool.false_ne_true, ih]

theorem put_eq_append {key : κ} {value : α} {entries : List (κ × α)}
    (h : ∀ k ∈ keys entries, (k == key) = false) :
    put key value entries = entries ++ [(key, value)] := by
  induction entries with
  | nil => rfl
  | cons e rest ih =>
    have hne : ¬ (e.1 == key) = true := by simp [h e.1 List.mem_cons_self]
    rw [put, if_neg hne, ih fun k hk => h k (List.mem_cons_of_mem _ hk), List.cons_append]

/-- A new key comes behind the others, and a key that is there keeps its place. -/
theorem keys_put (key : κ) (value : α) (entries : List (κ × α)) :
    keys (put key value entries) =
      if (keys entries).any (· == key) then keys entries else keys entries ++ [key] := by
  induction entries with
  | nil => rfl
  | cons e rest ih =>
    obtain ⟨k, v⟩ := e
    rw [put, keys_cons, List.any_cons]
    by_cases h : k == key
    · simp [h]
    · rw [if_neg h, keys_cons, ih]
      simp only [h, Bool.false_or]
      split <;> rfl

/-- An entry is the written one, with its old key or the new one, or stood there before. -/
theorem mem_put {key : κ} {value : α} {entries : List (κ × α)} {e : κ × α}
    (h : e ∈ put key value entries) :
    (e.1 = key ∨ e.1 ∈ keys entries) ∧ (e.2 = value ∨ e ∈ entries) := by
  induction entries with
  | nil =>
    rw [put_nil, List.mem_singleton] at h
    rw [h]
    exact ⟨Or.inl rfl, Or.inl rfl⟩
  | cons e' rest ih =>
    obtain ⟨k, v⟩ := e'
    rw [put] at h
    rw [keys_cons]
    split at h
    · rcases List.mem_cons.1 h with rfl | h
      · exact ⟨Or.inr List.mem_cons_self, Or.inl rfl⟩
      · exact ⟨Or.inr (List.mem_cons_of_mem _ (List.mem_map_of_mem h)),
          Or.inr (List.mem_cons_of_mem _ h)⟩
    · rcases List.mem_cons.1 h with rfl | h
      · exact ⟨Or.inr List.mem_cons_self, Or.inr List.mem_cons_self⟩
      · obtain ⟨hkey, hvalue⟩ := ih h
        exact ⟨hkey.imp_right (List.mem_cons_of_mem _), hvalue.imp_right (List.mem_cons_of_mem _)⟩

/-- Entries that are written over others have their keys and their values from the one or the other
row. -/
theorem mem_putAll {base extra : List (κ × α)} {e : κ × α} (h : e ∈ putAll base extra) :
    (e.1 ∈ keys base ∨ e.1 ∈ keys extra) ∧ ∃ e' ∈ base ++ extra, e'.2 = e.2 := by
  induction extra generalizing base with
  | nil => exact ⟨Or.inl (List.mem_map_of_mem h), e, List.mem_append_left _ h, rfl⟩
  | cons first rest ih =>
    obtain ⟨key, value⟩ := first
    change e ∈ putAll (put key value base) rest at h
    obtain ⟨hkey, e', he', hvalue⟩ := ih h
    rw [keys_cons]
    constructor
    · rcases hkey with hkey | hkey
      · obtain ⟨b, hb, hbk⟩ := List.mem_map.1 hkey
        rcases (mem_put hb).1 with hnew | hold
        · right
          rw [← hbk, hnew]
          exact List.mem_cons_self
        · rw [← hbk]
          exact Or.inl hold
      · exact Or.inr (List.mem_cons_of_mem _ hkey)
    · rcases List.mem_append.1 he' with hb | hrest
      · rcases (mem_put hb).2 with hnew | hold
        · exact ⟨(key, value), List.mem_append_right _ List.mem_cons_self, by rw [← hvalue, hnew]⟩
        · exact ⟨e', List.mem_append_left _ hold, hvalue⟩
      · exact ⟨e', List.mem_append_right _ (List.mem_cons_of_mem _ hrest), hvalue⟩

/-- What is found stands under a key that is the same, and no such key stands before it. -/
theorem lookup_eq_some_iff {k : κ} {entries : List (κ × α)} {v : α} :
    entries.lookup k = some v ↔ ∃ before own behind, entries = before ++ (own, v) :: behind ∧
      (k == own) = true ∧ ∀ e ∈ before, (k == e.1) = false := by
  induction entries with
  | nil => simp
  | cons e rest ih =>
    rw [List.lookup_cons]
    cases hsame : k == e.1 with
    | true =>
      constructor
      · intro h
        rw [Option.some.injEq] at h
        exact ⟨[], e.1, rest, by rw [← h]; rfl, hsame, by simp⟩
      · rintro ⟨before, own, behind, heq, -, hbefore⟩
        cases before with
        | nil =>
          rw [List.nil_append, List.cons.injEq] at heq
          rw [heq.1]
        | cons e' before =>
          rw [List.cons_append, List.cons.injEq] at heq
          have hfirst := hbefore e' List.mem_cons_self
          rw [← heq.1, hsame] at hfirst
          cases hfirst
    | false =>
      show rest.lookup k = some v ↔ _
      rw [ih]
      constructor
      · rintro ⟨before, own, behind, rfl, hown, hbefore⟩
        refine ⟨e :: before, own, behind, rfl, hown, fun e' he' => ?_⟩
        rcases List.mem_cons.1 he' with rfl | he'
        · exact hsame
        · exact hbefore e' he'
      · rintro ⟨before, own, behind, heq, hown, hbefore⟩
        cases before with
        | nil =>
          rw [List.nil_append, List.cons.injEq] at heq
          rw [heq.1, hown] at hsame
          cases hsame
        | cons e' before =>
          rw [List.cons_append, List.cons.injEq] at heq
          exact ⟨before, own, behind, heq.2, hown,
            fun x hx => hbefore x (List.mem_cons_of_mem _ hx)⟩

theorem mem_of_lookup_eq_some {k : κ} {entries : List (κ × α)} {v : α}
    (h : entries.lookup k = some v) : ∃ own, (own, v) ∈ entries ∧ (k == own) = true := by
  obtain ⟨before, own, behind, rfl, hsame, -⟩ := lookup_eq_some_iff.1 h
  exact ⟨own, List.mem_append_right _ List.mem_cons_self, hsame⟩

end Put

/-! ### Rows of writings -/

section OfList

variable [BEq κ] [EquivBEq κ]

theorem lookup_putAll (k : κ) (base extra : List (κ × α)) :
    (putAll base extra).lookup k = (extra.reverse.lookup k).or (base.lookup k) := by
  induction extra generalizing base with
  | nil => simp [putAll]
  | cons e rest ih =>
    obtain ⟨key, value⟩ := e
    have hstep : putAll base ((key, value) :: rest) = putAll (put key value base) rest := rfl
    rw [hstep, ih, lookup_put, List.reverse_cons, List.lookup_append, List.lookup_cons,
      List.lookup_nil]
    cases rest.reverse.lookup k with
    | some v => rfl
    | none => cases k == key <;> rfl

theorem has_putAll (k : κ) (base extra : List (κ × α)) :
    has k (putAll base extra) = (has k base || has k extra) := by
  induction extra generalizing base with
  | nil => simp [putAll]
  | cons e rest ih =>
    have hstep : putAll base (e :: rest) = putAll (put e.1 e.2 base) rest := rfl
    rw [hstep, ih, has_put, has_cons, Bool.or_comm (k == e.1), Bool.or_assoc]

theorem has_ofList (k : κ) (entries : List (κ × α)) : has k (ofList entries) = has k entries := by
  rw [ofList, has_putAll, has_nil, Bool.false_or]

/-- Looking a key up finds what was written last under it. -/
theorem lookup_ofList (k : κ) (entries : List (κ × α)) :
    (ofList entries).lookup k = entries.reverse.lookup k := by
  rw [ofList, lookup_putAll, List.lookup_nil, Option.or_none]

theorem keys_putAll (base extra : List (κ × α)) :
    keys (putAll base extra) =
      keys base ++ (distinct (keys extra)).filter fun x => !(keys base).any (· == x) := by
  induction extra generalizing base with
  | nil => simp [putAll, keys, distinct]
  | cons e rest ih =>
    obtain ⟨key, value⟩ := e
    have hstep : putAll base ((key, value) :: rest) = putAll (put key value base) rest := rfl
    rw [hstep, ih, keys_put, keys_cons, distinct, List.filter_cons, List.filter_filter]
    by_cases h : (keys base).any (· == key)
    · -- a later key that is the same as `key` is the same as one of the base
      have hkeep (x : κ) : (!(keys base).any (· == x) && !(key == x)) =
          !(keys base).any (· == x) := by
        by_cases hx : key == x
        · have hany : (keys base).any (· == x) = true := by
            obtain ⟨b, hb, hbk⟩ := List.any_eq_true.1 h
            exact List.any_eq_true.2 ⟨b, hb, BEq.trans hbk hx⟩
          simp [hany]
        · simp [hx]
      simp only [h, hkeep, if_true, Bool.not_true, Bool.false_eq_true, if_false]
    · have hkeep (x : κ) : (!(keys base ++ [key]).any (· == x)) =
          (!(keys base).any (· == x) && !(key == x)) := by
        rw [List.any_append, List.any_cons, List.any_nil, Bool.or_false, Bool.not_or]
      simp only [h, hkeep, Bool.not_false, if_true, Bool.false_eq_true, if_false,
        List.append_assoc, List.singleton_append]

/-- The keys stand in the order in which they were first written. -/
theorem keys_ofList (entries : List (κ × α)) : keys (ofList entries) = distinct (keys entries) := by
  rw [ofList, keys_putAll]
  simp [keys]

theorem eq_filterMap_lookup {entries : List (κ × α)}
    (h : (keys entries).Pairwise fun a b => (a == b) = false) :
    entries = (keys entries).filterMap fun k => (entries.lookup k).map fun v => (k, v) := by
  induction entries with
  | nil => rfl
  | cons e rest ih =>
    obtain ⟨k, v⟩ := e
    rw [keys_cons, List.pairwise_cons] at h
    have hrest : ((keys rest).filterMap fun x => (((k, v) :: rest).lookup x).map fun w => (x, w)) =
        (keys rest).filterMap fun x => (rest.lookup x).map fun w => (x, w) := by
      refine List.filterMap_congr fun x hx => ?_
      have hne : (x == k) = false := by
        rw [BEq.comm]
        exact h.1 x hx
      rw [List.lookup_cons, hne]
    rw [keys_cons, List.filterMap_cons, List.lookup_cons, BEq.refl, hrest, ← ih h.2]
    rfl

/-- **A row of writings.** Each different key stands at the place where it was first written, with
the value that was written last. -/
theorem ofList_eq (entries : List (κ × α)) :
    ofList entries = (distinct (keys entries)).filterMap fun k =>
      (entries.reverse.lookup k).map fun v => (k, v) := by
  have hkeys : (keys (ofList entries)).Pairwise fun a b => (a == b) = false := by
    rw [keys_ofList]
    exact pairwise_distinct _
  rw [eq_filterMap_lookup hkeys, keys_ofList]
  simp only [lookup_ofList]

end OfList

/-! ### Keys that come up once -/

/-- Whether no key comes up twice. -/
def Apart [BEq κ] (entries : List (κ × α)) : Prop :=
  (keys entries).Pairwise fun a b => (a == b) = false

instance [BEq κ] (entries : List (κ × α)) : Decidable (Apart entries) :=
  inferInstanceAs (Decidable (List.Pairwise (fun a b => (a == b) = false) (keys entries)))

section Apart

variable [BEq κ]

theorem lookup_congr [EquivBEq κ] {k k' : κ} (h : (k == k') = true) (entries : List (κ × α)) :
    entries.lookup k = entries.lookup k' := by
  induction entries with
  | nil => rfl
  | cons e rest ih => rw [List.lookup_cons, List.lookup_cons, BEq.congr_left h, ih]

theorem apart_nil : Apart ([] : List (κ × α)) := .nil

theorem apart_cons_iff {e : κ × α} {rest : List (κ × α)} :
    Apart (e :: rest) ↔ (∀ k ∈ keys rest, (e.1 == k) = false) ∧ Apart rest := by
  rw [Apart, keys_cons, List.pairwise_cons]
  rfl

/-- Behind its own entry a key is not found again. -/
theorem lookup_rest_of_apart [EquivBEq κ] {e : κ × α} {rest : List (κ × α)}
    (h : Apart (e :: rest)) {k : κ} (hk : (k == e.1) = true) : rest.lookup k = none := by
  rw [List.lookup_eq_none_iff]
  intro e' he'
  have hne : (e.1 == e'.1) = false := (apart_cons_iff.1 h).1 e'.1 (List.mem_map_of_mem he')
  rw [bne, BEq.congr_left hk, hne]
  rfl

/-- Of keys that are apart only one can be the one that is looked for. -/
theorem findSome?_of_apart [EquivBEq κ] {entries : List (κ × α)} (h : Apart entries) (k : κ)
    (view : α → Option β) :
    (entries.findSome? fun e => if k == e.1 then view e.2 else none) =
      (entries.lookup k).bind view := by
  induction entries with
  | nil => rfl
  | cons e rest ih =>
    have hrest := ih (apart_cons_iff.1 h).2
    rw [List.findSome?_cons, List.lookup_cons, hrest]
    cases hk : k == e.1 with
    | true =>
      rw [lookup_rest_of_apart h hk]
      cases hview : view e.2 <;> simp [hview]
    | false => rfl

/-- Writing an entry keeps the keys apart, as the same key is written over. -/
theorem apart_put {key : κ} {value : α} {entries : List (κ × α)} (h : Apart entries) :
    Apart (put key value entries) := by
  unfold Apart at h ⊢
  rw [keys_put]
  split
  · exact h
  · next hnew =>
    refine List.pairwise_append.2 ⟨h, List.pairwise_singleton _ _, fun a ha b hb => ?_⟩
    rw [List.mem_singleton] at hb
    rw [hb]
    simpa using fun hsame => hnew (List.any_eq_true.2 ⟨a, ha, hsame⟩)

theorem putAll_of_apart {base extra : List (κ × α)} (h : Apart (base ++ extra)) :
    putAll base extra = base ++ extra := by
  induction extra generalizing base with
  | nil => exact (List.append_nil base).symm
  | cons e rest ih =>
    have hnew : put e.1 e.2 base = base ++ [e] := by
      unfold Apart at h
      rw [keys, List.map_append, List.pairwise_append] at h
      exact put_eq_append fun k hk => h.2.2 k hk e.1 List.mem_cons_self
    have happend : base ++ e :: rest = base ++ [e] ++ rest := by simp
    rw [happend] at h ⊢
    rw [← ih h, ← hnew]
    rfl

/-- A row whose keys are apart is what is written. -/
theorem ofList_of_apart {entries : List (κ × α)} (h : Apart entries) : ofList entries = entries :=
  putAll_of_apart (show Apart ([] ++ entries) from h)

/-- What is written under another key leaves the entries in front alone. -/
theorem put_append {key : κ} {value : α} {base rest : List (κ × α)}
    (h : ∀ k ∈ keys base, (k == key) = false) :
    put key value (base ++ rest) = base ++ put key value rest := by
  induction base with
  | nil => rfl
  | cons e base ih =>
    have hne : ¬ (e.1 == key) = true := by simp [h e.1 List.mem_cons_self]
    rw [List.cons_append, put, if_neg hne, ih fun k hk => h k (List.mem_cons_of_mem _ hk),
      List.cons_append]

theorem putAll_append {base rest extra : List (κ × α)}
    (h : ∀ k ∈ keys base, ∀ e ∈ extra, (k == e.1) = false) :
    putAll (base ++ rest) extra = base ++ putAll rest extra := by
  induction extra generalizing rest with
  | nil => rfl
  | cons e extra ih =>
    have hfirst : put e.1 e.2 (base ++ rest) = base ++ put e.1 e.2 rest :=
      put_append fun k hk => h k hk e List.mem_cons_self
    show putAll (put e.1 e.2 (base ++ rest)) extra = base ++ putAll (put e.1 e.2 rest) extra
    rw [hfirst, ih fun k hk e' he' => h k hk e' (List.mem_cons_of_mem _ he')]

/-- Entries in front whose keys are apart and do not come up later stay as they are. -/
theorem ofList_append [LawfulBEq κ] {base extra : List (κ × α)}
    (h : (keys base ++ distinct (keys extra)).Nodup) :
    ofList (base ++ extra) = base ++ ofList extra := by
  obtain ⟨hbase, -, hdisjoint⟩ := List.nodup_append.1 h
  have hapart : Apart base := hbase.imp beq_false_of_ne
  have hother : ∀ k ∈ keys base, ∀ e ∈ extra, (k == e.1) = false := by
    intro k hk e he
    exact beq_false_of_ne (hdisjoint k hk e.1 (mem_distinct.2 (List.mem_map_of_mem he)))
  calc ofList (base ++ extra) = putAll (ofList base) extra := List.foldl_append
    _ = putAll (base ++ []) extra := by rw [ofList_of_apart hapart, List.append_nil]
    _ = base ++ ofList extra := putAll_append hother

theorem put_map (f : α → β) (key : κ) (value : α) (entries : List (κ × α)) :
    put key (f value) (entries.map fun e => (e.1, f e.2)) =
      (put key value entries).map fun e => (e.1, f e.2) := by
  induction entries with
  | nil => rfl
  | cons e rest ih =>
    rw [List.map_cons, put, put]
    split
    · rfl
    · rw [ih, List.map_cons]

/-- It is the same whether values are changed before or after they are written. -/
theorem ofList_map (f : α → β) (entries : List (κ × α)) :
    ofList (entries.map fun e => (e.1, f e.2)) = (ofList entries).map fun e => (e.1, f e.2) := by
  have hall : ∀ base : List (κ × α),
      putAll (base.map fun e => (e.1, f e.2)) (entries.map fun e => (e.1, f e.2)) =
        (putAll base entries).map fun e => (e.1, f e.2) := by
    induction entries with
    | nil => exact fun _ => rfl
    | cons e rest ih =>
      intro base
      show putAll (put e.1 (f e.2) (base.map fun e => (e.1, f e.2))) (rest.map fun e => (e.1, f e.2))
        = (putAll (put e.1 e.2 base) rest).map fun e => (e.1, f e.2)
      rw [put_map, ih]
  exact hall []

end Apart

theorem lookup_eq_some_of_mem [BEq κ] [LawfulBEq κ] {entries : List (κ × α)}
    (h : (keys entries).Nodup) {e : κ × α} (he : e ∈ entries) :
    entries.lookup e.1 = some e.2 := by
  induction entries with
  | nil => simp at he
  | cons e' rest ih =>
    rw [keys_cons, List.nodup_cons] at h
    rcases List.mem_cons.1 he with rfl | he
    · rw [List.lookup_cons, BEq.refl]
    · have hne : (e.1 == e'.1) = false := by
        rw [beq_eq_false_iff_ne]
        intro heq
        exact h.1 (heq ▸ List.mem_map_of_mem he)
      rw [List.lookup_cons, hne]
      exact ih h.2 he

/-- What is left of a row of writings was written. -/
theorem mem_of_mem_ofList [BEq κ] [LawfulBEq κ] {entries : List (κ × α)} {e : κ × α}
    (h : e ∈ ofList entries) : e ∈ entries := by
  have hkeys : (keys (ofList entries)).Nodup := by
    rw [keys_ofList]
    exact nodup_distinct _
  have hlookup := lookup_eq_some_of_mem hkeys h
  rw [lookup_ofList] at hlookup
  obtain ⟨own, hmem, hsame⟩ := mem_of_lookup_eq_some hlookup
  rw [← eq_of_beq hsame] at hmem
  exact List.mem_reverse.1 hmem

/-- The first member under a key is the one that has it, if no other one does. -/
theorem find?_eq_some_of_mem [BEq κ] [LawfulBEq κ] {key : α → κ} {row : List α}
    (h : row.Pairwise fun a b => key a ≠ key b) {a : α} (ha : a ∈ row) :
    row.find? (fun x => key x == key a) = some a := by
  obtain ⟨before, behind, rfl⟩ := List.append_of_mem ha
  refine List.find?_eq_some_iff_append.2 ⟨BEq.refl _, before, behind, rfl, fun x hx => ?_⟩
  have hne : key x ≠ key a := (List.pairwise_append.1 h).2.2 x hx a List.mem_cons_self
  simpa using hne

/-! ### Grouping -/

/-- Going through a row key by key, with every key once, meets each member once. -/
theorem flatMap_filter_perm [BEq κ] [LawfulBEq κ] {key : α → κ} {ks : List κ} {row : List α}
    (hks : ks.Nodup) (hrow : ∀ x ∈ row, key x ∈ ks) :
    (ks.flatMap fun k => row.filter fun x => key x == k).Perm row := by
  induction ks generalizing row with
  | nil =>
    have : row = [] := List.eq_nil_iff_forall_not_mem.2 fun x hx => by simpa using hrow x hx
    simp [this]
  | cons k ks ih =>
    rw [List.nodup_cons] at hks
    have hothers : ∀ k' ∈ ks, (row.filter fun x => key x == k') =
        (row.filter fun x => !(key x == k)).filter fun x => key x == k' := by
      intro k' hk'
      rw [List.filter_filter]
      refine List.filter_congr fun x _ => ?_
      by_cases h : key x = k'
      · have hne : key x ≠ k := fun he => hks.1 (he ▸ h ▸ hk')
        simp [h, h ▸ hne]
      · simp [h]
    have hkeys : ∀ x ∈ row.filter fun x => !(key x == k), key x ∈ ks := by
      intro x hx
      obtain ⟨hx, hne⟩ := List.mem_filter.1 hx
      rcases List.mem_cons.1 (hrow x hx) with h | h
      · simp [h] at hne
      · exact h
    have hrest := ih hks.2 hkeys
    rw [List.flatMap_cons]
    have heq : (ks.flatMap fun k' => row.filter fun x => key x == k') =
        ks.flatMap fun k' => (row.filter fun x => !(key x == k)).filter fun x => key x == k' :=
      List.flatMap_congr hothers
    rw [heq]
    exact (hrest.append_left _).trans (List.filter_append_perm _ row)

end NodeForge.Entries
