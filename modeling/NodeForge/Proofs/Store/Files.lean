import NodeForge.Proofs.Document.Entries
import NodeForge.Proofs.Outcome
import NodeForge.Store.Folder

/-!
# What making files and folders leaves

Making folders leaves all files as they are (`files_of_ensureFolders`). Putting a file changes what
is at its place and nothing else (`lookup_of_put`), and whether a file can be put does not hang on
what it is to hold (`isOk_put_congr`). A file that is there stays there.
-/

namespace NodeForge.Folder

variable {d d' : Folder} {p : Path} {content content' : String} {names : List Text}

/-! ### Folders -/

theorem files_of_makeFolder (h : d.makeFolder p = .ok d') : d'.files = d.files := by
  obtain ⟨place, -, h⟩ := Outcome.bind_eq_ok.1 h
  cases place with
  | outside isFolder => rw [Outcome.pure_eq_ok.1 h]
  | inside names =>
    dsimp only at h
    split at h
    · rw [← Outcome.pure_eq_ok.1 h]
    · cases h

theorem files_of_ensureFolder (h : d.ensureFolder p = .ok d') : d'.files = d.files := by
  unfold ensureFolder at h
  split at h
  · next made hmade =>
    rw [← Except.ok.inj h]
    exact files_of_makeFolder hmade
  · cases h
  · obtain ⟨isFolder, -, h⟩ := Outcome.bind_eq_ok.1 h
    split at h
    · rw [Outcome.pure_eq_ok.1 h]
    · cases h

theorem files_of_ensureFoldersTo {root : Text} {way : List Text}
    (h : d.ensureFoldersTo root way = .ok d') : d'.files = d.files := by
  induction way generalizing d d' with
  | nil => rw [← Except.ok.inj h]
  | cons name before ih =>
    rw [ensureFoldersTo] at h
    split at h
    · obtain ⟨made, hmade, h⟩ := Outcome.bind_eq_ok.1 h
      exact (files_of_ensureFolder h).trans (ih hmade)
    · exact files_of_ensureFolder h

/-- Making folders leaves the files as they are. -/
theorem files_of_ensureFolders (h : d.ensureFolders p = .ok d') : d'.files = d.files :=
  files_of_ensureFoldersTo h

/-! ### Files -/

/-- Where a file is put, if it can be put. -/
theorem put_eq_ok_iff : d.put p content = .ok d' ↔
    (d.placeOf p = .ok (.outside false) ∧ d' = d) ∨
      ∃ names, d.placeOf p = .ok (.inside names) ∧ d.hasFolder names = false ∧
        d' = { d with files := Entries.put names content d.files } := by
  unfold put
  rw [Outcome.bind_eq_ok]
  constructor
  · rintro ⟨place, hplace, h⟩
    cases place with
    | outside isFolder =>
      cases isFolder with
      | true => cases h
      | false => exact Or.inl ⟨hplace, (Outcome.pure_eq_ok.1 h).symm⟩
    | inside names =>
      dsimp only at h
      split at h
      · cases h
      · next hfolder =>
        exact Or.inr ⟨names, hplace, by simpa using hfolder, (Outcome.pure_eq_ok.1 h).symm⟩
  · rintro (⟨hplace, rfl⟩ | ⟨names, hplace, hfolder, rfl⟩)
    · exact ⟨_, hplace, rfl⟩
    · refine ⟨_, hplace, ?_⟩
      dsimp only
      rw [hfolder, if_neg Bool.false_ne_true]
      rfl

/-- Whether a file can be put does not hang on what it is to hold. -/
theorem exists_put_iff : (∃ d', d.put p content = .ok d') ↔ ∃ d', d.put p content' = .ok d' := by
  have h : ∀ content, (∃ d', d.put p content = .ok d') ↔ d.placeOf p = .ok (.outside false) ∨
      ∃ names, d.placeOf p = .ok (.inside names) ∧ d.hasFolder names = false := by
    intro content
    simp only [put_eq_ok_iff]
    constructor
    · rintro ⟨d', ⟨hplace, -⟩ | ⟨names, hplace, hfolder, -⟩⟩
      · exact Or.inl hplace
      · exact Or.inr ⟨names, hplace, hfolder⟩
    · rintro (hplace | ⟨names, hplace, hfolder⟩)
      · exact ⟨_, Or.inl ⟨hplace, rfl⟩⟩
      · exact ⟨_, Or.inr ⟨names, hplace, hfolder, rfl⟩⟩
  rw [h, h]

/-- A file that is put is there, and elsewhere all is as before. -/
theorem lookup_of_put (h : d.put p content = .ok d') :
    (d.placeOf p = .ok (.inside names) → d'.files.lookup names = some content) ∧
      (d.placeOf p ≠ .ok (.inside names) → d'.files.lookup names = d.files.lookup names) := by
  rcases put_eq_ok_iff.1 h with ⟨hplace, rfl⟩ | ⟨at', hplace, -, rfl⟩
  · rw [hplace]
    exact ⟨nofun, fun _ => rfl⟩
  · rw [hplace, Entries.lookup_put]
    constructor
    · intro heq
      cases heq
      rw [BEq.rfl, if_pos rfl]
    · intro hne
      have hbeq : (names == at') = false := by
        rw [beq_eq_false_iff_ne]
        rintro rfl
        exact hne rfl
      rw [hbeq, if_neg Bool.false_ne_true]

/-- A file that is there stays there. -/
theorem has_of_put (h : d.put p content = .ok d') (hthere : Entries.has names d.files = true) :
    Entries.has names d'.files = true := by
  rcases put_eq_ok_iff.1 h with ⟨-, rfl⟩ | ⟨at', -, -, rfl⟩
  · exact hthere
  · rw [Entries.has_put, hthere, Bool.or_true]

/-! ### Writing texts -/

/-- A text is written as far as the file can be put: as a whole, or as nothing where it has half a
pair in it. -/
theorem write_eq_of_put {text : Text} (h : d.put p (text.string?.getD "") = .ok d') :
    d.write p text =
      (d', if text.string?.isSome then .ok () else .error .notEncodable) := by
  unfold write
  rw [h]
  cases text.string? <;> rfl

theorem write_eq_of_error {text : Text} {fault : StoreFault}
    (h : d.put p (text.string?.getD "") = .error fault) : d.write p text = (d, .error fault) := by
  unfold write
  rw [h]

theorem has_of_write {text : Text} (hthere : Entries.has names d.files = true) :
    Entries.has names (d.write p text).1.files = true := by
  cases hput : d.put p (text.string?.getD "") with
  | error fault => rw [write_eq_of_error hput, hthere]
  | ok d' =>
    rw [write_eq_of_put hput]
    exact has_of_put hput hthere

theorem lookup_of_write {text : Text} (hplace : d.placeOf p ≠ .ok (.inside names)) :
    (d.write p text).1.files.lookup names = d.files.lookup names := by
  cases hput : d.put p (text.string?.getD "") with
  | error fault => rw [write_eq_of_error hput]
  | ok d' =>
    rw [write_eq_of_put hput]
    exact (lookup_of_put hput).2 hplace

/-! ### Ways -/

/-- A way of names only leads to the place of these names, if anywhere. -/
theorem eq_of_follow {place way : List Text} {q : Place}
    (hway : ∀ n ∈ way, isNoStep n = false ∧ n ≠ "..") (h : d.follow place way = .ok q) :
    q = .inside (place ++ way) := by
  induction way generalizing place with
  | nil =>
    rw [follow] at h
    rw [← Except.ok.inj h, List.append_nil]
  | cons n rest ih =>
    obtain ⟨hstep, hback⟩ := hway n List.mem_cons_self
    have hnot : (n == "..") = false := beq_eq_false_iff_ne.2 hback
    rw [follow] at h
    split at h
    · cases h
    · cases h
    · rw [hstep, hnot, if_neg Bool.false_ne_true, if_neg Bool.false_ne_true] at h
      split at h
      · cases h
      · rw [ih (fun m hm => hway m (List.mem_cons_of_mem _ hm)) h, List.append_assoc]
        rfl

/-- A path of names only leads to the place of these names, if anywhere. -/
theorem eq_of_placeOf {q : Place} (hroot : p.root = [])
    (hnames : ∀ n ∈ p.names, isNoStep n = false ∧ n ≠ "..") (h : d.placeOf p = .ok q) :
    q = .inside p.names := by
  unfold placeOf at h
  split at h
  · cases h
  · split at h
    · cases h
    · split at h
      · cases h
      · rw [hroot, List.isEmpty_nil, if_pos rfl] at h
        exact eq_of_follow hnames h

end NodeForge.Folder
