import NodeForge.CommandLine.Run
import NodeForge.Proofs.Store.Files

/-!
# What the steps of a run leave

A run goes on from what has been done so far. `ending` is how it ends and what has been done then,
and there is one equation for each step (`ending_say`, `ending_makeFolders`, `ending_write`).

What a run leaves is said by relations between the progress before and the one afterwards. A
relation that is kept from step to step is kept by the whole run (`Leads.bind`, `Leads.forM`). There
are two of them: no run takes a written file away (`Extends`), and what does not write spares the
files as they are (`Spares`).
-/

namespace NodeForge.CommandLine

variable {α β : Type}

/-- How a run ends that goes on from `p`, and what has been done then. -/
def ending (x : Run α) (p : Progress) : Except Failure α × Progress := x.run.run p

/-! ### Equations -/

/-- A run goes on as long as nothing fails. -/
theorem ending_bind (x : Run α) (f : α → Run β) (p : Progress) :
    ending (x >>= f) p =
      match ending x p with
      | (.ok a, q) => ending (f a) q
      | (.error e, q) => (.error e, q) := by
  unfold ending
  rw [ExceptT.run_bind, StateT.run_bind]
  rcases x.run.run p with ⟨r, q⟩
  cases r <;> rfl

/-- A run fails whose rest fails wherever it goes on from. -/
theorem fails_bind {x : Run α} {f : α → Run β}
    (h : ∀ a q, ∃ failure q', ending (f a) q = (.error failure, q')) (p : Progress) :
    ∃ failure q, ending (x >>= f) p = (.error failure, q) := by
  rw [ending_bind]
  split
  · next a q _ => exact h a q
  · exact ⟨_, _, rfl⟩

@[simp] theorem ending_need (r : Except Failure α) (p : Progress) : ending (need r) p = (r, p) :=
  rfl

theorem ending_say (line : Text) (p : Progress) :
    ending (say line) p =
      if line.hasHalf then (.error (.store .notEncodable), p)
      else (.ok (), { p with lines := p.lines ++ [withoutColours 0 line] }) := by
  unfold say
  cases line.hasHalf <;> rfl

theorem ending_change (f : Folder → InStore Folder) (p : Progress) :
    ending (change f) p =
      match f p.folder with
      | .ok d => (.ok (), { p with folder := d })
      | .error fault => (.error (.store fault), p) := by
  show ending (need ((f p.folder).mapError Failure.store) >>= fun folder =>
    modify fun p => { p with folder }) p = _
  rw [ending_bind, ending_need]
  cases f p.folder <;> rfl

theorem ending_write (file : Path × Text) (p : Progress) :
    ending (write file) p =
      match p.folder.write file.1 file.2 with
      | (d, .ok ()) => (.ok (), { p with folder := d, written := p.written ++ [file] })
      | (d, .error fault) => (.error (.store fault), { p with folder := d }) := by
  show ending (need ((p.folder.write file.1 file.2).2.mapError Failure.store) >>= fun _ =>
    modify fun p => { p with written := p.written ++ [file] })
      { p with folder := (p.folder.write file.1 file.2).1 } = _
  rw [ending_bind, ending_need]
  rcases p.folder.write file.1 file.2 with ⟨d, r⟩
  cases r <;> rfl

/-! ### Relations between before and afterwards -/

/-- What has been done before a run and afterwards is related so, however the run ends. -/
def Leads (R : Progress → Progress → Prop) (x : Run α) : Prop := ∀ p, R p (ending x p).2

namespace Leads

variable {R : Progress → Progress → Prop} [IsPreorder Progress R]

theorem pure (a : α) : Leads R (pure a : Run α) := fun p => refl_of R p

theorem need (r : Except Failure α) : Leads R (need r) := fun p => refl_of R p

/-- What is kept by what follows a run is kept from its end on. -/
theorem behind {x : Run α} {f : α → Run β} (hf : ∀ a, Leads R (f a)) (p : Progress) :
    R (ending x p).2 (ending (x >>= f) p).2 := by
  rw [ending_bind]
  split
  · next a q h => rw [h]; exact hf a q
  · next e q h => rw [h]; exact refl_of R q

theorem bind {x : Run α} {f : α → Run β} (hx : Leads R x) (hf : ∀ a, Leads R (f a)) :
    Leads R (x >>= f) := fun p => trans_of R (hx p) (behind hf p)

theorem forM {f : α → Run Unit} (hf : ∀ a, Leads R (f a)) (xs : List α) : Leads R (xs.forM f) := by
  induction xs with
  | nil => exact pure ()
  | cons x xs ih => exact bind (hf x) fun _ => ih

end Leads

/-- What is listed as written stays listed, and a file that is there stays there. -/
structure Extends (p q : Progress) : Prop where
  listed : p.written <+: q.written
  kept : ∀ names, Entries.has names p.folder.files = true →
    Entries.has names q.folder.files = true

/-- Nothing has been listed as written, and but for some places the files are what they were. -/
structure Spares (places : List (List Text)) (p q : Progress) : Prop where
  listed : q.written = p.written
  files : ∀ names ∉ places, q.folder.files.lookup names = p.folder.files.lookup names

instance : IsPreorder Progress Extends where
  refl _ := ⟨List.prefix_rfl, fun _ h => h⟩
  trans _ _ _ h h' := ⟨h.listed.trans h'.listed, fun names hp => h'.kept names (h.kept names hp)⟩

instance (places : List (List Text)) : IsPreorder Progress (Spares places) where
  refl _ := ⟨rfl, fun _ _ => rfl⟩
  trans _ _ _ h h' := ⟨h'.listed.trans h.listed, fun names hnames =>
    (h'.files names hnames).trans (h.files names hnames)⟩

variable {places : List (List Text)} {p q : Progress}

theorem spares_of_files (hlisted : q.written = p.written)
    (hfiles : q.folder.files = p.folder.files) : Spares places p q :=
  ⟨hlisted, fun _ _ => by rw [hfiles]⟩

/-- Where all files are spared, none has been taken away. -/
theorem extends_of_spares (h : Spares [] p q) : Extends p q where
  listed := h.listed ▸ List.prefix_rfl
  kept names hthere := by rwa [Entries.has, h.files names List.not_mem_nil]

/-! ### Steps -/

theorem spares_say (line : Text) : Leads (Spares places) (say line) := by
  intro p
  rw [ending_say]
  split <;> exact spares_of_files rfl rfl

theorem spares_makeFolders (path : Path) : Leads (Spares places) (makeFolders path) := by
  intro p
  rw [makeFolders, ending_change]
  split
  · next d hd => exact spares_of_files rfl (Folder.files_of_ensureFolders hd)
  · exact spares_of_files rfl rfl

theorem extends_say (line : Text) : Leads Extends (say line) := fun p =>
  extends_of_spares (spares_say line p)

theorem extends_makeFolders (path : Path) : Leads Extends (makeFolders path) := fun p =>
  extends_of_spares (spares_makeFolders path p)

/-- What is there after a file has been written does not hang on whether it could be. -/
theorem folder_of_write (file : Path × Text) (p : Progress) :
    (ending (write file) p).2.folder = (p.folder.write file.1 file.2).1 := by
  rw [ending_write]
  split <;> next h => rw [h]

theorem extends_write (file : Path × Text) : Leads Extends (write file) := by
  intro p
  constructor
  · rw [ending_write]
    split
    · exact List.prefix_append _ _
    · exact List.prefix_rfl
  · intro names hthere
    rw [folder_of_write]
    exact Folder.has_of_write hthere

end NodeForge.CommandLine
