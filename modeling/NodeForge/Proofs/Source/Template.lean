import NodeForge.Proofs.Endpoint
import NodeForge.Proofs.Naming.Refolding
import NodeForge.Source.Request

/-!
# The template of an endpoint

The placeholders of an endpoint are renamed to constants one after the other, in one text. A name
that was folded is therefore taken for a placeholder again where a later one is called like it, and
is folded once more (`foldedBy_eq`); a third time changes nothing. The template is the endpoint with
these constants (`endpointTemplate_eq`).
-/

namespace NodeForge.Source

variable {o : Operation}

/-! ### Braces that begin expressions -/

/-- Opening braces are those of placeholders, so each begins an expression. -/
theorem templateOf_written {row : List Endpoint.Part} (h : Endpoint.AreDelimited row) :
    templateOf (Endpoint.written row) = Endpoint.asTemplate id row := by
  rw [templateOf, Text.replace, Rows.replace]
  induction row with
  | nil => rfl
  | cons part rest ih =>
    obtain ⟨hpart, hrest⟩ := Endpoint.areDelimited_cons.1 h
    rw [Endpoint.written_cons, Endpoint.asTemplate_cons, ← ih hrest]
    cases part with
    | plain c => exact Rows.replaceFrom_of_notMem hpart.1 _
    | placeholder name =>
      rw [Endpoint.text_append, Endpoint.template_append]
      refine (Rows.replaceFrom_pattern _).trans ?_
      exact congrArg (Sign.char '$' :: Sign.char '\x7b' :: ·)
        (Endpoint.replaceFrom_closed hpart.1 _)

/-! ### Names that are folded one after the other -/

/-- What has become of a name between braces when some names were folded there, one after the
other. -/
def foldedBy (names : List Text) (name : Text) : Text :=
  names.foldl (fun current name => if current = name then Naming.camel name else current) name

theorem foldedBy_cons (first name : Text) (rest : List Text) :
    foldedBy (first :: rest) name =
      foldedBy rest (if name = first then Naming.camel first else name) := rfl

theorem foldedBy_of_notMem {names : List Text} {name : Text} (h : name ∉ names) :
    foldedBy names name = name := by
  induction names with
  | nil => rfl
  | cons first rest ih =>
    rw [List.mem_cons, not_or] at h
    rw [foldedBy_cons, if_neg h.1, ih h.2]

/-- A name that folds to itself stays as it is. -/
theorem foldedBy_of_settled {name : Text} (h : Naming.camel name = name) (names : List Text) :
    foldedBy names name = name := by
  induction names with
  | nil => rfl
  | cons first rest ih =>
    rw [foldedBy_cons]
    split
    · next heq => rw [← heq, h, ih]
    · exact ih

/-- A name that was folded is folded once more where its folded form is among the names that
follow. -/
theorem foldedBy_camel (names : List Text) (name : Text) :
    foldedBy names (Naming.camel name) =
      if Naming.camel name ∈ names then Naming.camel (Naming.camel name) else Naming.camel name := by
  induction names with
  | nil => rfl
  | cons first rest ih =>
    rw [foldedBy_cons]
    by_cases hfirst : Naming.camel name = first
    · rw [if_pos hfirst, if_pos (hfirst ▸ List.mem_cons_self), ← hfirst]
      exact foldedBy_of_settled (Naming.camel_camel_camel name) rest
    · rw [if_neg hfirst, ih]
      simp [hfirst]

theorem foldedBy_eq {before behind : List Text} {name : Text}
    (hnodup : (before ++ name :: behind).Nodup) :
    foldedBy (before ++ name :: behind) name =
      if Naming.camel name ∈ behind then Naming.camel (Naming.camel name)
      else Naming.camel name := by
  have hbefore : name ∉ before := fun hmem =>
    (List.nodup_append.1 hnodup).2.2 name hmem name List.mem_cons_self rfl
  have hsplit : foldedBy (before ++ name :: behind) name =
      foldedBy (name :: behind) (foldedBy before name) := List.foldl_append
  rw [hsplit, foldedBy_of_notMem hbefore, foldedBy_cons, if_pos rfl, foldedBy_camel]

/-- The first name is folded to that of the second one, and with it. -/
example : foldedBy ["a b c", "aBC"] "a b c" = foldedBy ["a b c", "aBC"] "aBC" := by decide

theorem isBraceless_camel (name : Text) : Braces.IsBraceless (Naming.camel name) := by
  have hnot {c : Char} (hc : Naming.isWordSign c = false) : Sign.char c ∉ Naming.camel name := by
    intro hmem
    rw [Naming.isWordSign_of_mem_camel hmem] at hc
    exact Bool.false_ne_true hc.symm
  exact ⟨hnot (by decide), hnot (by decide)⟩

theorem isBraceless_foldedBy (names : List Text) {name : Text} (h : Braces.IsBraceless name) :
    Braces.IsBraceless (foldedBy names name) := by
  induction names generalizing name with
  | nil => exact h
  | cons first rest ih =>
    rw [foldedBy_cons]
    split
    · exact ih (isBraceless_camel first)
    · exact ih h

/-- Folding names one after the other in a text renames its placeholders. -/
theorem foldl_replace {row : List Endpoint.Part} (hrow : Endpoint.AreDelimited row)
    {names : List Text} (hnames : ∀ name ∈ names, Braces.IsBraceless name) :
    names.foldl (fun text name => Text.replace (Endpoint.Part.placeholder name).text
        (Endpoint.Part.placeholder (Naming.camel name)).text text) (Endpoint.written row) =
      Endpoint.written (row.map (Endpoint.Part.rename (foldedBy names))) := by
  induction names generalizing row with
  | nil => rw [Endpoint.map_rename_id (foldedBy []) fun _ => rfl]; rfl
  | cons first rest ih =>
    have hfirst := hnames first List.mem_cons_self
    have hrenamed := Endpoint.areDelimited_map_rename hrow fun _ => isBraceless_foldedBy [first]
    have hrest := ih hrenamed fun name hname => hnames name (.tail _ hname)
    rw [List.foldl_cons, Endpoint.replace_written hrow hfirst]
    refine hrest.trans ?_
    rw [Endpoint.map_rename_map]
    rfl

/-- **The endpoint of a request.** Its template is the endpoint, with a constant for each
placeholder: the name of the placeholder as it was folded while all of them were folded one after
the other. -/
theorem endpointTemplate_eq
    (hpath : o.pathParameters.map Parameter.name = Endpoint.placeholders o.endpoint)
    (hdelimits : Endpoint.OnlyDelimits o.endpoint) :
    endpointTemplate o = Endpoint.asTemplate (foldedBy (Endpoint.placeholders o.endpoint))
      (Endpoint.parts o.endpoint) := by
  have hbraceless : ∀ name ∈ Endpoint.placeholders o.endpoint, Braces.IsBraceless name :=
    fun name hname => hdelimits _ (Endpoint.mem_placeholders.1 hname)
  have hfolded := foldl_replace hdelimits hbraceless
  have hdelimited := Endpoint.areDelimited_map_rename hdelimits fun _ =>
    isBraceless_foldedBy (Endpoint.placeholders o.endpoint)
  have htemplate := templateOf_written hdelimited
  rw [Endpoint.asTemplate_map_rename, ← hfolded, Endpoint.written_parts, ← hpath,
    List.foldl_map] at htemplate
  rw [← hpath]
  exact htemplate

/-- The constant of a placeholder stands in the template exactly if it is not folded again: its
name is not that of a later placeholder, or folds to itself. -/
theorem endpointTemplate_eq_iff
    (hpath : o.pathParameters.map Parameter.name = Endpoint.placeholders o.endpoint)
    (hdelimits : Endpoint.OnlyDelimits o.endpoint) :
    endpointTemplate o = Endpoint.asTemplate Naming.camel (Endpoint.parts o.endpoint) ↔
      ∀ before name behind, Endpoint.placeholders o.endpoint = before ++ name :: behind →
        Naming.camel name ∈ behind → Naming.camel (Naming.camel name) = Naming.camel name := by
  have hnodup : (Endpoint.placeholders o.endpoint).Nodup := Entries.nodup_distinct _
  have hfolded : ∀ name, .placeholder name ∈ Endpoint.parts o.endpoint →
      Braces.IsBraceless (foldedBy (Endpoint.placeholders o.endpoint) name) :=
    fun name hname => isBraceless_foldedBy _ (hdelimits _ hname)
  rw [endpointTemplate_eq hpath hdelimits,
    Endpoint.asTemplate_inj hfolded fun name _ => isBraceless_camel name]
  constructor
  · intro hsame before name behind hrow hbehind
    have hname := hsame name (Endpoint.mem_placeholders.1 (hrow ▸ by simp))
    rwa [hrow, foldedBy_eq (hrow ▸ hnodup), if_pos hbehind] at hname
  · intro hsettled name hname
    obtain ⟨before, behind, hrow⟩ := List.append_of_mem (Endpoint.mem_placeholders.2 hname)
    rw [hrow, foldedBy_eq (hrow ▸ hnodup)]
    split
    · next hbehind => exact hsettled before name behind hrow hbehind
    · rfl

end NodeForge.Source
