import NodeForge.OpenApi.Parameters
import NodeForge.Proofs.Outcome

/-!
# Declarations that are read alike

Of a declaration only a few things are ever looked at: its name, whether it is mandatory, its
schema, its description and its example. Two declarations that agree in these are `ReadsAlike`, and
putting the one for the other changes no parameter (`parametersFrom_map`).
-/

namespace NodeForge.OpenApi

/-- Whether two declarations agree in all that is looked at. -/
structure ReadsAlike (raw raw' : Fields) : Prop where
  name : nameOf raw' = nameOf raw
  required : isRequired raw' = isRequired raw
  schema : schemaOf raw' = schemaOf raw
  description : descriptionOf raw' = descriptionOf raw
  exampleValue : exampleOf raw' = exampleOf raw

theorem ReadsAlike.stageParameter_eq {raw raw' : Fields} (h : ReadsAlike raw raw')
    (location : Location) (method : Text) (required : Bool) :
    stageParameter location method required raw' = stageParameter location method required raw := by
  rw [stageParameter, stageParameter, h.schema, h.name, h.description, h.exampleValue]

theorem ReadsAlike.describedSchema_eq {raw raw' : Fields} (h : ReadsAlike raw raw') :
    describedSchema raw' = describedSchema raw := by
  rw [describedSchema, describedSchema, h.schema, h.description]

/-! ### Rows of declarations -/

section Rows

variable {raws : List Fields} {f : Fields → Fields} (h : ∀ raw ∈ raws, ReadsAlike raw (f raw))

include h

theorem filter_isRequired_map :
    (raws.map f).filter isRequired = (raws.filter isRequired).map f := by
  rw [List.filter_map]
  exact congrArg (List.map f) (List.filter_congr fun raw hraw => (h raw hraw).required)

theorem filter_not_isRequired_map : ((raws.map f).filter fun raw => !isRequired raw) =
    (raws.filter fun raw => !isRequired raw).map f := by
  rw [List.filter_map]
  refine congrArg (List.map f) (List.filter_congr fun raw hraw => ?_)
  exact congrArg (!·) (h raw hraw).required

theorem mapM_stageParameter_map (location : Location) (method : Text) (required : Bool) :
    (raws.map f).mapM (stageParameter location method required) =
      raws.mapM (stageParameter location method required) := by
  rw [List.mapM_map]
  exact Outcome.mapM_congr fun raw hraw => (h raw hraw).stageParameter_eq location method required

theorem propertiesOf_map : propertiesOf (raws.map f) = propertiesOf raws := by
  rw [propertiesOf, List.mapM_map, propertiesOf]
  refine Outcome.mapM_congr fun raw hraw => ?_
  show (do return (← propertyKey (nameOf (f raw)), ← describedSchema (f raw))) = _
  rw [(h raw hraw).name, (h raw hraw).describedSchema_eq]

theorem droppedParameters_map (endpoint : Text) (names : List Text) :
    droppedParameters endpoint names (raws.map f) = droppedParameters endpoint names raws := by
  let isLeft (raw : Fields) : Bool := !names.any fun n => (nameOf raw).isText n
  have hleft : raws.filter (isLeft ∘ f) = raws.filter isLeft := by
    refine List.filter_congr fun raw hraw => ?_
    show (!names.any fun n => (nameOf (f raw)).isText n) = _
    rw [(h raw hraw).name]
  rw [droppedParameters, List.filter_map, List.map_map, droppedParameters]
  show (raws.filter (isLeft ∘ f)).map _ = _
  rw [hleft]
  refine List.map_congr_left fun raw hraw => ?_
  show Warning.parameterDropped (nameOf (f raw)) endpoint = _
  rw [(h raw (List.mem_of_mem_filter hraw)).name]

/-- The declaration that is found for a placeholder is staged alike. -/
theorem stageParameter_find?_map (method name : Text) :
    stageParameter .path method true
        (((raws.map f).find? fun raw => (nameOf raw).isText name).getD (undeclared name)) =
      stageParameter .path method true
        ((raws.find? fun raw => (nameOf raw).isText name).getD (undeclared name)) := by
  let isNamed (raw : Fields) : Bool := (nameOf raw).isText name
  have hfound : raws.find? (isNamed ∘ f) = raws.find? isNamed := by
    rw [← List.head?_filter, ← List.head?_filter]
    refine congrArg List.head? (List.filter_congr fun raw hraw => ?_)
    show (nameOf (f raw)).isText name = _
    rw [(h raw hraw).name]
  rw [List.find?_map]
  show stageParameter .path method true (((raws.find? (isNamed ∘ f)).map f).getD _) = _
  rw [hfound]
  cases hraw : raws.find? isNamed with
  | none => rfl
  | some raw => exact (h raw (List.mem_of_find?_eq_some hraw)).stageParameter_eq .path method true

theorem stageOptional_map (method : Text) :
    stageOptional method (raws.map f) = stageOptional method raws := by
  rw [stageOptional, propertiesOf_map h, stageOptional]

end Rows

/-! ### All parameters -/

/-- The parameters that declarations for path and query make, with the warnings. -/
def parametersFrom (endpoint : Scalar) (method : Text) (inPath inQuery : List Fields) :
    Except Failure (List Parameter × List Warning) := do
  let endpoint ← endpoint.asText .wrongKind
  let names := Endpoint.placeholders endpoint
  let path ← names.mapM fun name =>
    stageParameter .path method true
      ((inPath.find? fun raw => (nameOf raw).isText name).getD (undeclared name))
  let required ← (inQuery.filter isRequired).mapM (stageParameter .query method true)
  let optional := inQuery.filter fun raw => !isRequired raw
  let grouped ←
    if optional.isEmpty then pure [] else do pure [← stageOptional method optional]
  return (path ++ required ++ grouped, droppedParameters endpoint names inPath)

theorem stageParameters_eq {ctx : Context} {declared : List (DeclarationKey × Fields)}
    (h : declarations ctx = .ok declared) :
    stageParameters ctx = parametersFrom ctx.endpoint ctx.method (declaredIn "path" declared)
      (declaredIn "query" declared) := by
  unfold stageParameters
  rw [h]
  rfl

/-- **Parameters are made from what is read.** Where the declarations for path and query are put for
others that are read alike, the parameters stay the same, and so do the warnings. -/
theorem parametersFrom_map {endpoint : Scalar} {method : Text} {inPath inQuery : List Fields}
    {f : Fields → Fields} (hpath : ∀ raw ∈ inPath, ReadsAlike raw (f raw))
    (hquery : ∀ raw ∈ inQuery, ReadsAlike raw (f raw)) :
    parametersFrom endpoint method (inPath.map f) (inQuery.map f) =
      parametersFrom endpoint method inPath inQuery := by
  have hrequired : ∀ raw ∈ inQuery.filter isRequired, ReadsAlike raw (f raw) :=
    fun raw hraw => hquery raw (List.mem_of_mem_filter hraw)
  have hoptional : ∀ raw ∈ inQuery.filter fun raw => !isRequired raw, ReadsAlike raw (f raw) :=
    fun raw hraw => hquery raw (List.mem_of_mem_filter hraw)
  unfold parametersFrom
  simp only [stageParameter_find?_map hpath, filter_isRequired_map hquery,
    mapM_stageParameter_map hrequired, filter_not_isRequired_map hquery, List.isEmpty_map,
    stageOptional_map hoptional, droppedParameters_map hpath]

end NodeForge.OpenApi
