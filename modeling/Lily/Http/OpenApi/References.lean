import Lily.Control.Validation
import Lily.Graph.Dependency
import Mathlib.Data.List.AList
import Mathlib.Data.Finset.Card

/-!
# The references of the final OpenAPI document

The last check over the merged paths and components. Schema references are only looked up, so that
recursive schemas are accepted; references from one response component to another are followed by a
depth-first search, whose two sets are shared between the roots. The maps of the document whose keys
the check does not read are lists of their values.
-/

namespace Lily.Http.OpenApi

open Relation
open Graph (Grounded)

abbrev Text := List Char

/-! ## Documents -/

mutual

/-- `items` is absent for `ArrayItems::False`, `additionalProperties` for a plain flag. -/
inductive Schema where
  | array (items : Option RefOrSchema) (prefixItems : List Schema)
  | object (properties : List RefOrSchema) (additionalProperties : Option RefOrSchema)
      (propertyNames : Option Schema)
  | oneOf (items : List RefOrSchema)
  | allOf (items : List RefOrSchema)
  | anyOf (items : List RefOrSchema)

inductive RefOrSchema where
  | ref (refLocation : Text)
  | inline (schema : Schema)

end

structure Header where
  schema : RefOrSchema

structure Encoding where
  headers : List Header := []

structure Content where
  schema : Option RefOrSchema := none
  encoding : List Encoding := []

structure Response where
  headers : List Header := []
  content : List Content := []

inductive RefOrResponse where
  | ref (refLocation : Text)
  | inline (response : Response)

structure Parameter where
  schema : Option RefOrSchema := none

structure Operation where
  parameters : List Parameter := []
  requestBody : Option (List Content) := none
  responses : List RefOrResponse := []

structure PathItem where
  parameters : List Parameter := []
  get : Option Operation := none
  put : Option Operation := none
  post : Option Operation := none
  delete : Option Operation := none
  options : Option Operation := none
  head : Option Operation := none
  patch : Option Operation := none
  trace : Option Operation := none

def PathItem.operations (item : PathItem) : List Operation :=
  [item.get, item.put, item.post, item.delete, item.options, item.head, item.patch,
    item.trace].filterMap id

structure Components where
  schemas : AList fun _ : Text => RefOrSchema
  responses : AList fun _ : Text => RefOrResponse

/-! ## Direct component references -/

inductive OpenApiComponentKind where
  | schema
  | response
  deriving DecidableEq

inductive Failure where
  | invalidLocalReference (kind : OpenApiComponentKind) (reference : Text)
  /-- The `expect` on a response component that is not there. -/
  | panicked

def localReferencePrefix : OpenApiComponentKind → Text
  | .schema => "#/components/schemas/".toList
  | .response => "#/components/responses/".toList

def OpenApiComponentKind.other : OpenApiComponentKind → OpenApiComponentKind
  | .schema => .response
  | .response => .schema

def Components.names (components : Components) : OpenApiComponentKind → List Text
  | .schema => components.schemas.keys
  | .response => components.responses.keys

def unescape : Text → Option Text
  | [] => some []
  | '~' :: '0' :: rest => (unescape rest).map ('~' :: ·)
  | '~' :: '1' :: rest => (unescape rest).map ('/' :: ·)
  | '~' :: _ => none
  | c :: rest => (unescape rest).map (c :: ·)

/-- What a reference is to one kind of component. -/
inductive Shape where
  | elsewhere
  | malformed
  | direct (name : Text)
  deriving DecidableEq

section Names

-- Percent-decoding followed by a check for UTF-8.
variable (percentDecode : Text → Option Text)

def directComponentReferenceName (reference : Text) (kind : OpenApiComponentKind) : Shape :=
  if (localReferencePrefix kind).isPrefixOf reference then
    let name := reference.drop (localReferencePrefix kind).length
    if name.isEmpty then .malformed
    else match percentDecode name with
      | none => .malformed
      | some name =>
        if name.contains '/' then .elsewhere
        else match unescape name with
          | none => .malformed
          | some name => .direct name
  else .elsewhere

def hasDirectComponentShape (reference : Text) (kind : OpenApiComponentKind) : Bool :=
  directComponentReferenceName percentDecode reference kind != .elsewhere

def validateLocalComponentReference (components : Components) (kind : OpenApiComponentKind)
    (reference : Text) : Except Failure Unit :=
  match directComponentReferenceName percentDecode reference kind with
  | .direct name =>
    if (components.names kind).contains name then .ok ()
    else .error (.invalidLocalReference kind reference)
  | .elsewhere =>
    if hasDirectComponentShape percentDecode reference kind.other then
      .error (.invalidLocalReference kind reference)
    else .ok ()
  | .malformed => .error (.invalidLocalReference kind reference)

/-! ## The check -/

variable (components : Components)

mutual

def validateSchemaReference : RefOrSchema → Except Failure Unit
  | .ref refLocation =>
    validateLocalComponentReference percentDecode components .schema refLocation
  | .inline schema => validateInlineSchema schema

def validateInlineSchema : Schema → Except Failure Unit
  | .array items prefixItems => do
    validateOptionalSchema items
    validatePrefixItems prefixItems
  | .object properties additionalProperties propertyNames => do
    validateSchemaItems properties
    validateOptionalSchema additionalProperties
    validatePropertyNames propertyNames
  | .oneOf items | .allOf items | .anyOf items => validateSchemaItems items

def validateOptionalSchema : Option RefOrSchema → Except Failure Unit
  | none => .ok ()
  | some schema => validateSchemaReference schema

def validatePropertyNames : Option Schema → Except Failure Unit
  | none => .ok ()
  | some schema => validateInlineSchema schema

def validateSchemaItems : List RefOrSchema → Except Failure Unit
  | [] => .ok ()
  | schema :: rest => do
    validateSchemaReference schema
    validateSchemaItems rest

def validatePrefixItems : List Schema → Except Failure Unit
  | [] => .ok ()
  | schema :: rest => do
    validateInlineSchema schema
    validatePrefixItems rest

end

def validateContentReferences (content : Content) : Except Failure Unit := do
  validateOptionalSchema percentDecode components content.schema
  content.encoding.forM fun encoding =>
    encoding.headers.forM fun header =>
      validateSchemaReference percentDecode components header.schema

def validateInlineResponseReferences (response : Response) : Except Failure Unit := do
  response.headers.forM fun header =>
    validateSchemaReference percentDecode components header.schema
  response.content.forM (validateContentReferences percentDecode components)

def validateResponseReference : RefOrResponse → Except Failure Unit
  | .ref refLocation =>
    validateLocalComponentReference percentDecode components .response refLocation
  | .inline response => validateInlineResponseReferences percentDecode components response

def target : RefOrResponse → Option Text
  | .ref refLocation =>
    match directComponentReferenceName percentDecode refLocation .response with
    | .direct name => some name
    | _ => none
  | .inline _ => none

/-- The two sets of the search over response components. -/
structure Marks where
  visiting : Finset Text := ∅
  resolved : Finset Text := ∅

def Marks.enter (marks : Marks) (name : Text) : Marks :=
  { marks with visiting := insert name marks.visiting }

def Marks.leave (marks : Marks) (name : Text) : Marks :=
  ⟨marks.visiting.erase name, insert name marks.resolved⟩

def validateResponseComponent (name : Text) (marks : Marks) : Except Failure Marks :=
  if name ∈ marks.resolved then .ok marks
  else if _hfree : name ∈ marks.visiting then
    .error (.invalidLocalReference .response (localReferencePrefix .response ++ name))
  else match _hlookup : components.responses.lookup name with
    | none => .error .panicked
    | some response => do
      validateResponseReference percentDecode components response
      match target percentDecode response with
      | some name' =>
        let below ← validateResponseComponent name' (marks.enter name)
        return below.leave name
      | none => return (marks.enter name).leave name
termination_by (components.responses.keys.toFinset \ marks.visiting).card
decreasing_by
  refine Finset.card_lt_card (Finset.ssubset_iff_of_subset ?_ |>.mpr ⟨name, ?_, ?_⟩)
  · exact Finset.sdiff_subset_sdiff subset_rfl (Finset.subset_insert _ _)
  · rw [Finset.mem_sdiff, List.mem_toFinset]
    exact ⟨AList.lookup_isSome.mp (by rw [_hlookup]; rfl), _hfree⟩
  · simp [Marks.enter]

def validateOperationReferences (operation : Operation) : Except Failure Unit := do
  operation.parameters.forM fun parameter =>
    validateOptionalSchema percentDecode components parameter.schema
  (operation.requestBody.getD []).forM (validateContentReferences percentDecode components)
  operation.responses.forM (validateResponseReference percentDecode components)

def validateLocalReferenceIntegrity (paths : List PathItem) : Except Failure Unit := do
  (components.schemas.entries.map Sigma.snd).forM
    (validateSchemaReference percentDecode components)
  let _ ← components.responses.keys.foldlM
    (fun marks name => validateResponseComponent percentDecode components name marks) {}
  paths.forM fun item => do
    item.parameters.forM fun parameter =>
      validateOptionalSchema percentDecode components parameter.schema
    item.operations.forM (validateOperationReferences percentDecode components)

end Names

/-! ## The reference sites -/

mutual

def RefOrSchema.references : RefOrSchema → List Text
  | .ref refLocation => [refLocation]
  | .inline schema => schema.references

def Schema.references : Schema → List Text
  | .array items prefixItems => optionReferences items ++ prefixReferences prefixItems
  | .object properties additionalProperties propertyNames =>
    itemReferences properties ++
      (optionReferences additionalProperties ++ nameReferences propertyNames)
  | .oneOf items | .allOf items | .anyOf items => itemReferences items

def optionReferences : Option RefOrSchema → List Text
  | none => []
  | some schema => schema.references

def nameReferences : Option Schema → List Text
  | none => []
  | some schema => schema.references

def itemReferences : List RefOrSchema → List Text
  | [] => []
  | schema :: rest => schema.references ++ itemReferences rest

def prefixReferences : List Schema → List Text
  | [] => []
  | schema :: rest => schema.references ++ prefixReferences rest

end

def Header.references (header : Header) : List Text := header.schema.references

def Content.references (content : Content) : List Text :=
  optionReferences content.schema ++
    content.encoding.flatMap fun encoding => encoding.headers.flatMap Header.references

def Response.references (response : Response) : List Text :=
  response.headers.flatMap Header.references ++ response.content.flatMap Content.references

def RefOrResponse.schemaReferences : RefOrResponse → List Text
  | .ref _ => []
  | .inline response => response.references

def RefOrResponse.responseReferences : RefOrResponse → List Text
  | .ref refLocation => [refLocation]
  | .inline _ => []

def Operation.schemaReferences (operation : Operation) : List Text :=
  operation.parameters.flatMap (fun parameter => optionReferences parameter.schema) ++
    ((operation.requestBody.getD []).flatMap Content.references ++
      operation.responses.flatMap RefOrResponse.schemaReferences)

def PathItem.schemaReferences (item : PathItem) : List Text :=
  item.parameters.flatMap (fun parameter => optionReferences parameter.schema) ++
    item.operations.flatMap Operation.schemaReferences

/-- The references of one kind in the whole document, used or not. -/
def references (paths : List PathItem) (components : Components) :
    OpenApiComponentKind → List Text
  | .schema =>
    (components.schemas.entries.map Sigma.snd).flatMap RefOrSchema.references ++
      ((components.responses.entries.map Sigma.snd).flatMap RefOrResponse.schemaReferences ++
        paths.flatMap PathItem.schemaReferences)
  | .response =>
    (components.responses.entries.map Sigma.snd).flatMap RefOrResponse.responseReferences ++
      paths.flatMap fun item => item.operations.flatMap fun operation =>
        operation.responses.flatMap RefOrResponse.responseReferences

/-! ## What is asked of a reference -/

section Specification

variable (percentDecode : Text → Option Text)

def DirectReference (kind : OpenApiComponentKind) (reference name : Text) : Prop :=
  ∃ encoded decoded, reference = localReferencePrefix kind ++ encoded ∧ encoded ≠ [] ∧
    percentDecode encoded = some decoded ∧ '/' ∉ decoded ∧ unescape decoded = some name

/-- The reference has the form of a direct one and names nothing. -/
def MalformedReference (kind : OpenApiComponentKind) (reference : Text) : Prop :=
  ∃ encoded, reference = localReferencePrefix kind ++ encoded ∧
    (encoded = [] ∨ percentDecode encoded = none ∨
      ∃ decoded, percentDecode encoded = some decoded ∧ '/' ∉ decoded ∧ unescape decoded = none)

structure ReferenceOk (components : Components) (kind : OpenApiComponentKind) (reference : Text) :
    Prop where
  existing : ∀ name, DirectReference percentDecode kind reference name →
    name ∈ components.names kind
  ownKind : ∀ name, ¬ DirectReference percentDecode kind.other reference name
  wellFormed : ∀ kind, ¬ MalformedReference percentDecode kind reference

/-- The response component `name` is a reference to `name'`. -/
def RefersTo (components : Components) (name name' : Text) : Prop :=
  ∃ refLocation, components.responses.lookup name = some (.ref refLocation) ∧
    DirectReference percentDecode .response refLocation name'

end Specification

section Names

variable {percentDecode : Text → Option Text} {components : Components}
  {kind : OpenApiComponentKind} {reference name : Text}

/-- The three outcomes of the decoder. -/
theorem directComponentReferenceName_append (encoded : Text) :
    directComponentReferenceName percentDecode (localReferencePrefix kind ++ encoded) kind =
      if encoded.isEmpty then .malformed
      else match percentDecode encoded with
        | none => .malformed
        | some name =>
          if name.contains '/' then .elsewhere
          else match unescape name with
            | none => .malformed
            | some name => .direct name := by
  have hprefixed : (localReferencePrefix kind).isPrefixOf (localReferencePrefix kind ++ encoded) =
      true := List.isPrefixOf_iff_prefix.mpr (List.prefix_append _ _)
  rw [directComponentReferenceName, if_pos hprefixed, List.drop_left]

theorem prefixed_of_ne_elsewhere
    (h : directComponentReferenceName percentDecode reference kind ≠ .elsewhere) :
    ∃ encoded, reference = localReferencePrefix kind ++ encoded := by
  by_contra hnone
  refine h (if_neg fun hprefixed => hnone ?_)
  obtain ⟨encoded, hencoded⟩ := List.isPrefixOf_iff_prefix.mp hprefixed
  exact ⟨encoded, hencoded.symm⟩

theorem directReference_iff :
    DirectReference percentDecode kind reference name ↔
      directComponentReferenceName percentDecode reference kind = .direct name := by
  constructor
  · rintro ⟨encoded, decoded, rfl, hne, hdecode, hslash, hname⟩
    simp [directComponentReferenceName_append, hne, hdecode, hslash, hname]
  · intro h
    obtain ⟨encoded, rfl⟩ := prefixed_of_ne_elsewhere (by rw [h]; simp)
    rw [directComponentReferenceName_append] at h
    split_ifs at h with hempty
    split at h
    · cases h
    next decoded hdecode =>
      split_ifs at h with hslash
      split at h
      · cases h
      next unescaped hname =>
        obtain rfl := Shape.direct.inj h
        exact ⟨encoded, decoded, rfl, by simpa using hempty, hdecode, by simpa using hslash, hname⟩

theorem malformedReference_iff :
    MalformedReference percentDecode kind reference ↔
      directComponentReferenceName percentDecode reference kind = .malformed := by
  constructor
  · rintro ⟨encoded, rfl, rfl | hdecode | ⟨decoded, hdecode, hslash, hname⟩⟩
    · rw [directComponentReferenceName_append, List.isEmpty_nil, if_pos rfl]
    · simp [directComponentReferenceName_append, hdecode]
    · simp [directComponentReferenceName_append, hdecode, hslash, hname]
  · intro h
    obtain ⟨encoded, rfl⟩ := prefixed_of_ne_elsewhere (by rw [h]; simp)
    refine ⟨encoded, rfl, ?_⟩
    rw [directComponentReferenceName_append] at h
    split_ifs at h with hempty
    · exact .inl (by simpa using hempty)
    · split at h
      next hdecode => exact .inr (.inl hdecode)
      next decoded hdecode =>
        split_ifs at h with hslash
        split at h
        next hname => exact .inr (.inr ⟨decoded, hdecode, by simpa using hslash, hname⟩)
        next => cases h

theorem elsewhere_of_ne
    (h : directComponentReferenceName percentDecode reference kind ≠ .elsewhere) :
    directComponentReferenceName percentDecode reference kind.other = .elsewhere := by
  by_contra hother
  obtain ⟨encoded, rfl⟩ := prefixed_of_ne_elsewhere h
  obtain ⟨encoded', heq⟩ := prefixed_of_ne_elsewhere hother
  have hlength : ∀ kind, 14 ≤ (localReferencePrefix kind).length := by
    intro kind
    cases kind <;> decide
  have hstart :
      (localReferencePrefix kind).take 14 ≠ (localReferencePrefix kind.other).take 14 := by
    cases kind <;> decide
  have htake := congrArg (List.take 14) heq
  rw [List.take_append_of_le_length (hlength _), List.take_append_of_le_length (hlength _)] at htake
  exact hstart htake

theorem validateLocalComponentReference_ok_iff {u : Unit} :
    validateLocalComponentReference percentDecode components kind reference = .ok u ↔
      ReferenceOk percentDecode components kind reference := by
  have hspec : ReferenceOk percentDecode components kind reference ↔
      (∀ name, directComponentReferenceName percentDecode reference kind = .direct name →
        name ∈ components.names kind) ∧
      directComponentReferenceName percentDecode reference kind ≠ .malformed ∧
      directComponentReferenceName percentDecode reference kind.other = .elsewhere := by
    constructor
    · rintro ⟨hexisting, hownKind, hwellFormed⟩
      refine ⟨fun name h => hexisting name (directReference_iff.mpr h),
        fun h => hwellFormed kind (malformedReference_iff.mpr h), ?_⟩
      cases hshape : directComponentReferenceName percentDecode reference kind.other with
      | elsewhere => rfl
      | malformed => exact absurd (malformedReference_iff.mpr hshape) (hwellFormed _)
      | direct name => exact absurd (directReference_iff.mpr hshape) (hownKind name)
    · rintro ⟨hexisting, hmalformed, hother⟩
      refine ⟨fun name h => hexisting name (directReference_iff.mp h), fun name h => ?_,
        fun kind' h => ?_⟩
      · rw [directReference_iff, hother] at h
        cases h
      · rw [malformedReference_iff] at h
        by_cases hkind : kind' = kind
        · exact hmalformed (hkind ▸ h)
        · have hkind' : kind' = kind.other := by cases kind <;> cases kind' <;> simp_all <;> rfl
          rw [hkind', hother] at h
          cases h
  rw [hspec, validateLocalComponentReference]
  cases hshape : directComponentReferenceName percentDecode reference kind with
  | elsewhere => simp [hasDirectComponentShape]
  | malformed => simp
  | direct found =>
    have hother := elsewhere_of_ne (by rw [hshape]; simp)
    simp [hother]

end Names

/-! ## Schemas and responses -/

section Sites

variable {percentDecode : Text → Option Text} {components : Components}

def AllOk (percentDecode : Text → Option Text) (components : Components)
    (kind : OpenApiComponentKind) (references : List Text) : Prop :=
  ∀ reference ∈ references, ReferenceOk percentDecode components kind reference

variable {α : Type} {f : α → Except Failure Unit} {sites : α → List Text}
  {kind : OpenApiComponentKind} {values : List α}

@[simp] theorem allOk_nil :
    AllOk percentDecode components kind [] := fun _ h => absurd h List.not_mem_nil

@[simp] theorem allOk_singleton {reference : Text} :
    AllOk percentDecode components kind [reference] ↔
      ReferenceOk percentDecode components kind reference := List.forall_mem_singleton

theorem allOk_flatMap {sites : α → List Text} {values : List α} :
    AllOk percentDecode components kind (values.flatMap sites) ↔
      ∀ a ∈ values, AllOk percentDecode components kind (sites a) := by
  simp only [AllOk, List.mem_flatMap, forall_exists_index, and_imp]
  exact ⟨fun h a ha reference => h reference a ha, fun h reference a ha => h a ha reference⟩

theorem forM_ok_iff_allOk (h : ∀ a, f a = .ok () ↔ AllOk percentDecode components kind (sites a)) :
    values.forM f = .ok () ↔ AllOk percentDecode components kind (values.flatMap sites) := by
  rw [Validation.forM_ok_iff, allOk_flatMap]
  exact forall₂_congr fun a _ => h a

theorem allOk_append {before after : List Text} :
    AllOk percentDecode components kind (before ++ after) ↔
      AllOk percentDecode components kind before ∧ AllOk percentDecode components kind after :=
  List.forall_mem_append

theorem bind_unit_ok_iff {x y : Except Failure Unit} {P Q : Prop} (hx : x = .ok () ↔ P)
    (hy : y = .ok () ↔ Q) : (do x; y) = .ok () ↔ P ∧ Q := by
  rw [Validation.bind_ok_iff]
  exact ⟨fun ⟨_, h, h'⟩ => ⟨hx.mp h, hy.mp h'⟩, fun ⟨h, h'⟩ => ⟨(), hx.mpr h, hy.mpr h'⟩⟩

mutual

/-- By recursion on the schema; a case for each place where a schema may stand. -/
theorem validateSchemaReference_ok_iff : ∀ schema : RefOrSchema,
    validateSchemaReference percentDecode components schema = .ok () ↔
      AllOk percentDecode components .schema schema.references
  | .ref refLocation => by
    rw [validateSchemaReference, validateLocalComponentReference_ok_iff, RefOrSchema.references]
    simp
  | .inline schema => by
    rw [validateSchemaReference, RefOrSchema.references]
    exact validateInlineSchema_ok_iff schema

theorem validateInlineSchema_ok_iff : ∀ schema : Schema,
    validateInlineSchema percentDecode components schema = .ok () ↔
      AllOk percentDecode components .schema schema.references
  | .array items prefixItems => by
    rw [validateInlineSchema, Schema.references, allOk_append]
    exact bind_unit_ok_iff (validateOptionalSchema_ok_iff items)
      (validatePrefixItems_ok_iff prefixItems)
  | .object properties additionalProperties propertyNames => by
    rw [validateInlineSchema, Schema.references, allOk_append, allOk_append]
    exact bind_unit_ok_iff (validateSchemaItems_ok_iff properties)
      (bind_unit_ok_iff (validateOptionalSchema_ok_iff additionalProperties)
        (validatePropertyNames_ok_iff propertyNames))
  | .oneOf items | .allOf items | .anyOf items => by
    rw [validateInlineSchema, Schema.references]
    exact validateSchemaItems_ok_iff items

theorem validateOptionalSchema_ok_iff : ∀ schema : Option RefOrSchema,
    validateOptionalSchema percentDecode components schema = .ok () ↔
      AllOk percentDecode components .schema (optionReferences schema)
  | none => by simp [validateOptionalSchema, optionReferences]
  | some schema => by
    rw [validateOptionalSchema, optionReferences]
    exact validateSchemaReference_ok_iff schema

theorem validatePropertyNames_ok_iff : ∀ schema : Option Schema,
    validatePropertyNames percentDecode components schema = .ok () ↔
      AllOk percentDecode components .schema (nameReferences schema)
  | none => by simp [validatePropertyNames, nameReferences]
  | some schema => by
    rw [validatePropertyNames, nameReferences]
    exact validateInlineSchema_ok_iff schema

theorem validateSchemaItems_ok_iff : ∀ items : List RefOrSchema,
    validateSchemaItems percentDecode components items = .ok () ↔
      AllOk percentDecode components .schema (itemReferences items)
  | [] => by simp [validateSchemaItems, itemReferences]
  | schema :: rest => by
    rw [validateSchemaItems, itemReferences, allOk_append]
    exact bind_unit_ok_iff (validateSchemaReference_ok_iff schema)
      (validateSchemaItems_ok_iff rest)

theorem validatePrefixItems_ok_iff : ∀ items : List Schema,
    validatePrefixItems percentDecode components items = .ok () ↔
      AllOk percentDecode components .schema (prefixReferences items)
  | [] => by simp [validatePrefixItems, prefixReferences]
  | schema :: rest => by
    rw [validatePrefixItems, prefixReferences, allOk_append]
    exact bind_unit_ok_iff (validateInlineSchema_ok_iff schema) (validatePrefixItems_ok_iff rest)

end

theorem validateHeaders_ok_iff (headers : List Header) :
    (headers.forM fun header => validateSchemaReference percentDecode components header.schema) =
        .ok () ↔
      AllOk percentDecode components .schema (headers.flatMap Header.references) :=
  forM_ok_iff_allOk fun header => validateSchemaReference_ok_iff header.schema

theorem validateContentReferences_ok_iff (content : Content) :
    validateContentReferences percentDecode components content = .ok () ↔
      AllOk percentDecode components .schema content.references := by
  rw [validateContentReferences, Content.references, allOk_append]
  exact bind_unit_ok_iff (validateOptionalSchema_ok_iff _)
    (forM_ok_iff_allOk fun encoding => validateHeaders_ok_iff encoding.headers)

theorem validateResponseReference_ok_iff (response : RefOrResponse) :
    validateResponseReference percentDecode components response = .ok () ↔
      AllOk percentDecode components .schema response.schemaReferences ∧
        AllOk percentDecode components .response response.responseReferences := by
  cases response with
  | ref refLocation =>
    rw [validateResponseReference, validateLocalComponentReference_ok_iff]
    simp [RefOrResponse.schemaReferences, RefOrResponse.responseReferences]
  | inline response =>
    rw [validateResponseReference, validateInlineResponseReferences]
    simp only [RefOrResponse.schemaReferences, RefOrResponse.responseReferences,
      Response.references, allOk_append, allOk_nil, and_true]
    exact bind_unit_ok_iff (validateHeaders_ok_iff _)
      (forM_ok_iff_allOk fun content => validateContentReferences_ok_iff content)

end Sites

/-! ## The search over response components -/

section Search

variable {percentDecode : Text → Option Text} {components : Components} {name : Text}
  {marks marks' : Marks}

def OwnOk (percentDecode : Text → Option Text) (components : Components) (name : Text) : Prop :=
  ∃ response, components.responses.lookup name = some response ∧
    validateResponseReference percentDecode components response = .ok ()

theorem refersTo_iff {name' : Text} :
    RefersTo percentDecode components name name' ↔
      ∃ response, components.responses.lookup name = some response ∧
        target percentDecode response = some name' := by
  constructor
  · rintro ⟨refLocation, hlookup, hdirect⟩
    exact ⟨_, hlookup, by rw [target, directReference_iff.mp hdirect]⟩
  · rintro ⟨response, hlookup, htarget⟩
    cases response with
    | inline => cases htarget
    | ref refLocation =>
      refine ⟨refLocation, hlookup, directReference_iff.mpr ?_⟩
      rw [target] at htarget
      split at htarget
      next found hfound => rw [hfound, Option.some.inj htarget]
      next => cases htarget

/-- What is resolved is in order, and no chain of references from it goes on for ever. -/
def Resolved (percentDecode : Text → Option Text) (components : Components) (marks : Marks) :
    Prop :=
  ∀ name ∈ marks.resolved, OwnOk percentDecode components name ∧
    Grounded (RefersTo percentDecode components) name

/-- All components are in order and there is no cycle among them. -/
def Consistent (percentDecode : Text → Option Text) (components : Components) : Prop :=
  (∀ name ∈ components.responses.keys, OwnOk percentDecode components name) ∧
    ∀ name, ¬ TransGen (RefersTo percentDecode components) name name

theorem Resolved.leave {below : Marks} {response : RefOrResponse}
    (hlookup : components.responses.lookup name = some response)
    (hown : validateResponseReference percentDecode components response = .ok ())
    (h : Resolved percentDecode components below)
    (hbelow : ∀ name', target percentDecode response = some name' → name' ∈ below.resolved) :
    Resolved percentDecode components (below.leave name) := by
  intro other hother
  rcases Finset.mem_insert.mp hother with rfl | hother
  · refine ⟨⟨response, hlookup, hown⟩, .intro fun name' hrefers => ?_⟩
    obtain ⟨found, hfound, htarget⟩ := refersTo_iff.mp hrefers
    obtain rfl : response = found := Option.some.inj (hlookup.symm.trans hfound)
    exact (h name' (hbelow name' htarget)).2
  · exact h other hother

/-- A search that succeeds has resolved its root and given back the path to it. It fails at a
component that is not in order, or back on the path it is on. -/
theorem validateResponseComponent_outcome (hresolved : Resolved percentDecode components marks)
    (hname : name ∈ components.responses.keys) (hpath : ∀ earlier ∈ marks.visiting,
      TransGen (RefersTo percentDecode components) earlier name) :
    Validation.Outcome (fun marks' => marks'.visiting = marks.visiting ∧
        marks.resolved ⊆ marks'.resolved ∧ name ∈ marks'.resolved ∧
        Resolved percentDecode components marks')
      (fun _ => ¬ Consistent percentDecode components)
      (validateResponseComponent percentDecode components name marks) := by
  induction name, marks using validateResponseComponent.induct components with
  | case1 name marks hmem =>
    rw [validateResponseComponent, if_pos hmem]
    exact ⟨rfl, subset_rfl, hmem, hresolved⟩
  | case2 name marks hmem hvisiting =>
    rw [validateResponseComponent, if_neg hmem, dif_pos hvisiting]
    exact fun hall => hall.2 name (hpath name hvisiting)
  | case3 name marks hmem hvisiting hlookup =>
    have hsome := AList.lookup_isSome.mpr (AList.mem_keys.mpr hname)
    rw [hlookup] at hsome
    cases hsome
  | case4 name marks hmem hvisiting response hlookup ih =>
    rw [validateResponseComponent, if_neg hmem, dif_neg hvisiting]
    split
    next hnone => cases hlookup.symm.trans hnone
    next response' hfound =>
      obtain rfl : response = response' := Option.some.inj (hlookup.symm.trans hfound)
      have hpath' : (insert name marks.visiting).erase name = marks.visiting :=
        Finset.erase_insert hvisiting
      cases hown : validateResponseReference percentDecode components response with
      | error failure =>
        rintro ⟨hall, -⟩
        obtain ⟨same, hsame, hok⟩ := hall name hname
        cases hlookup.symm.trans hsame
        cases hown.symm.trans hok
      | ok _ =>
        cases htarget : target percentDecode response with
        | none =>
          exact ⟨hpath', Finset.subset_insert _ _, Finset.mem_insert_self _ _,
            Resolved.leave hlookup hown hresolved (by simp [htarget])⟩
        | some name' =>
          have hedge := refersTo_iff.mpr ⟨response, hlookup, htarget⟩
          refine (ih name' hresolved ?_ ?_).bind ?_
          · obtain ⟨refLocation, href, hdirect⟩ := hedge
            obtain rfl : response = .ref refLocation := Option.some.inj (hlookup.symm.trans href)
            exact (validateLocalComponentReference_ok_iff.mp hown).existing name' hdirect
          · intro earlier hearlier
            rcases Finset.mem_insert.mp hearlier with rfl | hearlier
            · exact .single hedge
            · exact .tail (hpath earlier hearlier) hedge
          · rintro below ⟨hsame, hsub, htop, hgood⟩
            refine ⟨by rw [Marks.leave, hsame]; exact hpath', hsub.trans (Finset.subset_insert _ _),
              Finset.mem_insert_self _ _, Resolved.leave hlookup hown hgood ?_⟩
            exact fun other hother => Option.some.inj (htarget.symm.trans hother) ▸ htop

theorem validateResponseComponents_ok_iff :
    (∃ marks, components.responses.keys.foldlM
        (fun marks name => validateResponseComponent percentDecode components name marks) {} =
          .ok marks) ↔ Consistent percentDecode components := by
  have hloop : Validation.Outcome (fun marks => marks.visiting = ∅ ∧
        Resolved percentDecode components marks ∧
        ∀ name ∈ components.responses.keys, name ∈ marks.resolved)
      (fun _ => ¬ Consistent percentDecode components) (components.responses.keys.foldlM
        (fun marks name => validateResponseComponent percentDecode components name marks) {}) := by
    refine Validation.foldlM_outcome (P := fun done marks => marks.visiting = ∅ ∧
      Resolved percentDecode components marks ∧ ∀ name ∈ done, name ∈ marks.resolved) ?_ ?_
    · exact ⟨rfl, by simp [Resolved], by simp⟩
    · rintro done name rest marks hsplit ⟨hempty, hresolved, hdone⟩
      have hname : name ∈ components.responses.keys := by rw [hsplit]; simp
      refine (validateResponseComponent_outcome hresolved hname (by simp [hempty])).imp ?_
      rintro next ⟨hsame, hsub, hmem, hgood⟩
      exact ⟨hsame.trans hempty, hgood,
        List.forall_mem_append.mpr ⟨fun other h => hsub (hdone other h), by simpa using hmem⟩⟩
  cases h : components.responses.keys.foldlM
      (fun marks name => validateResponseComponent percentDecode components name marks) {} with
  | error failure => exact iff_of_false nofun (hloop.of_error h)
  | ok marks =>
    obtain ⟨-, hgood, hall⟩ := hloop.of_ok h
    refine iff_of_true ⟨marks, rfl⟩
      ⟨fun name hname => (hgood name (hall name hname)).1, fun name hcycle => ?_⟩
    -- a node with an edge is a component
    obtain ⟨next, ⟨refLocation, hlookup, -⟩, -⟩ := TransGen.head'_iff.mp hcycle
    have hname : name ∈ components.responses.keys :=
      AList.mem_keys.mp (AList.lookup_isSome.mp (by rw [hlookup]; rfl))
    exact (hgood name (hall name hname)).2.not_transGen hcycle

end Search

/-! ## The whole document -/

section Document

variable {percentDecode : Text → Option Text} {components : Components}

theorem forall_ownOk_iff :
    (∀ name ∈ components.responses.keys, OwnOk percentDecode components name) ↔
      ∀ response ∈ components.responses.entries.map Sigma.snd,
        validateResponseReference percentDecode components response = .ok () := by
  constructor
  · intro h response hmem
    obtain ⟨⟨name, response⟩, hentry, rfl⟩ := List.mem_map.mp hmem
    have hlookup : components.responses.lookup name = some response :=
      AList.mem_lookup_iff.mpr hentry
    obtain ⟨found, hfound, hok⟩ :=
      h name (AList.mem_keys.mp (AList.lookup_isSome.mp (by rw [hlookup]; rfl)))
    rwa [Option.some.inj (hfound.symm.trans hlookup)] at hok
  · intro h name hname
    obtain ⟨response, hlookup⟩ :=
      Option.isSome_iff_exists.mp (AList.lookup_isSome.mpr (AList.mem_keys.mpr hname))
    exact ⟨response, hlookup, h response
      (List.mem_map.mpr ⟨⟨name, response⟩, AList.mem_lookup_iff.mp hlookup, rfl⟩)⟩

/-- A loop of checks for references of both kinds. -/
theorem forM_ok_iff_both {α : Type} {f : α → Except Failure Unit}
    {schemas responses : α → List Text} {values : List α}
    (h : ∀ a, f a = .ok () ↔ AllOk percentDecode components .schema (schemas a) ∧
      AllOk percentDecode components .response (responses a)) :
    values.forM f = .ok () ↔ AllOk percentDecode components .schema (values.flatMap schemas) ∧
      AllOk percentDecode components .response (values.flatMap responses) := by
  rw [Validation.forM_ok_iff, allOk_flatMap, allOk_flatMap]
  simp only [h]
  exact ⟨fun hall => ⟨fun a ha => (hall a ha).1, fun a ha => (hall a ha).2⟩,
    fun hall a ha => ⟨hall.1 a ha, hall.2 a ha⟩⟩

theorem validateOperationReferences_ok_iff (operation : Operation) :
    validateOperationReferences percentDecode components operation = .ok () ↔
      AllOk percentDecode components .schema operation.schemaReferences ∧
        AllOk percentDecode components .response
          (operation.responses.flatMap RefOrResponse.responseReferences) := by
  rw [validateOperationReferences, Operation.schemaReferences, allOk_append, allOk_append,
    and_assoc, and_assoc]
  exact bind_unit_ok_iff
    (forM_ok_iff_allOk fun parameter => validateOptionalSchema_ok_iff parameter.schema)
    (bind_unit_ok_iff (forM_ok_iff_allOk fun content => validateContentReferences_ok_iff content)
      (forM_ok_iff_both validateResponseReference_ok_iff))

/-- The check ends, and it succeeds exactly when every reference of the document is in order and no
response component refers to itself through others. -/
theorem reference_integrity_iff (percentDecode : Text → Option Text) (components : Components)
    (paths : List PathItem) :
    validateLocalReferenceIntegrity percentDecode components paths = .ok () ↔
      (∀ kind, ∀ reference ∈ references paths components kind,
        ReferenceOk percentDecode components kind reference) ∧
      ∀ name, ¬ TransGen (RefersTo percentDecode components) name name := by
  have hschemas : (components.schemas.entries.map Sigma.snd).forM
        (validateSchemaReference percentDecode components) = .ok () ↔
      AllOk percentDecode components .schema
        ((components.schemas.entries.map Sigma.snd).flatMap RefOrSchema.references) :=
    forM_ok_iff_allOk fun schema => validateSchemaReference_ok_iff schema
  have hresponses : (∀ name ∈ components.responses.keys, OwnOk percentDecode components name) ↔
      AllOk percentDecode components .schema
          ((components.responses.entries.map Sigma.snd).flatMap RefOrResponse.schemaReferences) ∧
        AllOk percentDecode components .response
          ((components.responses.entries.map Sigma.snd).flatMap
            RefOrResponse.responseReferences) := by
    rw [forall_ownOk_iff, ← Validation.forM_ok_iff (u := ())]
    exact forM_ok_iff_both validateResponseReference_ok_iff
  have hpaths : (paths.forM fun item => do
        item.parameters.forM fun parameter =>
          validateOptionalSchema percentDecode components parameter.schema
        item.operations.forM (validateOperationReferences percentDecode components)) = .ok () ↔
      AllOk percentDecode components .schema (paths.flatMap PathItem.schemaReferences) ∧
        AllOk percentDecode components .response (paths.flatMap fun item =>
          item.operations.flatMap fun operation =>
            operation.responses.flatMap RefOrResponse.responseReferences) := by
    refine forM_ok_iff_both fun item => ?_
    rw [PathItem.schemaReferences, allOk_append, and_assoc]
    exact bind_unit_ok_iff
      (forM_ok_iff_allOk fun parameter => validateOptionalSchema_ok_iff parameter.schema)
      (forM_ok_iff_both validateOperationReferences_ok_iff)
  have hkinds : (∀ kind, ∀ reference ∈ references paths components kind,
        ReferenceOk percentDecode components kind reference) ↔
      AllOk percentDecode components .schema (references paths components .schema) ∧
        AllOk percentDecode components .response (references paths components .response) := by
    constructor
    · exact fun h => ⟨h .schema, h .response⟩
    · rintro ⟨hschema, hresponse⟩ (_ | _)
      · exact hschema
      · exact hresponse
  refine (bind_unit_ok_iff hschemas (Validation.bind_const_ok_iff.trans
    (and_congr validateResponseComponents_ok_iff hpaths))).trans ?_
  rw [Consistent, hresponses, hkinds, references, references, allOk_append, allOk_append,
    allOk_append]
  tauto

end Document

end Lily.Http.OpenApi
