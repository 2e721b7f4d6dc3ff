import ClientGen.Kotlin.Generation
import ClientGen.Proofs.PreparedReferences

/-!
# When a conversion fails

A conversion makes a fixed list of lookups: for each operation, by path and then by
method, its parameters, its request body, the schema of a form, and the first response for
success (`Document.lookups`). It fails with the error of the first lookup that fails, and
nothing else makes it fail: a reference to a schema that leads nowhere is written out as
its own name anywhere but in a form (`Document.toClient_error_iff`).

The lookups are made in the prepared components. Preparation changes no section but that
of the schemas, and there it does not change which references lead somewhere
(`Conversion.resolve_sameOutcome`), so what fails and how is the same whatever the policy
and the options.
-/

namespace ClientGen

open Conversion

/-! ## Errors of computations

Only the error of a computation is followed here, not its result. A sequence of steps has
the error of the first that fails, and a list of lookups that of the first in the list, so
the two can be compared without a word about what is computed. -/

section Errors

variable {ε α β : Type}

/-- The error of a computation, if it fails. -/
def errorOf? : Except ε α → Option ε
  | .error e => some e
  | .ok _ => none

/-- There is an error exactly if the computation fails with it. -/
theorem errorOf?_eq_some {x : Except ε α} {e : ε} : errorOf? x = some e ↔ x = .error e := by
  cases x with
  | error e' => simp [errorOf?]
  | ok a => simp [errorOf?]

/-- **Of two steps the first to fail decides.** -/
theorem errorOf?_bind {x : Except ε α} {f : α → Except ε β} (o : Option ε)
    (hf : ∀ a, x = .ok a → errorOf? (f a) = o) : errorOf? (x >>= f) = (errorOf? x).or o := by
  cases x with
  | error e => rfl
  | ok a => exact hf a rfl

/-- What is done with the result does not matter for the error. -/
theorem errorOf?_map (f : α → β) (x : Except ε α) : errorOf? (x.map f) = errorOf? x := by
  cases x <;> rfl

/-- A last step that cannot fail does not matter either. -/
theorem errorOf?_bind_pure (x : Except ε α) (f : α → β) :
    errorOf? (x >>= fun a => pure (f a)) = errorOf? x := by
  cases x <;> rfl

/-- A computation in two steps fails in the first or in the second. -/
theorem except_bind_eq_error {x : Except ε α} {f : α → Except ε β} {e : ε}
    (h : x >>= f = .error e) : x = .error e ∨ ∃ a, x = .ok a ∧ f a = .error e := by
  cases x with
  | error e' =>
    cases h
    exact Or.inl rfl
  | ok a => exact Or.inr ⟨a, rfl, h⟩

/-- **Of a list of computations the first to fail decides.** -/
theorem errorOf?_mapM (f : α → Except ε β) (l : List α) :
    errorOf? (l.mapM f) = l.findSome? (fun a => errorOf? (f a)) := by
  induction l with
  | nil => rfl
  | cons a l ih =>
    rw [List.mapM_cons, errorOf?_bind _ (fun b _ => errorOf?_bind_pure (l.mapM f) (b :: ·)), ih,
      List.findSome?_cons]
    cases errorOf? (f a) <;> rfl

/-- The first result in a list of lists is the first of the list that has one. -/
theorem findSome?_flatMap (f : α → List β) (g : β → Option ε) (l : List α) :
    (l.flatMap f).findSome? g = l.findSome? (fun a => (f a).findSome? g) := by
  induction l with
  | nil => rfl
  | cons a l ih =>
    rw [List.flatMap_cons, List.findSome?_append, ih, List.findSome?_cons]
    cases (f a).findSome? g <;> rfl

/-- An error that is wrapped is the wrapped error. -/
theorem errorOf?_mapError {ε' : Type} (f : ε → ε') (x : Except ε α) :
    errorOf? (x.mapError f) = (errorOf? x).map f := by
  cases x <;> rfl

/-- Computations that end alike have the same error. -/
theorem SameOutcome.errorOf?_eq {r : α → β → Prop} {x : Except ε α} {y : Except ε β}
    (h : SameOutcome r x y) : errorOf? y = errorOf? x := by
  cases h <;> rfl

end Errors

/-! ## The lookups of a document

Which lookups an operation makes depends on one of them: whether its request body is a form
is known only once the body has been found. If it is not found there is no lookup for the
form, and none is missed, because the body has failed before. -/

/-- **A lookup that an operation depends on.** -/
inductive Lookup where
  | parameter (parameter : RefOr Parameter)
  | requestBody (body : RefOr RequestBody)
  /-- Of the schema of a form. -/
  | form (schema : RefOr Schema)
  | response (response : RefOr Response)

/-- Why a lookup fails, if it does. -/
def Components.error? (c : Components) : Lookup → Option ReferenceError
  | .parameter parameter => errorOf? (c.parameter parameter)
  | .requestBody body => errorOf? (c.requestBody body)
  | .form schema => errorOf? (c.resolve schema)
  | .response response => errorOf? (c.response response)

/-- The schema of a form: that of the first media type, if it is the type of a form. -/
def RequestBody.form? (body : RequestBody) : Option (RefOr Schema) :=
  body.content.entries.head?.bind (fun e => if Converter.isForm e.1 then e.2.schema else none)

/-- The first response for success. -/
def Operation.success? (op : Operation) : Option (RefOr Response) :=
  (List.find? (fun e => Text.startsWith e.1 "2") op.responses.entries).map Prod.snd

/-- The schema of the form that an operation takes, if its request body is one. -/
def Components.form? (c : Components) (op : Operation) : Option (RefOr Schema) :=
  (op.requestBody.bind (fun body => (c.requestBody body).toOption)).bind RequestBody.form?

/-- **The lookups of an operation**, in the order in which they are made. `shared` are the
parameters of its path. -/
def Components.lookups (c : Components) (shared : List (RefOr Parameter)) (op : Operation) :
    List Lookup :=
  shared.map .parameter ++ op.parameters.map .parameter
    ++ op.requestBody.toList.map .requestBody ++ (c.form? op).toList.map .form
    ++ op.success?.toList.map .response

/-- **The lookups of a document**: those of its operations, by path and then by method. -/
def Document.lookups (d : Document) : List Lookup :=
  d.paths.entries.flatMap (fun e =>
    e.2.operations.flatMap (fun o => d.componentsOrNone.lookups e.2.parameters o.2))

/-- The error of the first lookup of a document that fails. -/
def Document.error? (d : Document) : Option ReferenceError :=
  d.lookups.findSome? d.componentsOrNone.error?

/-! ## What an operation fails with

Each part of the conversion of an operation makes the lookups of one kind, and has the error
of the first of them that fails. -/

namespace Converter

variable (k : Converter)

/-- Of a lookup that may not be made, the error of the lookup if it is made. -/
theorem findSome?_error?_toList (c : Components) {α : Type} (lookup : α → Lookup) (o : Option α) :
    (o.toList.map lookup).findSome? c.error? = o.bind (fun a => c.error? (lookup a)) := by
  cases o with
  | none => rfl
  | some a =>
    rw [Option.toList_some, List.map_singleton, List.findSome?_singleton, Option.bind_some]

/-- The parameters of a path are looked up before those of its operation. -/
theorem errorOf?_declaredParameters (shared own : List (RefOr Parameter)) :
    errorOf? (k.declaredParameters shared own)
      = ((shared.map Lookup.parameter).findSome? k.components.error?).or
          ((own.map Lookup.parameter).findSome? k.components.error?) := by
  rw [List.findSome?_map, List.findSome?_map]
  unfold declaredParameters
  rw [errorOf?_bind (errorOf? (own.mapM k.components.parameter))
    (fun _ _ => errorOf?_bind_pure _ _), errorOf?_mapM, errorOf?_mapM]
  rfl

/-- The request body of an operation is one lookup, if there is one. -/
theorem errorOf?_requestBody? (op : Operation) :
    errorOf? (k.requestBody? op)
      = (op.requestBody.toList.map Lookup.requestBody).findSome? k.components.error? := by
  rw [findSome?_error?_toList]
  unfold requestBody?
  cases op.requestBody with
  | none => rfl
  | some body => exact errorOf?_map some _

/-- Of a request body only the schema of a form is looked up. Anything else is typed by its
reference, and that never fails. -/
theorem errorOf?_bodyParameters (body : RequestBody) :
    errorOf? (k.bodyParameters body)
      = (body.form?.toList.map Lookup.form).findSome? k.components.error? := by
  rw [findSome?_error?_toList]
  unfold bodyParameters RequestBody.form?
  rcases body.content.entries.head? with _ | ⟨mediaType, ⟨_ | part⟩⟩
  · rfl
  · show none = (if isForm mediaType then none else none : Option _).bind _
    split_ifs <;> rfl
  · show errorOf? (if isForm mediaType then k.formParameters part else _)
      = (if isForm mediaType then some part else none : Option _).bind _
    split_ifs
    · exact errorOf?_bind_pure _ _
    · rfl

/-- Of the responses only the first for success is looked up. -/
theorem errorOf?_successResponse? (op : Operation) :
    errorOf? (k.successResponse? op)
      = (op.success?.toList.map Lookup.response).findSome? k.components.error? := by
  rw [findSome?_error?_toList]
  unfold successResponse? Operation.success?
  generalize List.find? (fun e : String × RefOr Response => Text.startsWith e.1 "2")
    op.responses.entries = o
  rcases o with _ | ⟨status, response⟩
  · rfl
  · exact errorOf?_map some _

/-- The form of an operation is that of the request body that it finds. Without a body there
is none, and a body that is not found is an error before any form is looked for. -/
theorem form?_eq_of_requestBody? {op : Operation} {body : Option RequestBody}
    (h : k.requestBody? op = .ok body) : k.components.form? op = body.bind RequestBody.form? := by
  unfold requestBody? at h
  unfold Components.form?
  cases hop : op.requestBody with
  | none =>
    rw [hop] at h
    cases h
    rfl
  | some part =>
    rw [hop] at h
    replace h : (k.components.requestBody part).map some = .ok body := h
    rw [Option.bind_some]
    cases hb : k.components.requestBody part with
    | error e =>
      rw [hb] at h
      cases h
    | ok b =>
      rw [hb] at h
      cases h
      rfl

/-- **An operation fails with the error of its first lookup that fails.** -/
theorem errorOf?_operation (method path : String) (op : Operation)
    (shared : List (RefOr Parameter)) :
    errorOf? (k.operation method path op shared)
      = (k.components.lookups shared op).findSome? k.components.error? := by
  unfold operation Components.lookups
  simp only [List.findSome?_append, Option.or_assoc]
  rw [← Option.or_assoc, ← errorOf?_declaredParameters]
  refine errorOf?_bind _ (fun declared _ => ?_)
  rw [← errorOf?_requestBody?]
  refine errorOf?_bind _ (fun body hbody => ?_)
  rw [k.form?_eq_of_requestBody? hbody, ← errorOf?_successResponse?]
  cases body with
  | none => exact errorOf?_bind_pure _ _
  | some body =>
    rw [Option.bind_some, ← errorOf?_bodyParameters]
    exact errorOf?_bind _ (fun _ _ => errorOf?_bind_pure _ _)

end Converter

/-! ## What a document fails with

The operations are converted in prepared components. The lookups are compared with those in
the components of the document, one by one. -/

namespace Conversion

variable {p : Preparation} {c c' : Components}

/-- **A lookup fails alike in prepared components.** -/
theorem error?_eq_of_preparedComponents (h : preparedComponents p c = .ok c') (l : Lookup) :
    c'.error? l = c.error? l := by
  obtain ⟨-, hc⟩ := preparedComponents_entries h
  cases l with
  | parameter parameter => rw [hc]; rfl
  | requestBody body => rw [hc]; rfl
  | form schema => exact (resolve_sameOutcome h schema).errorOf?_eq
  | response response => rw [hc]; rfl

/-- An operation makes the same lookups in prepared components. -/
theorem lookups_eq_of_preparedComponents (h : preparedComponents p c = .ok c')
    (shared : List (RefOr Parameter)) (op : Operation) :
    c'.lookups shared op = c.lookups shared op := by
  rw [(preparedComponents_entries h).2]
  rfl

/-- **The operations fail with the error of the first lookup of the document that
fails**, in prepared components as well. -/
theorem errorOf?_operations {d : Document} {k : Converter}
    (h : preparedComponents p d.componentsOrNone = .ok k.components) :
    errorOf? (operations k d.paths) = d.error? := by
  unfold operations Document.error? Document.lookups
  have herror : k.components.error? = d.componentsOrNone.error? :=
    funext (error?_eq_of_preparedComponents h)
  rw [errorOf?_bind_pure, errorOf?_mapM, findSome?_flatMap]
  refine congrArg (fun f => List.findSome? f d.paths.entries) (funext (fun e => ?_))
  rw [errorOf?_mapM, findSome?_flatMap]
  refine congrArg (fun f => List.findSome? f e.2.operations) (funext (fun o => ?_))
  rw [Converter.errorOf?_operation, lookups_eq_of_preparedComponents h, herror]

/-- **Components are prepared where item references are acyclic.** -/
theorem exists_preparedComponents (hc : c.ItemsAcyclic) (p : Preparation) :
    ∃ c', preparedComponents p c = .ok c' := by
  have hpart : ∀ e ∈ c.schemas.entries, ∃ e' : String × RefOr Schema,
      (do return (e.1, ← preparedPart p c e.1 e.2) : Except ConversionError _) = .ok e' := by
    rintro ⟨name, part⟩ -
    cases part with
    | ref path => exact ⟨_, rfl⟩
    | inline s =>
      obtain ⟨s', hs⟩ := Preparation.exists_prepare? hc p s
      refine ⟨(name, .inline s'), ?_⟩
      rw [preparedPart, hs]
      rfl
  obtain ⟨es, hes⟩ := exists_forall₂ hpart
  exact ⟨_, except_bind_eq_ok.mpr ⟨es, except_mapM_eq_ok.mpr hes, rfl⟩⟩

end Conversion

/-! ## What a generator fails with

A generator first settles a profile, which can fail for reasons of its own, and then
converts. None of its own reasons is an error of a conversion. -/

namespace Kotlin.Variant

variable {v : Kotlin.Variant} {cause : ConversionError}

/-- A library that is not supported is no matter of the conversion. -/
theorem select_ne_conversion (requested : Option String) :
    v.select requested ≠ .error (.conversion cause) := by
  unfold select choose
  cases requested with
  | none => exact nofun
  | some name =>
    dsimp only
    cases v.library? name <;> exact nofun

/-- Neither is an unknown case of constants. -/
theorem constants_ne_conversion (given : Settings) :
    v.constants given ≠ .error (.conversion cause) := by
  unfold constants constantCase
  cases v.declaredText? given Key.constantCase with
  | none => exact nofun
  | some value =>
    dsimp only
    cases Naming.ConstantCase.ofName? value <;> exact nofun

/-- Neither is an unknown form of dates. -/
theorem checkRequestDate_ne_conversion (given : Settings) :
    v.checkRequestDate given ≠ .error (.conversion cause) := by
  unfold checkRequestDate
  split
  · split_ifs <;> exact nofun
  · exact nofun

/-- **A generator fails for a conversion only if its conversion fails**: a profile fails
for other reasons. -/
theorem exists_toClient_of_generate {d : Document} {run : ResolvedRun} {switches : Switches}
    (h : v.generate d run switches = .error (.conversion cause)) :
    ∃ p, v.profile run = .ok p ∧ d.toClient p.policy p.options = .error cause := by
  rcases except_bind_eq_error h with h | ⟨p, hp, h⟩
  · rcases except_bind_eq_error h with h | ⟨_, -, h⟩
    · exact absurd h (select_ne_conversion _)
    · rcases except_bind_eq_error h with h | ⟨_, -, h⟩
      · exact absurd h (constants_ne_conversion _)
      · rcases except_bind_eq_error h with h | ⟨_, -, h⟩
        · exact absurd h (checkRequestDate_ne_conversion _)
        · cases h
  · refine ⟨p, hp, ?_⟩
    rcases except_bind_eq_error h with h | ⟨_, -, h⟩
    · cases hc : d.toClient p.policy p.options with
      | error e =>
        rw [hc] at h
        cases h
        rfl
      | ok c =>
        rw [hc] at h
        cases h
    · cases h

end Kotlin.Variant

/-! ## What a conversion fails with

The components are prepared first. Where item references are acyclic that succeeds, and so
the only errors left are those of lookups. -/

namespace Document

variable {d : Document}

/-- The conversion of a document, once its components are prepared. -/
theorem errorOf?_toClient {policy : ConversionPolicy} {options : ConversionOptions}
    {c : Components}
    (h : preparedComponents (preparation policy options) d.componentsOrNone = .ok c) :
    errorOf? (d.toClient policy options) = d.error?.map .reference := by
  rw [← errorOf?_operations (k := ⟨c, options.types, options.style⟩) h, ← errorOf?_mapError]
  unfold toClient
  rw [h]
  exact errorOf?_bind_pure _ _

/-- **A conversion fails exactly if a lookup of the document does**, with the error of the
first that fails, where item references are acyclic. -/
theorem toClient_error_iff (hc : d.componentsOrNone.ItemsAcyclic) (policy : ConversionPolicy)
    (options : ConversionOptions) (e : ConversionError) :
    d.toClient policy options = .error e
      ↔ ∃ cause, d.error? = some cause ∧ e = .reference cause := by
  obtain ⟨c, h⟩ := exists_preparedComponents hc (preparation policy options)
  rw [← errorOf?_eq_some, errorOf?_toClient h, Option.map_eq_some_iff]
  simp only [eq_comm]

/-- **When a conversion fails**, where item references are acyclic: exactly if a lookup of
the document does, with the error of the first that fails, whatever the policy and the
options. So a document that is accepted without any can be generated from by every
variant, as far as the conversion goes.

The lookups of a document are listed in the order in which a conversion makes them. Policies
and options change what is done with the results and never which lookups are made, so the
list has no place for them. -/
theorem toClient_fails_iff (hc : d.componentsOrNone.ItemsAcyclic) :
    (∀ policy options e, d.toClient policy options = .error e
        ↔ ∃ cause, d.error? = some cause ∧ e = .reference cause)
      ∧ ((∃ client, d.toClient {} {} = .ok client) →
        ∀ (v : Kotlin.Variant) (run : ResolvedRun) (switches : Switches) (cause : ConversionError),
          v.generate d run switches ≠ .error (.conversion cause)) := by
  refine ⟨toClient_error_iff hc, ?_⟩
  rintro ⟨client, hclient⟩ v run switches cause hv
  obtain ⟨p, -, h⟩ := Kotlin.Variant.exists_toClient_of_generate hv
  obtain ⟨cause, hcause, -⟩ := (toClient_error_iff hc _ _ _).mp h
  have hfails := (toClient_error_iff hc {} {} (.reference cause)).mpr ⟨cause, hcause, rfl⟩
  rw [hclient] at hfails
  cases hfails

/-- An operation that does nothing but answer. -/
def answering (parameters : List (RefOr Parameter)) : Operation where
  operationId := none
  summary := none
  description := none
  tags := []
  parameters := parameters
  requestBody := none
  responses := .ofEntries
    [("200", .inline ⟨"", .ofEntries
      [("application/json", { schema := some (.ref "#/components/schemas/Nowhere") })]⟩)]
  deprecated := none

/-- A document without components, and with one operation. -/
def oneOperation (op : Operation) : Document where
  openapi := "3.0.3"
  info := { title := "Pets", description := none, version := "1" }
  servers := []
  paths := .ofEntries [("/pets", ⟨[], some op, none, none, none, none, none, none⟩)]
  components := none

/-- Without components there is nothing for an item to refer to. -/
theorem itemsAcyclic_oneOperation (op : Operation) :
    (oneOperation op).componentsOrNone.ItemsAcyclic := by
  refine Components.itemsAcyclic_of_ends (fun s t _ hst _ => ?_)
  have hmem : t ∈ [] := Components.mem_inlineSchemas_of_leadsTo (.single hst)
  cases hmem

/-- An operation with a parameter that is not there fails for it; without the parameter it
is accepted, although its response refers to a schema that is not there either. -/
theorem toClient_fails_iff_of_oneOperation :
    (oneOperation (answering [.ref "#/components/parameters/Limit"])).toClient {} {}
        = .error (.reference (.notFound "#/components/parameters/Limit"))
      ∧ (∃ client, (oneOperation (answering [])).toClient {} {} = .ok client)
      ∧ ∀ (v : Kotlin.Variant) (run : ResolvedRun) (switches : Switches) (cause : ConversionError),
          v.generate (oneOperation (answering [])) run switches ≠ .error (.conversion cause) := by
  have hfail : (oneOperation (answering [.ref "#/components/parameters/Limit"])).error?
      = some (.notFound "#/components/parameters/Limit") := by
    decide +kernel
  have hclient : ∃ client, (oneOperation (answering [])).toClient {} {} = .ok client := by
    have hsome : ((oneOperation (answering [])).toClient {} {}).toOption.isSome = true := by
      decide +kernel
    obtain ⟨client, h⟩ := Option.isSome_iff_exists.mp hsome
    exact ⟨client, toOption_eq_some.mp h⟩
  exact ⟨((toClient_fails_iff (itemsAcyclic_oneOperation _)).1 {} {} _).mpr ⟨_, hfail, rfl⟩,
    hclient, (toClient_fails_iff (itemsAcyclic_oneOperation _)).2 hclient⟩

end Document

end ClientGen
