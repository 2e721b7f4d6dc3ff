import ClientGen.Proofs.Arguments
import ClientGen.Proofs.Lookups

/-!
# Which declaration of a parameter counts

A path declares parameters for all its operations, and an operation declares its own, in place of
those of its path with the same name and location. Declaring one after the other, each in place of
what was declared before, comes to this: of the path's parameters those are left that the
operation does not declare anew, and behind them stand the operation's own, each where it is
declared last (`Converter.foldl_declare`).

References are followed before anything is replaced. So a reference that leads nowhere is an error
even where the parameter would have been replaced, and those of the path come first
(`Converter.operation_redeclares`).
-/

namespace ClientGen

/-- Whether an argument comes from a request body, as a whole or as a form. -/
def Client.Argument.IsOfBody (p : Client.Argument) : Prop := p.kind = .body ∨ p.kind = .form

namespace Converter

/-! ## Declaring one after the other

A declaration takes the place of those before it and stands last, so a list of declarations
can be read from its end. Two lists are enough to say what is left: what is declared again,
and what is the last of its kind. -/

/-- The last declaration of each name and location: a parameter is left out if the same one is
declared again behind it. -/
def lastDeclarations : List Parameter → List Parameter
  | [] => []
  | p :: ps => if ps.any (sameParameter p) then lastDeclarations ps else p :: lastDeclarations ps

/-- The declarations of a path that those of an operation leave. -/
def notRedeclared (own shared : List Parameter) : List Parameter :=
  shared.filter (fun p => !own.any (sameParameter p))

/-- **Declaring parameters in turn** leaves what they do not redeclare, and the last
declaration of each. By induction on the operation's own parameters, for all that may have
been declared before: the first of them is then one of those. -/
theorem foldl_declare (own shared : List Parameter) :
    own.foldl declare shared = notRedeclared own shared ++ lastDeclarations own := by
  induction own generalizing shared with
  | nil =>
    rw [notRedeclared, lastDeclarations, List.append_nil]
    exact (List.filter_eq_self.mpr (fun _ _ => rfl)).symm
  | cons p own ih =>
    -- `p` replaces what was declared before, and may be replaced itself.
    have hshared : notRedeclared own (shared.filter (fun d => !sameParameter d p))
        = notRedeclared (p :: own) shared := by
      unfold notRedeclared
      rw [List.filter_filter]
      refine List.filter_congr (fun d _ => ?_)
      rw [List.any_cons, Bool.not_or, Bool.and_comm]
    have hown : notRedeclared own [p] ++ lastDeclarations own = lastDeclarations (p :: own) := by
      unfold notRedeclared
      rw [lastDeclarations, List.filter_singleton]
      cases own.any (sameParameter p) <;> rfl
    calc (p :: own).foldl declare shared
      _ = notRedeclared own (shared.filter (fun d => !sameParameter d p) ++ [p])
            ++ lastDeclarations own := ih _
      _ = notRedeclared own (shared.filter (fun d => !sameParameter d p))
            ++ (notRedeclared own [p] ++ lastDeclarations own) := by
          rw [← List.append_assoc]
          exact congrArg (· ++ _) (List.filter_append _ _)
      _ = notRedeclared (p :: own) shared ++ lastDeclarations (p :: own) := by
          rw [hshared, hown]

variable {k : Converter} {method path : String} {op : Operation} {shared : List (RefOr Parameter)}

/-- **References to parameters lead to these ones**, one by one. -/
def LeadTo (k : Converter) : List (RefOr Parameter) → List Parameter → Prop :=
  List.Forall₂ (fun r p => k.components.parameter r = .ok p)

/-- The parameters of an operation, once all references have been followed. Nothing is
declared before that, which is why references fail even if their parameters would be
replaced. -/
theorem declaredParameters_eq_ok {own : List (RefOr Parameter)} {declared : List Parameter}
    (h : k.declaredParameters shared own = .ok declared) :
    ∃ theirs ours, k.LeadTo shared theirs ∧ k.LeadTo own ours
      ∧ declared = notRedeclared ours theirs ++ lastDeclarations ours := by
  obtain ⟨theirs, htheirs, h⟩ := except_bind_eq_ok.mp h
  obtain ⟨ours, hours, h⟩ := except_bind_eq_ok.mp h
  cases h
  exact ⟨theirs, ours, except_mapM_eq_ok.mp htheirs, except_mapM_eq_ok.mp hours,
    foldl_declare ours theirs⟩

/-! ## Where arguments come from

The arguments of a call are those of the parameters followed by those of the body. That the
two can be told apart is seen from their kinds, and a mark that is set afterwards changes no
kind. -/

/-- A declared parameter does not come from a request body. -/
theorem not_isOfBody_parameter (p : Parameter) : ¬ (k.parameter p).IsOfBody := by
  have hkind : ∀ location, kindAt location ≠ .body ∧ kindAt location ≠ .form := by
    intro location
    cases location <;> exact ⟨nofun, nofun⟩
  rintro (h | h)
  · exact (hkind p.location).1 h
  · exact (hkind p.location).2 h

/-- Nor is it marked as followed by another. -/
theorem unmarked_parameter (p : Parameter) : (k.parameter p).unmarked = k.parameter p := by
  unfold parameter Client.Argument.unmarked
  dsimp only

/-- What comes from a request body says so, be it the body as a whole or the fields of a
form. -/
theorem isOfBody_of_mem_bodyParameters {body : RequestBody} {ps : List Client.Argument}
    (h : k.bodyParameters body = .ok ps) : ∀ p ∈ ps, p.IsOfBody := by
  unfold bodyParameters at h
  split at h
  · split_ifs at h
    · obtain ⟨form, -, h⟩ := except_bind_eq_ok.mp h
      cases h
      intro p hp
      obtain ⟨e, -, rfl⟩ := List.mem_map.mp hp
      exact .inr rfl
    · cases h
      intro p hp
      rw [List.mem_singleton.mp hp]
      exact .inl rfl
  · cases h
    exact fun p hp => absurd hp List.not_mem_nil

/-- The mark of an argument does not tell where it comes from. -/
theorem isOfBody_unmarked {p : Client.Argument} : p.unmarked.IsOfBody ↔ p.IsOfBody := Iff.rfl

/-- **Which parameters the arguments of a call are.** If an operation becomes a call, then its
arguments that do not come from the request body stand before those that do, and are, in order and
up to the mark of what follows, those parameters of the path that the operation does not redeclare
by name and location, and behind them the last declaration of each of its own. If a reference to a
parameter leads nowhere, the error is that of the first such reference, those of the path first,
whether or not the parameter is redeclared. -/
theorem operation_redeclares (k : Converter) (method path : String) (op : Operation)
    (shared : List (RefOr Parameter)) :
    (∀ call, k.operation method path op shared = .ok call →
      ∃ theirs ours before behind, k.LeadTo shared theirs ∧ k.LeadTo op.parameters ours
        ∧ call.arguments = before ++ behind
        ∧ (∀ p ∈ before, ¬ p.IsOfBody) ∧ (∀ p ∈ behind, p.IsOfBody)
        ∧ before.map Client.Argument.unmarked
          = (notRedeclared ours theirs ++ lastDeclarations ours).map k.parameter)
      ∧ ∀ e, (shared ++ op.parameters).findSome? (fun r => errorOf? (k.components.parameter r))
          = some e → k.operation method path op shared = .error e := by
  constructor
  · intro call h
    obtain ⟨declared, body, fromBody, -, hdeclared, -, hfromBody, -, rfl⟩ := operation_eq_ok h
    obtain ⟨theirs, ours, htheirs, hours, hleft⟩ := declaredParameters_eq_ok hdeclared
    have hbody : ∀ p ∈ fromBody, p.IsOfBody := by
      cases body with
      | none =>
        cases hfromBody
        exact fun p hp => absurd hp List.not_mem_nil
      | some body => exact isOfBody_of_mem_bodyParameters hfromBody
    -- Without the marks the arguments are what they were before marking.
    have hunmarked := Client.Argument.map_unmarked_markFollowed
      (declared.map k.parameter ++ fromBody)
    rw [List.map_append] at hunmarked
    obtain ⟨before, behind, hargs, hbefore, hbehind⟩ := List.map_eq_append_iff.mp hunmarked
    have hdeclared : before.map Client.Argument.unmarked = declared.map k.parameter := by
      rw [hbefore, List.map_map]
      exact List.map_congr_left (fun p _ => unmarked_parameter p)
    refine ⟨theirs, ours, before, behind, htheirs, hours, hargs, fun p hp => ?_, fun p hp => ?_,
      hleft ▸ hdeclared⟩
    · have hmem := List.mem_map_of_mem (f := Client.Argument.unmarked) hp
      rw [hdeclared] at hmem
      obtain ⟨q, -, hq⟩ := List.mem_map.mp hmem
      rw [← isOfBody_unmarked, ← hq]
      exact not_isOfBody_parameter q
    · have hmem := List.mem_map_of_mem (f := Client.Argument.unmarked) hp
      rw [hbehind] at hmem
      obtain ⟨q, hq, hqp⟩ := List.mem_map.mp hmem
      rw [← isOfBody_unmarked, ← hqp]
      exact hbody q hq
  · intro e he
    rw [← errorOf?_eq_some, errorOf?_operation, Components.lookups]
    have hparameters : (shared.map Lookup.parameter ++ op.parameters.map Lookup.parameter).findSome?
        k.components.error? = some e := by
      rw [← List.map_append, List.findSome?_map]
      exact he
    simp only [List.append_assoc] at hparameters ⊢
    rw [← List.append_assoc, List.findSome?_append, hparameters, Option.some_or]

/-- A parameter without a schema. -/
def plainParameter (name : String) (location : ParameterLocation) : Parameter where
  name
  location
  description := none
  required := false
  schema := none

/-- A converter that knows one parameter by reference. -/
def limitConverter : Converter where
  components :=
    { parameters := .ofEntries [("Limit", .inline (plainParameter "limit" .query))] }
  types := .standard
  style := {}

/-- An operation that declares one parameter of its path anew, and this twice. -/
def limitedOperation : Operation where
  operationId := some "listPets"
  summary := none
  description := none
  tags := []
  parameters := [.ref "#/components/parameters/Limit", .inline (plainParameter "token" .header),
    .inline { plainParameter "limit" .query with required := true }]
  requestBody := none
  responses := {}
  deprecated := none

/-- The limit is declared by the path for the header and twice by the operation for the
query: the first is another parameter, and of the others the last one counts. Below, a
reference of the path to nothing is the error although the path declares something else as
well. -/
theorem operation_redeclares_of_limit :
    (∃ call theirs ours before behind,
        limitConverter.operation "GET" "/pets" limitedOperation
            [.ref "#/components/parameters/Limit", .inline (plainParameter "limit" .header)]
          = .ok call
        ∧ call.arguments.map (fun p => (p.wireName, p.kind, p.required))
          = [("limit", .header, false), ("token", .header, false), ("limit", .query, true)]
        ∧ limitConverter.LeadTo limitedOperation.parameters ours
        ∧ call.arguments = before ++ behind
        ∧ (∀ p ∈ before, ¬ p.IsOfBody) ∧ (∀ p ∈ behind, p.IsOfBody)
        ∧ before.map Client.Argument.unmarked
          = (notRedeclared ours theirs ++ lastDeclarations ours).map limitConverter.parameter)
      ∧ limitConverter.operation "GET" "/pets" limitedOperation
          [.inline (plainParameter "limit" .query), .ref "#/components/parameters/Page"]
        = .error (.notFound "#/components/parameters/Page") := by
  constructor
  · have hsome : (limitConverter.operation "GET" "/pets" limitedOperation
        [.ref "#/components/parameters/Limit",
          .inline (plainParameter "limit" .header)]).toOption.map
          (fun call => call.arguments.map (fun p => (p.wireName, p.kind, p.required)))
        = some [("limit", .header, false), ("token", .header, false), ("limit", .query, true)] := by
      decide +kernel
    obtain ⟨call, hcall, harguments⟩ := Option.map_eq_some_iff.mp hsome
    rw [toOption_eq_some] at hcall
    obtain ⟨theirs, ours, before, behind, -, hours, hdeclared⟩ :=
      (operation_redeclares _ _ _ _ _).1 call hcall
    exact ⟨call, theirs, ours, before, behind, hcall, harguments, hours, hdeclared⟩
  · exact (operation_redeclares _ _ _ _ _).2 _ (by decide +kernel)

end Converter

end ClientGen
