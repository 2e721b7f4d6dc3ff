import ClientGen.Proofs.Termination

/-!
# Where references lead in prepared components

A conversion prepares the components and follows all references in the result. What a
reference leads to is then another schema than the document has, but preparation never
decides *whether* it leads anywhere: an inline schema stays inline, a reference stays
the reference it is, and no name is added or lost. So a reference ends alike before and
after – with the same error, or at a schema and its prepared form
(`Conversion.resolve_sameOutcome`).

The prepared form of a schema has other items, at most, and another type if the schema
said nothing. What it declares is the same (`Schema.DeclaresSame`).
-/

namespace ClientGen

open Schema

/-- **Two computations end alike**: with the same error, or with related results. -/
inductive SameOutcome {ε α β : Type} (r : α → β → Prop) : Except ε α → Except ε β → Prop
  | error (e : ε) : SameOutcome r (.error e) (.error e)
  | ok {a : α} {b : β} (h : r a b) : SameOutcome r (.ok a) (.ok b)

namespace SameOutcome

variable {ε α β : Type} {r : α → β → Prop} {x : Except ε α} {y : Except ε β}

/-- Results that are related are related by any relation that follows. -/
theorem imp {r' : α → β → Prop} (hr : ∀ a b, r a b → r' a b) (h : SameOutcome r x y) :
    SameOutcome r' x y := by
  cases h with
  | error e => exact .error e
  | ok h => exact .ok (hr _ _ h)

end SameOutcome

/-! ## What a prepared schema declares

A model reads the names of the properties, which of them are required, and the members. The
preparation changes none of these, although it changes what stands behind the names. -/

/-- **Two schemas declare the same**: properties of the same names, the same ones of them
required, and the same members. -/
structure Schema.DeclaresSame (s s' : Schema) : Prop where
  names : s'.properties.map Prod.fst = s.properties.map Prod.fst
  required : s'.required = s.required
  allOf : s'.allOf = s.allOf
  oneOf : s'.oneOf = s.oneOf
  anyOf : s'.anyOf = s.anyOf

namespace Schema

variable {s s' s'' : Schema}

/-- Every schema declares what it declares. -/
theorem DeclaresSame.refl (s : Schema) : s.DeclaresSame s := ⟨rfl, rfl, rfl, rfl, rfl⟩

/-- What a schema declares is carried along two steps. -/
theorem DeclaresSame.trans (h : s.DeclaresSame s') (h' : s'.DeclaresSame s'') :
    s.DeclaresSame s'' where
  names := h'.names.trans h.names
  required := h'.required.trans h.required
  allOf := h'.allOf.trans h.allOf
  oneOf := h'.oneOf.trans h.oneOf
  anyOf := h'.anyOf.trans h.anyOf

/-- Nodes that look the same declare the same: what is declared is part of the frame. -/
theorem SameFrame.declaresSame (h : s.SameFrame s') : s.DeclaresSame s' where
  names := h.names
  required := congrArg Facets.required h.facets
  allOf := h.allOf
  oneOf := h.oneOf
  anyOf := h.anyOf

end Schema

namespace Preparation

variable {p : Preparation} {c : Components} {s s' : Schema}

/-- The root has another type at most. -/
theorem root_declaresSame (p : Preparation) (s : Schema) : s.DeclaresSame (p.root s) := by
  refine step_induction (P := s.DeclaresSame) (.refl s) (fun s' h => ?_)
  unfold retypeEmpty? at h
  split_ifs at h
  cases h
  exact ⟨rfl, rfl, rfl, rfl, rfl⟩

/-- Below the root, preparing leaves the frame of a schema alone, and above all the one of
the root. -/
theorem prepare?_sameFrame (h : p.prepare? c s = some s') : (p.root s).SameFrame s' :=
  nodesWithin?_sameFrame h

/-- **A prepared schema declares what the schema declared.** -/
theorem prepare?_declaresSame (h : p.prepare? c s = some s') : s.DeclaresSame s' :=
  (p.root_declaresSame s).trans (prepare?_sameFrame h).declaresSame

end Preparation

/-! ## Lookup

References are followed by name, through a chain that may go in a circle or end nowhere. The
chain is the same in both tables, as a reference is never prepared; only what it ends at
differs. -/

namespace Conversion

variable {p : Preparation} {c c' : Components}

/-- A name has an entry in both tables or in none, and the entries are the same reference
or a schema and its prepared form. -/
theorem find?_rel {es es' : Entries (RefOr Schema)}
    (h : List.Forall₂ (PreparedEntry p c) es es') (name : String) :
    Option.Rel (RefOr.Rel (fun s s' => p.prepare? c s = some s')) (es.find? name)
      (es'.find? name) := by
  induction h with
  | nil => exact .none
  | cons he _ ih =>
    cases he with
    | ref key path =>
      rw [Entries.find?, Entries.find?]
      split_ifs
      · exact .some (.ref path)
      · exact ih
    | inline key hs =>
      rw [Entries.find?, Entries.find?]
      split_ifs
      · exact .some (.inline hs)
      · exact ih

/-- **A chain of references ends alike in prepared components.** The steps bound the length
of the chain and the visited references detect a circle; both are the same on both sides,
and so is the error that they lead to. -/
theorem chase_sameOutcome (h : preparedComponents p c = .ok c') (origin : String) (steps : Nat)
    (visited : List String) (current : String) :
    SameOutcome (fun s s' => p.prepare? c s = some s') (c.chase origin steps visited current)
      (c'.chase origin steps visited current) := by
  induction steps generalizing visited current with
  | zero => exact .error _
  | succ steps ih =>
    rw [Components.chase, Components.chase]
    split_ifs
    · exact .error _
    · cases Reference.nameIn .schemas current with
      | error e => exact .error e
      | ok name =>
        have hfind := find?_rel (preparedComponents_entries h).1 name
        simp only [bind, Except.bind, OrderedMap.find?]
        generalize c.schemas.entries.find? name = o at hfind ⊢
        generalize c'.schemas.entries.find? name = o' at hfind ⊢
        cases hfind with
        | none => exact .error _
        | some hpart =>
          cases hpart with
          | ref next => exact ih (current :: visited) next
          | inline hs => exact .ok hs

/-- **A part is resolved alike in prepared components**: to the same error, or to schemas
that declare the same. -/
theorem resolve_sameOutcome (h : preparedComponents p c = .ok c') (part : RefOr Schema) :
    SameOutcome DeclaresSame (c.resolve part) (c'.resolve part) := by
  cases part with
  | inline s => exact .ok (.refl s)
  | ref path =>
    have hsize : c'.schemas.size = c.schemas.size :=
      (preparedComponents_entries h).1.length_eq.symm
    show SameOutcome _ (c.schemaAt path) (c'.schemaAt path)
    unfold Components.schemaAt
    rw [hsize]
    exact (chase_sameOutcome h path _ [] path).imp
      (fun _ _ => Preparation.prepare?_declaresSame)

end Conversion

end ClientGen
