import ClientGen.Conversion.Models
import ClientGen.Proofs.Reference
import Mathlib.Data.List.Basic

/-!
# The containers around a type

The type of a part is written with containers: arrays around the type of their items and maps
around that of their values, as far down as these are given inline. At the bottom is a part that is
no container, or nothing at all where a container does not say what it holds.

A converter goes down there twice, for the whole type and for the type of the innermost elements,
and each time decides anew at every schema whether to go on. The rules of `WayDown` say on the
schemas alone which containers are met and what is at the bottom, and every part has one way down
(`WayDown.unique`, `exists_wayDown`). It settles both types: that of the innermost elements is the
type of the bottom, and written with the containers of the way it is the whole type
(`Converter.partType_eq_wrapped_elementType`). Containers can be taken off a type again
(`Converter.unwrapped?_eq_some_iff`), which is how the two types of a property fit together.
-/

namespace ClientGen

/-- The containers that a type is written with. -/
inductive Container where
  | array
  | map
deriving DecidableEq, Repr

namespace Schema

variable {s : Schema} {c : Container} {part : RefOr Schema}

/-- The container that a schema becomes, if it becomes one. -/
def container? (s : Schema) : Option Container :=
  match s.kind with
  | .array => some .array
  | .map => some .map
  | _ => none

/-- What a schema says of the content of a container: the items of an array, the values of a
map. -/
def content? (s : Schema) : Container → Option (RefOr Schema)
  | .array => s.items
  | .map => s.mapValues?

/-- A schema becomes an array exactly if it is of this kind. -/
theorem container?_eq_array : s.container? = some .array ↔ s.kind = .array := by
  unfold container?
  cases s.kind <;> simp

/-- And a map exactly if it is of that kind. -/
theorem container?_eq_map : s.container? = some .map ↔ s.kind = .map := by
  unfold container?
  cases s.kind <;> simp

/-- It is a container if it becomes one of the two. -/
theorem isContainer_eq (s : Schema) : s.isContainer = s.container?.isSome := by
  unfold isContainer container?
  cases s.kind <;> rfl

/-- The values of a map are given by one schema for all of them. -/
theorem mapValues?_eq_some : s.mapValues? = some part ↔ s.additional = some (.schema part) := by
  unfold mapValues?
  split
  · next values h => rw [h, Option.some_inj, Option.some_inj, Additional.schema.injEq]
  · next h => exact iff_of_false (by simp) (fun hpart => h part hpart)

/-- What a schema says of its content is smaller than the schema. -/
theorem sizeOf_content? (h : s.content? c = some part) : sizeOf part < sizeOf s := by
  cases c with
  | array =>
    have hitems : s.items = some part := h
    cases s
    cases hitems
    simp only [mk.sizeOf_spec, Option.some.sizeOf_spec]
    omega
  | map =>
    have hvalues : s.additional = some (.schema part) := mapValues?_eq_some.mp h
    cases s
    cases hvalues
    simp only [mk.sizeOf_spec, Option.some.sizeOf_spec, Additional.schema.sizeOf_spec]
    omega

end Schema

/-! ## The way down

The rules follow the containers as long as the content is given inline. A container that
does not say what it holds ends the way with nothing at the bottom; a reference ends it with
the reference. -/

/-- **The way down into a part**: the containers that are met, from the outside to the inside, and
what is at the bottom, which is nothing if the last container does not say what it holds. -/
inductive WayDown : RefOr Schema → List Container → Option (RefOr Schema) → Prop
  /-- A reference is not followed, whatever it leads to. -/
  | ref (path : String) : WayDown (.ref path) [] (some (.ref path))
  | plain {s : Schema} (h : s.container? = none) : WayDown (.inline s) [] (some (.inline s))
  | unsaid {s : Schema} {c : Container} (h : s.container? = some c) (hnone : s.content? c = none) :
      WayDown (.inline s) [c] none
  | into {s : Schema} {c : Container} {part : RefOr Schema} {cs : List Container}
      {bottom : Option (RefOr Schema)} (h : s.container? = some c)
      (hpart : s.content? c = some part) (hdown : WayDown part cs bottom) :
      WayDown (.inline s) (c :: cs) bottom

variable {part : RefOr Schema} {cs cs' : List Container} {bottom bottom' : Option (RefOr Schema)}

/-- There is no second way down: what a part is decides which of the four rules applies, and
what the way goes on with. -/
theorem WayDown.unique (h : WayDown part cs bottom) (h' : WayDown part cs' bottom') :
    cs' = cs ∧ bottom' = bottom := by
  induction h generalizing cs' bottom' with
  | ref path =>
    cases h'
    exact ⟨rfl, rfl⟩
  | plain h =>
    cases h' with
    | plain => exact ⟨rfl, rfl⟩
    | unsaid hc => simp [h] at hc
    | into hc => simp [h] at hc
  | unsaid h hnone =>
    cases h' with
    | plain hc => simp [h] at hc
    | unsaid hc =>
      obtain rfl := Option.some.inj (h.symm.trans hc)
      exact ⟨rfl, rfl⟩
    | into hc hpart =>
      obtain rfl := Option.some.inj (h.symm.trans hc)
      simp [hnone] at hpart
  | into h hpart hdown ih =>
    cases h' with
    | plain hc => simp [h] at hc
    | unsaid hc hnone =>
      obtain rfl := Option.some.inj (h.symm.trans hc)
      simp [hpart] at hnone
    | into hc hpart' hdown' =>
      obtain rfl := Option.some.inj (h.symm.trans hc)
      obtain rfl := Option.some.inj (hpart.symm.trans hpart')
      obtain ⟨rfl, rfl⟩ := ih hdown'
      exact ⟨rfl, rfl⟩

/-- Every part has a way down. The induction is by size and not by height, since the way
goes through the values of maps as well. -/
theorem exists_wayDown (part : RefOr Schema) : ∃ cs bottom, WayDown part cs bottom := by
  -- by size, as the height of a schema does not count the values of a map
  induction hsize : sizeOf part using Nat.strongRecOn generalizing part with
  | ind n ih =>
    subst hsize
    cases part with
    | ref path => exact ⟨_, _, .ref path⟩
    | inline s =>
      cases hc : s.container? with
      | none => exact ⟨_, _, .plain hc⟩
      | some c =>
        cases hcontent : s.content? c with
        | none => exact ⟨_, _, .unsaid hc hcontent⟩
        | some part =>
          have hsmaller : sizeOf part < sizeOf (RefOr.inline s) := by
            rw [RefOr.inline.sizeOf_spec]
            exact Nat.lt_add_left 1 (Schema.sizeOf_content? hcontent)
          obtain ⟨cs, bottom, hdown⟩ := ih _ hsmaller part rfl
          exact ⟨_, _, .into hc hcontent hdown⟩

/-- Some container is met exactly if the part is one, given inline. -/
theorem WayDown.isContainer_iff (h : WayDown part cs bottom) :
    part.inline?.any Schema.isContainer = true ↔ cs ≠ [] := by
  cases h with
  | ref path => simp [RefOr.inline?]
  | plain h => simp [RefOr.inline?, Schema.isContainer_eq, h]
  | unsaid h => simp [RefOr.inline?, Schema.isContainer_eq, h]
  | into h => simp [RefOr.inline?, Schema.isContainer_eq, h]

namespace Converter

variable {k : Converter} {s : Schema} {c : Container}

/-! ## Types in containers

A type is a text, and containers are put around it as text. They come off again one by one,
because what is written in front of a content and behind it is known from the container. -/

/-- What is written in front of the content of a container. -/
def opening (k : Converter) : Container → String
  | .array => k.types.get "array" ++ "<"
  | .map => k.types.get "map" ++ "<kotlin.String, "

/-- **A type in containers**, the first of them outermost. -/
def wrapped (k : Converter) (cs : List Container) (type : String) : String :=
  cs.foldr (fun c inner => k.opening c ++ inner ++ ">") type

/-- The content of a type that is written with a container. -/
def inside? (k : Converter) (c : Container) (type : String) : Option String :=
  (Text.afterFront? type (k.opening c)).bind
    (fun rest => (rest.toList.dropSuffix? [('>')]).map String.ofList)

/-- **Takes containers off a type**, from the outside to the inside. -/
def unwrapped? (k : Converter) : List Container → String → Option String
  | [], type => some type
  | c :: cs, type => (k.inside? c type).bind (k.unwrapped? cs)

/-- **What is inside a container** is what stands between its opening and the bracket that
closes it. -/
theorem inside?_eq_some_iff {type inner : String} :
    k.inside? c type = some inner ↔ type = k.opening c ++ inner ++ ">" := by
  unfold inside?
  rw [Option.bind_eq_some_iff]
  constructor
  · rintro ⟨rest, hrest, h⟩
    obtain ⟨cs, hcs, rfl⟩ := Option.map_eq_some_iff.mp h
    obtain ⟨closing, happend, hclosing⟩ := List.dropSuffix?_eq_some_iff.mp hcs
    rw [Text.eq_of_afterFront? hrest, String.append_assoc]
    refine congrArg (k.opening c ++ ·) (String.toList_inj.mp ?_)
    rw [happend, eq_of_beq hclosing, String.toList_append, String.toList_ofList]
    rfl
  · rintro rfl
    refine ⟨inner ++ ">", ?_, Option.map_eq_some_iff.mpr ⟨inner.toList, ?_, String.ofList_toList⟩⟩
    · rw [String.append_assoc, Text.afterFront?_append]
    · exact List.dropSuffix?_eq_some_iff.mpr ⟨_, String.toList_append, beq_self_eq_true _⟩

/-- **What is taken off a type is what it is written with.** -/
theorem unwrapped?_eq_some_iff {type inner : String} :
    k.unwrapped? cs type = some inner ↔ type = k.wrapped cs inner := by
  induction cs generalizing type with
  | nil => exact Option.some_inj
  | cons c cs ih =>
    rw [unwrapped?, Option.bind_eq_some_iff]
    simp only [inside?_eq_some_iff, ih]
    exact exists_eq_right

/-! ## The two types along the way

One lemma for each of the two functions of the converter and each kind of schema, and then
induction along the way down. -/

/-- A container is written around the type of its content. Arrays and maps are looked at in
turn, as each keeps its content under another keyword. -/
theorem schemaType_of_container (h : s.container? = some c) :
    k.schemaType s = k.wrapped [c] ((s.content? c).elim k.anyType k.partType) := by
  cases c with
  | array =>
    have hkind := Schema.container?_eq_array.mp h
    have hitems : k.itemsType s.items = s.items.elim k.anyType k.partType := by
      rcases s.items with _ | _ <;> simp only [itemsType, Option.elim]
    calc k.schemaType s
      _ = k.arrayOf (k.itemsType s.items) := by
        cases s
        simp only [schemaType, hkind]
      _ = k.wrapped [.array] (s.items.elim k.anyType k.partType) := by
        rw [hitems]
        rfl
  | map =>
    have hkind := Schema.container?_eq_map.mp h
    have hvalues : k.valuesType s.additional = s.mapValues?.elim k.anyType k.partType := by
      unfold Schema.mapValues?
      rcases s.additional with _ | _ | _ <;> simp only [valuesType, Option.elim]
    calc k.schemaType s
      _ = k.mapOf (k.valuesType s.additional) := by
        cases s
        simp only [schemaType, hkind]
      _ = k.wrapped [.map] (s.mapValues?.elim k.anyType k.partType) := by
        rw [hvalues]
        rfl

/-- The innermost elements of a container are those of its content. -/
theorem schemaElementType_of_container (h : s.container? = some c) :
    k.schemaElementType s = (s.content? c).elim k.anyType k.elementType := by
  cases c with
  | array =>
    have hkind := Schema.container?_eq_array.mp h
    have hitems : k.itemsElementType s.items = s.items.elim k.anyType k.elementType := by
      rcases s.items with _ | _ <;> simp only [itemsElementType, Option.elim]
    calc k.schemaElementType s
      _ = k.itemsElementType s.items := by
        cases s
        simp only [schemaElementType, hkind]
      _ = s.items.elim k.anyType k.elementType := hitems
  | map =>
    have hkind := Schema.container?_eq_map.mp h
    have hvalues :
        k.valuesElementType s.additional = s.mapValues?.elim k.anyType k.elementType := by
      unfold Schema.mapValues?
      rcases s.additional with _ | _ | _ <;> simp only [valuesElementType, Option.elim]
    calc k.schemaElementType s
      _ = k.valuesElementType s.additional := by
        cases s
        simp only [schemaElementType, hkind]
      _ = s.mapValues?.elim k.anyType k.elementType := hvalues

/-- What is no container is its own innermost element. -/
theorem schemaElementType_of_container?_eq_none (h : s.container? = none) :
    k.schemaElementType s = k.schemaType s := by
  unfold Schema.container? at h
  cases s
  rw [schemaElementType]
  split
  · next hkind => simp [hkind] at h
  · next hkind => simp [hkind] at h
  · rfl

/-- The innermost elements are what is at the bottom. -/
theorem elementType_of_wayDown (h : WayDown part cs bottom) :
    k.elementType part = bottom.elim k.anyType k.partType := by
  induction h with
  | ref path => rfl
  | plain h => exact schemaElementType_of_container?_eq_none h
  | unsaid h hnone =>
    rw [elementType, schemaElementType_of_container h, hnone]
    rfl
  | into h hpart _ ih =>
    rw [elementType, schemaElementType_of_container h, hpart]
    exact ih

/-- **Around the type of the bottom are the containers of the way.** -/
theorem partType_of_wayDown (h : WayDown part cs bottom) :
    k.partType part = k.wrapped cs (bottom.elim k.anyType k.partType) := by
  induction h with
  | ref path => rfl
  | plain h => rfl
  | unsaid h hnone =>
    rw [partType, schemaType_of_container h, hnone]
  | into h hpart _ ih =>
    rw [partType, schemaType_of_container h, hpart, Option.elim_some, ih]
    rfl

/-- The elements of a property are the innermost elements of its schema, also where the schema is
no container and has none but itself. -/
theorem property_elementType (h : WayDown part cs bottom) (wireName : String) (required : Bool) :
    (k.property wireName part required).elementType = k.elementType part := by
  change (if part.inline?.any Schema.isContainer then k.elementType part else k.partType part) = _
  split_ifs with hcontainer
  · rfl
  · have hnone : cs = [] := not_not.mp (mt h.isContainer_iff.mpr hcontainer)
    rw [elementType_of_wayDown h, partType_of_wayDown h, hnone]
    rfl

/-- **The type of a part is that of its innermost elements in the containers on the way down
to them**, so the innermost elements of a property have what is left of its type without
these.

The way down is said to be the only one, so the containers are those of the schema and not
any that would make the equation true. -/
theorem partType_eq_wrapped_elementType (k : Converter) (part : RefOr Schema) :
    ∃ cs bottom, (∀ cs' bottom', WayDown part cs' bottom' ↔ cs' = cs ∧ bottom' = bottom)
      ∧ k.elementType part = bottom.elim (k.types.get "object") k.partType
      ∧ k.partType part = k.wrapped cs (k.elementType part)
      ∧ ∀ wireName required,
          ((k.property wireName part required).isContainer = true ↔ cs ≠ [])
          ∧ k.unwrapped? cs (k.property wireName part required).dataType
              = some (k.property wireName part required).elementType := by
  obtain ⟨cs, bottom, hdown⟩ := exists_wayDown part
  have helement : k.elementType part = bottom.elim k.anyType k.partType :=
    elementType_of_wayDown hdown
  have htype : k.partType part = k.wrapped cs (k.elementType part) := by
    rw [helement]
    exact partType_of_wayDown hdown
  refine ⟨cs, bottom, fun cs' bottom' => ⟨hdown.unique, ?_⟩, helement, htype,
    fun wireName required => ⟨hdown.isContainer_iff, ?_⟩⟩
  · rintro ⟨rfl, rfl⟩
    exact hdown
  · rw [property_elementType hdown, unwrapped?_eq_some_iff]
    exact htype

/-- Arrays of maps of arrays, the last of which do not say what they hold. -/
def shelves : Schema where
  allOf := [.ref "#/components/schemas/Furniture"]
  items := some (.inline { additional := some (.schema (.inline (.ofType "array"))) })

example :
    let k : Converter := { components := {}, types := .standard, style := {} }
    k.elementType (.inline shelves) = "kotlin.Any"
      ∧ k.partType (.inline shelves)
        = "kotlin.Array<kotlin.collections.Map<kotlin.String, kotlin.Array<kotlin.Any>>>"
      ∧ k.unwrapped? [.array, .map] (k.partType (.inline shelves))
        = some "kotlin.Array<kotlin.Any>" := by
  decide +kernel

end Converter

end ClientGen
