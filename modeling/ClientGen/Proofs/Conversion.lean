import ClientGen.Conversion.Basic
import Mathlib.Data.List.Forall2

/-!
# What a successful conversion consists of

The conversion of a document prepares its components, and from then on works with one
converter over the prepared components (`Document.converter`). Every statement about the
models or the types of a client is a statement about that converter.

Preparation keeps the table of schemas entry by entry (`preparedComponents_entries`): the
names and their order stay, a reference stays the reference it is, and an inline schema
stays inline.

A computation that may fail is taken apart by one equivalence for each way of putting such
computations together (`except_bind_eq_ok`, `except_mapM_eq_ok`). What a success consists of
can then be stated without the computation, as `Document.toClient_eq_ok` does for the whole
conversion.
-/

namespace ClientGen

variable {α β ε : Type}

/-- A successful computation in two steps succeeds in both. -/
theorem except_bind_eq_ok {x : Except ε α} {f : α → Except ε β} {b : β} :
    x >>= f = .ok b ↔ ∃ a, x = .ok a ∧ f a = .ok b := by
  cases x with
  | error e =>
    constructor
    · intro h
      cases h
    · rintro ⟨a, ha, -⟩
      cases ha
  | ok a =>
    constructor
    · intro h
      exact ⟨a, rfl, h⟩
    · rintro ⟨a', ha, h⟩
      cases ha
      exact h

/-- A result without its error is there if the computation succeeds. -/
theorem toOption_eq_some {x : Except ε α} {a : α} : x.toOption = some a ↔ x = .ok a := by
  cases x with
  | error e => exact ⟨nofun, nofun⟩
  | ok a' =>
    constructor
    · intro h
      cases h
      rfl
    · intro h
      cases h
      rfl

/-- What becomes of an error does not make a result. -/
theorem except_mapError_eq_ok {ε' : Type} {x : Except ε α} {f : ε → ε'} {a : α} :
    x.mapError f = .ok a ↔ x = .ok a := by
  cases x <;> simp [Except.mapError]

/-- A computation over a list succeeds if it does so at every element. -/
theorem except_mapM_eq_ok {f : α → Except ε β} {l : List α} {l' : List β} :
    l.mapM f = .ok l' ↔ List.Forall₂ (fun a b => f a = .ok b) l l' := by
  induction l generalizing l' with
  | nil => simp [pure, Except.pure, eq_comm]
  | cons a l ih =>
    rw [List.mapM_cons, except_bind_eq_ok, List.forall₂_cons_left_iff]
    refine exists_congr (fun b => ?_)
    rw [except_bind_eq_ok]
    constructor
    · rintro ⟨ha, l', hl, h⟩
      exact ⟨l', ha, ih.mp hl, (Except.ok.inj h).symm⟩
    · rintro ⟨l', ha, hl, rfl⟩
      exact ⟨ha, l', ih.mpr hl, rfl⟩

namespace Conversion

variable {p : Preparation} {c c' : Components}

/-- What preparation makes of one entry of the table: the same name, the same
reference, or the prepared schema. -/
inductive PreparedEntry (p : Preparation) (c : Components) :
    String × RefOr Schema → String × RefOr Schema → Prop
  | ref (name path : String) : PreparedEntry p c (name, .ref path) (name, .ref path)
  | inline (name : String) {s s' : Schema} (h : p.prepare? c s = some s') :
      PreparedEntry p c (name, .inline s) (name, .inline s')

/-- An entry keeps its name. -/
theorem PreparedEntry.name_eq {e e' : String × RefOr Schema} (h : PreparedEntry p c e e') :
    e'.1 = e.1 := by
  cases h <;> rfl

/-- An entry of the new table comes from one of the old. -/
theorem preparedEntry_of_preparedPart {e : String × RefOr Schema} {part : RefOr Schema}
    (h : preparedPart p c e.1 e.2 = .ok part) : PreparedEntry p c e (e.1, part) := by
  obtain ⟨name, old⟩ := e
  cases old with
  | ref path => cases h; exact .ref name path
  | inline s =>
    simp only [preparedPart] at h
    split at h
    · next s' hs => cases h; exact .inline name hs
    · cases h

/-- Preparing entry by entry keeps the names. -/
theorem keys_eq_of_forall₂ {es es' : Entries (RefOr Schema)}
    (h : List.Forall₂ (PreparedEntry p c) es es') : es'.keys = es.keys := by
  induction h with
  | nil => rfl
  | cons he _ ih =>
    simp only [Entries.keys, List.map_cons] at ih ⊢
    rw [he.name_eq, ih]

/-- **Preparation keeps the table of schemas, entry by entry**, and leaves all other
components alone. The entries are prepared one by one, each against the components as they
were before. -/
theorem preparedComponents_entries (h : preparedComponents p c = .ok c') :
    List.Forall₂ (PreparedEntry p c) c.schemas.entries c'.schemas.entries
      ∧ c' = { c with schemas := c'.schemas } := by
  obtain ⟨es, hes, h⟩ := except_bind_eq_ok.mp h
  have hprep : List.Forall₂ (PreparedEntry p c) c.schemas.entries es := by
    refine (except_mapM_eq_ok.mp hes).imp (fun e e' he => ?_)
    obtain ⟨part, hpart, he⟩ := except_bind_eq_ok.mp he
    cases he
    exact preparedEntry_of_preparedPart hpart
  -- The names are those of the old table, so writing the entries in turn repeats none.
  have hkeys : (Entries.keys es).Nodup := by
    rw [keys_eq_of_forall₂ hprep]
    exact c.schemas.distinct
  cases h
  refine ⟨?_, rfl⟩
  rw [OrderedMap.entries_ofEntries hkeys]
  exact hprep

/-- **The models are the adjusted models of the inline schemas.** -/
theorem mem_models {k : Converter} {adjustment : Client.ModelAdjustment} {m : Client.Model} :
    m ∈ models k adjustment
      ↔ ∃ name s, (name, .inline s) ∈ k.components.schemas.entries
          ∧ adjustment.apply (k.model name s) = m := by
  unfold models
  rw [List.mem_filterMap]
  constructor
  · rintro ⟨⟨name, part⟩, he, hm⟩
    cases part with
    | ref path => cases hm
    | inline s => exact ⟨name, s, he, Option.some.inj hm⟩
  · rintro ⟨name, s, he, rfl⟩
    exact ⟨(name, .inline s), he, rfl⟩

end Conversion

open Conversion

namespace Document

/-- **The converter of a conversion**: over the prepared components, with the
types and names of the run. -/
def converter (d : Document) (policy : ConversionPolicy) (options : ConversionOptions) :
    Except ConversionError Converter := do
  let components ← preparedComponents (preparation policy options) d.componentsOrNone
  return { components, types := options.types, style := options.style }

variable {d : Document} {policy : ConversionPolicy} {options : ConversionOptions}

/-- A converter is over the prepared components. -/
theorem converter_eq_ok {k : Converter} :
    d.converter policy options = .ok k
      ↔ preparedComponents (preparation policy options) d.componentsOrNone = .ok k.components
        ∧ k.types = options.types ∧ k.style = options.style := by
  unfold converter
  rw [except_bind_eq_ok]
  constructor
  · rintro ⟨components, h, hk⟩
    cases hk
    exact ⟨h, rfl, rfl⟩
  · rintro ⟨h, ht, hs⟩
    obtain ⟨components, types, style⟩ := k
    cases ht
    cases hs
    exact ⟨components, h, rfl⟩

/-- **A client is that of one converter**: its models are the models of the
converter, and its APIs hold the operations that the converter finds. -/
theorem toClient_eq_ok {client : Client} (h : d.toClient policy options = .ok client) :
    ∃ k ops, d.converter policy options = .ok k ∧ operations k d.paths = .ok ops
      ∧ client.models = models k (modelAdjustment policy options)
      ∧ client.apis = apis options.style (apiAdjustment policy options) ops := by
  obtain ⟨components, hc, h⟩ := except_bind_eq_ok.mp h
  obtain ⟨ops, hops, h⟩ := except_bind_eq_ok.mp h
  refine ⟨⟨components, options.types, options.style⟩, ops,
    converter_eq_ok.mpr ⟨hc, rfl, rfl⟩, ?_, ?_⟩
  · exact except_mapError_eq_ok.mp hops
  · cases h
    exact ⟨rfl, rfl⟩

/-- A client is multipart if one of its APIs is. -/
theorem toClient_isMultipart {client : Client} (h : d.toClient policy options = .ok client) :
    client.isMultipart = client.apis.any (·.isMultipart) := by
  obtain ⟨components, -, h⟩ := except_bind_eq_ok.mp h
  obtain ⟨ops, -, h⟩ := except_bind_eq_ok.mp h
  cases h
  rfl

end Document

end ClientGen
