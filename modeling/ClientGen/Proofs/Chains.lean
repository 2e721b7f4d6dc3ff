import ClientGen.Proofs.Inlining

/-!
# What a chain of references says

A reference names an entry of the table, the entry may be a reference again, and so on.
Followed without looking back, such a chain stops where an entry is a schema, where
nothing has the name, or where the text is no reference to a schema – or it never stops
(`Components.Gives`). Neither a list of what was followed nor a bound occurs in that.

The lookup answers just what the chain gives (`Components.schemaAt_follows_chain`). It keeps
such a list, and a text that comes back means that the chain goes in a circle and never
ends, since every text leads to at most one other. As only entries that are references
lead further, it takes no more rounds than there are of these, and one
(`Components.Leads.chaseWithin?_eq`).
-/

namespace ClientGen

open Relation (ReflTransGen TransGen)

/-! ## Walks with at most one way on

Where every place has at most one way on, a walk either stops, in one place, or never ends;
and it never ends as soon as it comes back to where it has been. -/

section Walks

variable {α : Type} {r : α → α → Prop} {a b b' : α}

/-- **A walk never ends**: whatever it comes to leads further. -/
def NeverEnds (r : α → α → Prop) (a : α) : Prop := ∀ b, ReflTransGen r a b → ∃ b', r b b'

/-- What comes first on a circle comes back, wherever one stands on it. -/
theorem transGen_self_of_reflTransGen (hr : Relator.RightUnique r) (ha : TransGen r a a)
    (hab : ReflTransGen r a b) : TransGen r b b := by
  induction hab with
  | refl => exact ha
  | @tail b c _ hbc ih =>
    obtain ⟨d, hbd, hdb⟩ := TransGen.head'_iff.mp ih
    obtain rfl := hr hbc hbd
    exact .tail' hdb hbc

/-- **A walk into a circle never ends**: whatever it comes to is before the circle or on it,
and from there a way leads on. -/
theorem neverEnds_of_circle (hr : Relator.RightUnique r) (hab : ReflTransGen r a b)
    (hb : TransGen r b b) : NeverEnds r a := by
  intro c hac
  rcases ReflTransGen.total_of_right_unique hr hab hac with hbc | hcb
  · obtain ⟨d, hcd, -⟩ := TransGen.head'_iff.mp (transGen_self_of_reflTransGen hr hb hbc)
    exact ⟨d, hcd⟩
  · rcases ReflTransGen.cases_head hcb with rfl | ⟨d, hcd, -⟩
    · obtain ⟨d, hcd, -⟩ := TransGen.head'_iff.mp hb
      exact ⟨d, hcd⟩
    · exact ⟨d, hcd⟩

/-- **A walk ends in one place only.** -/
theorem eq_of_reflTransGen_of_ends (hr : Relator.RightUnique r) (hab : ReflTransGen r a b)
    (hab' : ReflTransGen r a b') (hb : ∀ c, ¬ r b c) (hb' : ∀ c, ¬ r b' c) : b = b' := by
  rcases ReflTransGen.total_of_right_unique hr hab hab' with h | h
  · exact (ReflTransGen.cases_head h).resolve_right (fun ⟨c, hc, _⟩ => hb c hc)
  · exact ((ReflTransGen.cases_head h).resolve_right (fun ⟨c, hc, _⟩ => hb' c hc)).symm

end Walks

namespace Components

variable {c : Components} {origin path : String}

/-! ## Chains

A text may be a reference to a schema, a reference to something else, or no reference at
all, and a reference to a schema has an entry or none. These are the cases in which a chain
stops, or goes on if the entry is a reference. -/

/-- **A reference leads to the next**: the entry that it names is a reference again. -/
def Refers (c : Components) (path next : String) : Prop :=
  ∃ name, path = Reference.toSchema name ∧ c.schemas.find? name = some (.ref next)

/-- **A chain stops at a text**, and what the lookup of `origin` then has to say. -/
inductive Stops (c : Components) (origin : String) :
    String → Except ReferenceError Schema → Prop
  /-- The text names a schema. -/
  | found {name : String} {t : Schema} (h : c.schemas.find? name = some (.inline t)) :
      Stops c origin (Reference.toSchema name) (.ok t)
  /-- The text names what is not there. -/
  | missing {name : String} (h : c.schemas.find? name = none) :
      Stops c origin (Reference.toSchema name) (.error (.notFound origin))
  /-- The text names something else than a schema. -/
  | elsewhere {area name : String} (hslash : '/' ∉ area.toList)
      (h : area ≠ Reference.Section.schemas.name) :
      Stops c origin (Reference.toSection area name)
        (.error (.wrongSection Reference.Section.schemas.name area
          (Reference.toSection area name)))
  /-- The text is no reference. -/
  | malformed {last : String} (h : ∀ area name, last ≠ Reference.toSection area name) :
      Stops c origin last (.error (.malformed last))

/-- **What a chain of references gives**, followed from entry to entry: what there is to say
where it stops, or that it never ends. -/
inductive Gives (c : Components) (path : String) : Except ReferenceError Schema → Prop
  | stops {last : String} {r : Except ReferenceError Schema}
      (hchain : ReflTransGen c.Refers path last) (h : c.Stops path last r) : Gives c path r
  | endless (h : NeverEnds c.Refers path) : Gives c path (.error (.circular path))

/-- A reference leads to at most one other. -/
theorem refers_rightUnique (c : Components) : Relator.RightUnique c.Refers := by
  rintro path next next' ⟨name, rfl, h⟩ ⟨name', hname, h'⟩
  obtain rfl := Reference.toSchema_injective hname
  rw [h] at h'
  exact RefOr.ref.inj (Option.some.inj h')

/-- Where a chain stops nothing follows. Each case excludes that the text names an entry
that is a reference. -/
theorem Stops.not_refers {last : String} {r : Except ReferenceError Schema}
    (h : c.Stops origin last r) (next : String) : ¬ c.Refers last next := by
  rintro ⟨name, hlast, hnext⟩
  cases h with
  | found h =>
    obtain rfl := Reference.toSchema_injective hlast
    rw [h] at hnext
    cases hnext
  | missing h =>
    obtain rfl := Reference.toSchema_injective hlast
    rw [h] at hnext
    cases hnext
  | elsewhere hslash h => exact Reference.toSection_ne_toSchema hslash h _ _ hlast
  | malformed h => exact h _ _ hlast

/-- The answer where a chain stops is the one of a lookup that begins there. In each of the
four cases one round decides, and only the errors mention where the search began. -/
theorem Stops.chase_eq {last : String} {r : Except ReferenceError Schema}
    (h : c.Stops origin last r) : c.chase origin 1 [] last = r := by
  rw [chase, if_neg (by simp)]
  cases h with
  | found h =>
    rw [Reference.nameIn_toSchema]
    simp only [bind, Except.bind, h]
  | missing h =>
    rw [Reference.nameIn_toSchema]
    simp only [bind, Except.bind, h]
  | elsewhere hslash h =>
    rw [Reference.nameIn_toSection .schemas hslash, if_neg h]
    rfl
  | malformed h =>
    obtain ⟨area, name, -, hlast⟩ | ⟨-, hname⟩ :=
      Reference.toSection_or_malformed .schemas last
    · exact absurd hlast (h area name)
    · rw [hname]
      rfl

/-- **A chain gives one answer only.** If it stops it stops in one place, and there a lookup
has one answer; and it does not both stop and never end. -/
theorem Gives.unique {r r' : Except ReferenceError Schema} (h : c.Gives path r)
    (h' : c.Gives path r') : r = r' := by
  cases h with
  | stops hchain hlast =>
    cases h' with
    | stops hchain' hlast' =>
      obtain rfl := eq_of_reflTransGen_of_ends c.refers_rightUnique hchain hchain'
        hlast.not_refers hlast'.not_refers
      exact hlast.chase_eq.symm.trans hlast'.chase_eq
    | endless h' =>
      obtain ⟨next, hnext⟩ := h' _ hchain
      exact absurd hnext (hlast.not_refers next)
  | endless h =>
    cases h' with
    | stops hchain' hlast' =>
      obtain ⟨next, hnext⟩ := h _ hchain'
      exact absurd hnext (hlast'.not_refers next)
    | endless h' => rfl

/-- A chain stops at a text that cannot be read as a reference to a schema. -/
theorem stops_of_nameIn_eq_error {last : String} {e : ReferenceError}
    (h : Reference.nameIn .schemas last = .error e) : c.Stops origin last (.error e) := by
  obtain ⟨area, name, hslash, rfl⟩ | ⟨hlast, hname⟩ :=
    Reference.toSection_or_malformed .schemas last
  · rw [Reference.nameIn_toSection .schemas hslash] at h
    split_ifs at h with harea
    cases h
    exact .elsewhere hslash harea
  · rw [hname] at h
    cases h
    exact .malformed hlast

/-! ## The lookup

A search that keeps a list of what it has followed is a description of its own
(`Components.Leads`). It is compared with the chain here, so that neither the list nor the
bound is left in what is said in the end. -/

/-- **The lookup answers what the chain gives.** What was followed before lies on the way to
the text at hand, so a text that was followed before is on a circle. -/
theorem Leads.gives {followed : List String} {r : Except ReferenceError Schema}
    (h : c.Leads origin followed path r) (hchain : ReflTransGen c.Refers origin path)
    (hfollowed : ∀ q ∈ followed, TransGen c.Refers q path) : c.Gives origin r := by
  induction h with
  | circular h =>
    exact .endless (neverEnds_of_circle c.refers_rightUnique hchain (hfollowed _ h))
  | unnamed _ hname => exact .stops hchain (stops_of_nameIn_eq_error hname)
  | missing _ hname h =>
    rw [Reference.eq_toSchema_of_nameIn hname] at hchain
    exact .stops hchain (.missing h)
  | found _ hname h =>
    rw [Reference.eq_toSchema_of_nameIn hname] at hchain
    exact .stops hchain (.found h)
  | @next _ path name next _ _ hname h _ ih =>
    have hnext : c.Refers path next := ⟨name, Reference.eq_toSchema_of_nameIn hname, h⟩
    refine ih (hchain.tail hnext) (fun q hq => ?_)
    rcases List.mem_cons.mp hq with rfl | hq
    · exact .single hnext
    · exact (hfollowed q hq).tail hnext

/-- **The search for what a reference leads to, in so many rounds**: nothing if it takes
more, where `chase` calls the chain circular (`chase_eq_getD`). -/
def chaseWithin? (c : Components) (origin : String) : Nat → List String → String →
    Option (Except ReferenceError Schema)
  | 0, _, _ => none
  | rounds + 1, visited, current =>
    if visited.contains current then some (.error (.circular origin))
    else
      match Reference.nameIn .schemas current with
      | .error e => some (.error e)
      | .ok name =>
        match c.schemas.find? name with
        | some (.inline schema) => some (.ok schema)
        | some (.ref next) => c.chaseWithin? origin rounds (current :: visited) next
        | none => some (.error (.notFound origin))

/-- The lookup is this search, with a chain called circular if it takes more rounds than
there are. -/
theorem chase_eq_getD (c : Components) (origin : String) (rounds : Nat) (visited : List String)
    (current : String) : c.chase origin rounds visited current
      = (c.chaseWithin? origin rounds visited current).getD (.error (.circular origin)) := by
  induction rounds generalizing visited current with
  | zero => rfl
  | succ rounds ih =>
    rw [chase, chaseWithin?]
    split_ifs
    · rfl
    · cases Reference.nameIn .schemas current with
      | error e => rfl
      | ok name =>
        simp only [bind, Except.bind]
        cases c.schemas.find? name with
        | none => rfl
        | some part =>
          cases part with
          | inline schema => rfl
          | ref next => exact ih _ _

/-- The entries of the table that are references. -/
def references (c : Components) : Entries (RefOr Schema) :=
  c.schemas.entries.filter (fun e => e.2.path?.isSome)

/-- What leads further is the name of an entry that is a reference. -/
theorem mem_references_of_refers {next : String} (h : c.Refers path next) :
    path ∈ c.references.keys.map Reference.toSchema := by
  obtain ⟨name, rfl, h⟩ := h
  have hmem : (name, RefOr.ref next) ∈ c.references :=
    List.mem_filter.mpr ⟨OrderedMap.find?_eq_some_iff.mp h, rfl⟩
  exact List.mem_map_of_mem (List.mem_map_of_mem hmem)

/-- **Only so many references lead further**: as many as there are among the entries. -/
theorem length_le_references {paths : List String} (hnodup : paths.Nodup)
    (h : ∀ q ∈ paths, ∃ next, c.Refers q next) : paths.length ≤ c.references.length := by
  have hsub : paths ⊆ c.references.keys.map Reference.toSchema := by
    intro q hq
    obtain ⟨next, hnext⟩ := h q hq
    exact mem_references_of_refers hnext
  have hlen := (List.subperm_of_subset hnodup hsub).length_le
  simpa [Entries.keys] using hlen

/-- **A chain comes to its end in as many rounds as there are references left, and one.** -/
theorem Leads.chaseWithin?_eq {followed : List String} {r : Except ReferenceError Schema}
    (h : c.Leads origin followed path r) (hnodup : followed.Nodup)
    (hrefers : ∀ q ∈ followed, ∃ next, c.Refers q next) {rounds : Nat}
    (hrounds : c.references.length ≤ rounds + followed.length) :
    c.chaseWithin? origin (rounds + 1) followed path = some r := by
  induction h generalizing rounds with
  | circular h => rw [chaseWithin?, if_pos (List.contains_iff_mem.mpr h)]
  | unnamed hnew hname => rw [chaseWithin?, if_neg (mt List.contains_iff_mem.mp hnew), hname]
  | missing hnew hname h =>
    rw [chaseWithin?, if_neg (mt List.contains_iff_mem.mp hnew), hname]
    simp only [h]
  | found hnew hname h =>
    rw [chaseWithin?, if_neg (mt List.contains_iff_mem.mp hnew), hname]
    simp only [h]
  | @next followed path name next _ hnew hname h _ ih =>
    -- The text at hand is one more of those that lead further, so there is a round left.
    have hfollowed : ∀ q ∈ path :: followed, ∃ next, c.Refers q next := by
      intro q hq
      rcases List.mem_cons.mp hq with rfl | hq
      · exact ⟨next, name, Reference.eq_toSchema_of_nameIn hname, h⟩
      · exact hrefers q hq
    have hnodup' : (path :: followed).Nodup := List.nodup_cons.mpr ⟨hnew, hnodup⟩
    have hlen := length_le_references hnodup' hfollowed
    rw [List.length_cons] at hlen
    obtain ⟨rounds, rfl⟩ : ∃ n, rounds = n + 1 := ⟨rounds - 1, by omega⟩
    rw [chaseWithin?, if_neg (mt List.contains_iff_mem.mp hnew), hname]
    simp only [h]
    exact ih hnodup' hfollowed (by rw [List.length_cons]; omega)

/-- **The lookup of a schema answers what the chain of its reference gives**, and has done
so after at most one round more than there are references among the entries.

The chain itself is described without a lookup, so the equivalence fixes the answer for each
reference text: a schema, one of three errors where the chain stops, or the error of a
circle where it never does. -/
theorem schemaAt_follows_chain (c : Components) (path : String) :
    c.chaseWithin? path (c.references.length + 1) [] path = some (c.schemaAt path)
      ∧ ∀ r, c.Gives path r ↔ r = c.schemaAt path := by
  have hleads := c.leads_schemaAt path
  refine ⟨hleads.chaseWithin?_eq List.nodup_nil nofun (Nat.le_refl _), fun r => ?_⟩
  have hgives : c.Gives path (c.schemaAt path) := hleads.gives .refl nofun
  constructor
  · exact fun h => h.unique hgives
  · rintro rfl
    exact hgives

/-- A chain into a circle that it does not start on. -/
example : schemaAt { schemas := .ofEntries [("Start", .ref "#/components/schemas/Loop"),
      ("Loop", .ref "#/components/schemas/Loop")] } "#/components/schemas/Start"
    = .error (.circular "#/components/schemas/Start") := by
  rfl

end Components

end ClientGen
