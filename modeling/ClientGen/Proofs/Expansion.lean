import ClientGen.Proofs.Descent

/-!
# What the expansion of item references does

`Components.Expands` is the relation behind the expansion: along the items of nested
arrays, a reference to a container is replaced by the container, which may itself
be expanded. It does not ask how far the expansion goes, so whatever a bound on
the number of steps, or a reference that was followed before, cuts short is an
expansion too (`Components.expandItems?_expands`).

Where the expansion stops is the other half. A node is `Components.Settled` if its
items are no reference to a container. An expanded node always is
(`Components.settled_of_expandItems?`), and where all nodes below are, nothing is left
to expand (`Components.expandItems?_eq_none`).
-/

namespace ClientGen

namespace Schema

variable {target : String → Option Schema} {s s' : Schema}

/-- A schema with the items that it has is the schema. -/
theorem with_items_self {part : RefOr Schema} (h : s.items = some part) :
    { s with items := some part } = s := by
  cases s
  cases h
  rfl

/-- What expands a schema is what expands its items. -/
theorem expandWith?_eq (target : String → Option Schema) (s : Schema) :
    s.expandWith? target
      = if s.isArray then
          (expandItemsWith? target s.items).map (fun part => { s with items := some part })
        else none := by
  cases s
  rfl

/-- **An expansion puts a target in the place of the items of an array**, or expands the
array that its items are. It is the one equation through which proofs see the search; by
itself it does not say what targets are. -/
theorem expandWith?_eq_some :
    s.expandWith? target = some s'
      ↔ s.isArray = true
        ∧ ((∃ path t, s.items = some (.ref path) ∧ target path = some t
              ∧ s' = { s with items := some (.inline t) })
          ∨ ∃ u u', s.items = some (.inline u) ∧ u.expandWith? target = some u'
              ∧ s' = { s with items := some (.inline u') }) := by
  rw [expandWith?_eq]
  cases s.isArray with
  | false => simp
  | true =>
    cases s.items with
    | none => simp [expandItemsWith?]
    | some part =>
      cases part with
      | ref path =>
        simp only [expandItemsWith?, expandPartWith?, if_true, Option.map_map, true_and,
          Option.map_eq_some_iff]
        constructor
        · rintro ⟨t, ht, rfl⟩
          exact Or.inl ⟨path, t, rfl, ht, rfl⟩
        · rintro (⟨path', t, hp, ht, rfl⟩ | ⟨u, u', hu, -, -⟩)
          · cases hp
            exact ⟨t, ht, rfl⟩
          · cases hu
      | inline u =>
        simp only [expandItemsWith?, expandPartWith?, if_true, Option.map_map, true_and,
          Option.map_eq_some_iff]
        constructor
        · rintro ⟨u', hu, rfl⟩
          exact Or.inr ⟨u, u', rfl, hu, rfl⟩
        · rintro (⟨path', t, hp, -, -⟩ | ⟨v, u', hv, hu, rfl⟩)
          · cases hp
          · cases hv
            exact ⟨u', hu, rfl⟩

/-- Nothing is expanded where no array that is reached has a target for its items. -/
theorem expandWith?_eq_none
    (h : ∀ u, s.Reaches u → u.isArray = true → ∀ path, u.items = some (.ref path) →
      target path = none) : s.expandWith? target = none := by
  induction s using part_induction with
  | h s ih =>
    rw [Option.eq_none_iff_forall_ne_some]
    intro s' hs
    obtain ⟨ha, ⟨path, t, hi, ht, -⟩ | ⟨u, u', hi, hu, -⟩⟩ := expandWith?_eq_some.mp hs
    · rw [h s .refl ha path hi] at ht
      cases ht
    · have hhold : s.Holds u := .items hi
      rw [ih u hhold (fun v hv => h v (.head hhold hv))] at hu
      cases hu

end Schema

namespace Components

open Schema

/-- **One schema expands to another**: along the items of nested arrays, a reference
to a container gives way to an expansion of the container. -/
inductive Expands (c : Components) : Schema → Schema → Prop
  | refl (s : Schema) : Expands c s s
  | target {s t t' : Schema} {path : String} (ha : s.isArray = true)
      (hi : s.items = some (.ref path)) (ht : c.containerAt? path = some t)
      (h : Expands c t t') : Expands c s { s with items := some (.inline t') }
  | nested {s u u' : Schema} (ha : s.isArray = true) (hi : s.items = some (.inline u))
      (h : Expands c u u') : Expands c s { s with items := some (.inline u') }

variable {c : Components} {s s' : Schema}

/-- An expansion looks the same from above. -/
theorem Expands.sameFrame (h : c.Expands s s') : s.SameFrame s' := by
  cases h with
  | refl => exact .refl s
  | target _ hi _ _ => exact .of_items hi
  | nested _ hi _ => exact .of_items hi

/-- Expansions one after the other make an expansion. The second goes on at the end of the
nested arrays, in the container if the first has put one there. -/
theorem Expands.trans {s'' : Schema} (h : c.Expands s s') (h' : c.Expands s' s'') :
    c.Expands s s'' := by
  induction h generalizing s'' with
  | refl => exact h'
  | target ha hi ht h ih =>
    cases h' with
    | refl => exact .target ha hi ht h
    | target _ hi' => cases hi'
    | nested _ hi' h' =>
      cases hi'
      exact .target ha hi ht (ih h')
  | nested ha hi h ih =>
    cases h' with
    | refl => exact .nested ha hi h
    | target _ hi' => cases hi'
    | nested _ hi' h' =>
      cases hi'
      exact .nested ha hi (ih h')

/-- Targets that are expansions of containers make an expansion. -/
theorem expands_of_expandWith? {target : String → Option Schema}
    (htarget : ∀ path t', target path = some t' →
      ∃ t, c.containerAt? path = some t ∧ c.Expands t t')
    (h : s.expandWith? target = some s') : c.Expands s s' := by
  induction s using part_induction generalizing s' with
  | h s ih =>
    obtain ⟨ha, ⟨path, t', hi, ht, rfl⟩ | ⟨u, u', hi, hu, rfl⟩⟩ := expandWith?_eq_some.mp h
    · obtain ⟨t, hc, hexp⟩ := htarget path t' ht
      exact .target ha hi hc hexp
    · exact .nested ha hi (ih u (.items hi) hu)

/-- What an expansion puts in the place of a reference: the container that it leads
to, expanded in turn as far as the steps and the references followed so far allow. -/
def replacement? (c : Components) (steps : Nat) (visited : List String) (path : String) :
    Option Schema :=
  if visited.contains path then none
  else (c.containerAt? path).map (fun t => (c.expandFrom? steps (path :: visited) t).getD t)

/-! ### One expansion, case by case

The expansion is defined through a search for the end of nested arrays. At one schema it
comes down to four cases, which are those of the items: there is no array, there are no
items, they are given inline, or they are a reference. -/

section Cases

variable {steps : Nat} {visited : List String} {u : Schema} {path : String}

/-- What is no array is left alone, although it may have items. -/
theorem expandFrom?_of_not_isArray (h : s.isArray = false) (steps : Nat) :
    c.expandFrom? (steps + 1) visited s = none := by
  rw [expandFrom?, expandWith?_eq, h, if_neg Bool.false_ne_true]

/-- Without items there is nothing to expand. -/
theorem expandFrom?_of_items_none (h : s.items = none) (steps : Nat) :
    c.expandFrom? (steps + 1) visited s = none := by
  rw [expandFrom?, expandWith?_eq, h]
  exact ite_self none

/-- Going down to inline items is no step: the steps count what is put in place. -/
theorem expandFrom?_of_inline (ha : s.isArray = true) (hi : s.items = some (.inline u))
    (steps : Nat) :
    c.expandFrom? (steps + 1) visited s
      = (c.expandFrom? (steps + 1) visited u).map
          (fun u' => { s with items := some (.inline u') }) := by
  rw [expandFrom?, expandWith?_eq, if_pos ha, hi, expandItemsWith?, expandPartWith?,
    Option.map_map]
  rfl

/-- A reference gives way to what stands for it, and stays if nothing does. -/
theorem expandFrom?_of_ref (ha : s.isArray = true) (hi : s.items = some (.ref path))
    (steps : Nat) :
    c.expandFrom? (steps + 1) visited s
      = (c.replacement? steps visited path).map
          (fun t => { s with items := some (.inline t) }) := by
  rw [expandFrom?, expandWith?_eq, if_pos ha, hi, expandItemsWith?, expandPartWith?,
    Option.map_map]
  rfl

/-- **The items of an array, given inline, are expanded on their own**, as if they were
met first. -/
theorem expandItems?_of_inline (ha : s.isArray = true) (hi : s.items = some (.inline u)) :
    (c.expandItems? s).getD s
      = { s with items := some (.inline ((c.expandItems? u).getD u)) } := by
  unfold expandItems?
  rw [expandFrom?_of_inline ha hi]
  cases c.expandFrom? (c.schemas.size + 1) [] u with
  | none => exact (with_items_self hi).symm
  | some u' => rfl

/-- **A reference to a container gives way to the container**, which is expanded in turn
with the reference as the only one that was followed. -/
theorem expandItems?_of_ref {t : Schema} (ha : s.isArray = true)
    (hi : s.items = some (.ref path)) (ht : c.containerAt? path = some t) :
    (c.expandItems? s).getD s
      = { s with items := some (.inline ((c.expandFrom? c.schemas.size [path] t).getD t)) } := by
  unfold expandItems?
  rw [expandFrom?_of_ref ha hi, replacement?, if_neg (by simp), ht]
  rfl

end Cases

/-- What stands for a reference is an expansion of the container that it leads to, if
fewer steps expand. -/
theorem exists_of_replacement? {steps : Nat} {visited : List String} {path : String}
    {t' : Schema}
    (hexp : ∀ visited s s', c.expandFrom? steps visited s = some s' → c.Expands s s')
    (h : c.replacement? steps visited path = some t') :
    ∃ t, c.containerAt? path = some t ∧ c.Expands t t' := by
  unfold replacement? at h
  split_ifs at h
  obtain ⟨t, hc, rfl⟩ := Option.map_eq_some_iff.mp h
  refine ⟨t, hc, ?_⟩
  cases he : c.expandFrom? steps (path :: visited) t with
  | none => exact .refl t
  | some t'' => exact hexp _ t t'' he

/-- Whatever the bound, and whatever has been followed before, the result is an expansion.
By induction on the bound. -/
theorem expandFrom?_expands (steps : Nat) (visited : List String) (s s' : Schema)
    (h : c.expandFrom? steps visited s = some s') : c.Expands s s' := by
  induction steps generalizing visited s s' with
  | zero => cases h
  | succ steps ih =>
    -- What stands for a reference was expanded with one step less.
    exact expands_of_expandWith? (fun _ _ => exists_of_replacement? ih) h

/-- **The expansion of the item references expands.** -/
theorem expandItems?_expands (h : c.expandItems? s = some s') : c.Expands s s' :=
  expandFrom?_expands _ _ s s' h

/-- **An expanded node holds its items inline**: a container in the place of the
reference to it, or the array that they were, expanded. -/
theorem exists_of_expandItems? (h : c.expandItems? s = some s') :
    ∃ u', s' = { s with items := some (.inline u') }
      ∧ ((∃ path t, s.items = some (.ref path) ∧ c.containerAt? path = some t
            ∧ c.Expands t u')
        ∨ ∃ u, s.items = some (.inline u) ∧ c.Expands u u') := by
  obtain ⟨-, ⟨path, t', hi, ht, rfl⟩ | ⟨u, u', hi, hu, rfl⟩⟩ := expandWith?_eq_some.mp h
  · obtain ⟨t, hc, hexp⟩ := exists_of_replacement? (expandFrom?_expands _) ht
    exact ⟨t', rfl, Or.inl ⟨path, t, hi, hc, hexp⟩⟩
  · refine ⟨u', rfl, Or.inr ⟨u, hi, ?_⟩⟩
    exact expands_of_expandWith? (fun _ _ => exists_of_replacement? (expandFrom?_expands _)) hu

/-- **A node is settled**: if it is an array, its items are no reference to a
container. -/
def Settled (c : Components) (s : Schema) : Prop :=
  s.isArray = true → ∀ path, s.items = some (.ref path) → c.containerAt? path = none

/-- An array with inline items is settled. -/
theorem settled_of_inline {u : Schema} (h : s.items = some (.inline u)) : c.Settled s := by
  intro _ path hp
  rw [h] at hp
  cases hp

/-- Nothing is left to expand where all nodes are settled, since the search goes to the end
of nested arrays and no reference that it may find there has a container. -/
theorem expandItems?_eq_none (h : ∀ u, s.Reaches u → c.Settled u) :
    c.expandItems? s = none := by
  refine expandWith?_eq_none (fun u hu ha path hi => ?_)
  rw [h u hu ha path hi]
  rfl

/-- **A node is settled once its items are expanded**, or if there is nothing to expand: in
the first case its items are inline, in the second a reference among them has not been
followed before, so there must be no container behind it. -/
theorem settled_of_expandItems? : c.Settled ((c.expandItems? s).getD s) := by
  cases h : c.expandItems? s with
  | some s' =>
    obtain ⟨-, ⟨path, t, -, -, rfl⟩ | ⟨u, u', -, -, rfl⟩⟩ := expandWith?_eq_some.mp h
    · exact settled_of_inline rfl
    · exact settled_of_inline rfl
  | none =>
    intro ha path hi
    rw [Option.getD_none] at ha hi
    -- A container there would have been put in place.
    rw [Option.eq_none_iff_forall_ne_some]
    intro t ht
    have hsome : c.expandItems? s = some _ :=
      expandWith?_eq_some.mpr ⟨ha, Or.inl ⟨path, _, hi, by simp [ht]; rfl, rfl⟩⟩
    rw [h] at hsome
    cases hsome

/-- **What stands for a reference is settled**, unless the container is an array of that
very reference: this one has just been followed, and the array stays as it is. The cases are
those of the items of the container. -/
theorem settled_of_expandFrom? {t : Schema} {path : String} (steps : Nat) :
    c.Settled ((c.expandFrom? (steps + 1) [path] t).getD t)
      ∨ (t.isArray = true ∧ t.items = some (.ref path))
        ∧ (c.expandFrom? (steps + 1) [path] t).getD t = t := by
  cases ha : t.isArray with
  | false =>
    rw [expandFrom?_of_not_isArray ha]
    exact Or.inl (fun h => absurd (ha.symm.trans h) Bool.false_ne_true)
  | true =>
    cases hi : t.items with
    | none =>
      rw [expandFrom?_of_items_none hi]
      exact Or.inl (fun _ path' hpath => by cases hi.symm.trans hpath)
    | some part =>
      cases part with
      | inline u =>
        rw [expandFrom?_of_inline ha hi]
        cases c.expandFrom? (steps + 1) [path] u with
        | none => exact Or.inl (settled_of_inline hi)
        | some u' => exact Or.inl (settled_of_inline rfl)
      | ref path' =>
        rw [expandFrom?_of_ref ha hi, replacement?]
        by_cases hsame : path' = path
        · subst hsame
          rw [if_pos (by simp)]
          exact Or.inr ⟨⟨rfl, rfl⟩, rfl⟩
        · rw [if_neg (by simpa using hsame)]
          cases hc : c.containerAt? path' with
          | none =>
            refine Or.inl (fun _ path'' hpath => ?_)
            cases hi.symm.trans hpath
            exact hc
          | some t' => exact Or.inl (settled_of_inline rfl)

end Components

end ClientGen
