import ClientGen.Proofs.Endlessness
import ClientGen.Proofs.Chains

/-!
# Inlining a second time

One inlining follows each reference at most once, and keeps no account of that for the
next. What it has left in place because it had been there before is new to the second,
which expands it once more.

A reference at the end of nested arrays leads to a container, whose nested arrays may end
at a reference again (`Components.LeadsOn`). One inlining is all that there is to do exactly
if that does not lead into a circle, and if it does, no number of inlinings is enough
(`Components.expandItems?_again_eq_none_iff`): each finds a reference to a container at the
end of what the last one left, because going on from there never comes to an end
(`Components.Inlines.neverSettles`).
-/

namespace ClientGen

open Relation (ReflTransGen TransGen)

namespace Schema

/-- **The arrays nested in a schema end at a reference.** -/
inductive EndsAt : Schema → String → Prop
  | here {s : Schema} {path : String} (ha : s.isArray = true)
      (hi : s.items = some (.ref path)) : EndsAt s path
  | nested {s u : Schema} {path : String} (ha : s.isArray = true)
      (hi : s.items = some (.inline u)) (h : EndsAt u path) : EndsAt s path

variable {s u : Schema} {path path' : String}

/-- What ends at a reference is an array. -/
theorem EndsAt.isArray (h : s.EndsAt path) : s.isArray = true := by
  cases h with
  | here ha _ => exact ha
  | nested ha _ _ => exact ha

/-- An array of a reference ends at this reference. -/
theorem endsAt_of_ref (ha : s.isArray = true) (hi : s.items = some (.ref path)) :
    s.EndsAt path' ↔ path' = path := by
  constructor
  · intro h
    cases h with
    | here _ hi' =>
      rw [hi] at hi'
      cases hi'
      rfl
    | nested _ hi' _ =>
      rw [hi] at hi'
      cases hi'
  · rintro rfl
    exact .here ha hi

/-- An array of an inline schema ends where that does. -/
theorem endsAt_of_inline (ha : s.isArray = true) (hi : s.items = some (.inline u)) :
    s.EndsAt path ↔ u.EndsAt path := by
  constructor
  · intro h
    cases h with
    | here _ hi' =>
      rw [hi] at hi'
      cases hi'
    | nested _ hi' h =>
      rw [hi] at hi'
      cases hi'
      exact h
  · exact .nested ha hi

/-- Nested arrays end at one reference at most. -/
theorem EndsAt.unique (h : s.EndsAt path) (h' : s.EndsAt path') : path = path' := by
  induction h with
  | here ha hi => exact ((endsAt_of_ref ha hi).mp h').symm
  | nested ha hi _ ih => exact ih ((endsAt_of_inline ha hi).mp h')

/-- **A schema is expanded exactly if there is something to put at the end of its nested
arrays.** -/
theorem isSome_expandWith?_iff {target : String → Option Schema} :
    (s.expandWith? target).isSome = true
      ↔ ∃ path, s.EndsAt path ∧ (target path).isSome = true := by
  constructor
  · intro h
    induction s using part_induction with
    | h s ih =>
      obtain ⟨s', hs⟩ := Option.isSome_iff_exists.mp h
      obtain ⟨ha, ⟨path, t, hi, ht, -⟩ | ⟨u, u', hi, hu, -⟩⟩ := expandWith?_eq_some.mp hs
      · exact ⟨path, .here ha hi, Option.isSome_iff_exists.mpr ⟨t, ht⟩⟩
      · obtain ⟨path, hpath, ht⟩ := ih u (.items hi) (Option.isSome_iff_exists.mpr ⟨u', hu⟩)
        exact ⟨path, .nested ha hi hpath, ht⟩
  · rintro ⟨path, hpath, ht⟩
    induction hpath with
    | here ha hi =>
      obtain ⟨t, ht⟩ := Option.isSome_iff_exists.mp ht
      have hs := expandWith?_eq_some.mpr ⟨ha, .inl ⟨_, t, hi, ht, rfl⟩⟩
      exact Option.isSome_iff_exists.mpr ⟨_, hs⟩
    | nested ha hi _ ih =>
      obtain ⟨u', hu⟩ := Option.isSome_iff_exists.mp (ih ht)
      have hs := expandWith?_eq_some.mpr ⟨ha, .inr ⟨_, u', hi, hu, rfl⟩⟩
      exact Option.isSome_iff_exists.mpr ⟨_, hs⟩

end Schema

namespace Components

variable {c : Components} {s s' : Schema} {path : String} {visited paths : List String}
  {changed : Bool}

/-- **An item reference leads on to another**: it leads to a container whose nested arrays
end at the other. -/
def LeadsOn (c : Components) (path path' : String) : Prop :=
  ∃ t, c.containerAt? path = some t ∧ t.EndsAt path'

/-- **A reference leads on to one reference at most**, since there is one container that it
leads to and one end of its nested arrays. So the way on from a reference is a chain. -/
theorem leadsOn_rightUnique (c : Components) : Relator.RightUnique c.LeadsOn := by
  rintro path next next' ⟨t, ht, h⟩ ⟨t', ht', h'⟩
  rw [ht] at ht'
  cases ht'
  exact h.unique h'

/-- **The item references of a schema go round**: they lead into a circle. -/
def GoesRound (c : Components) (s : Schema) : Prop :=
  ∃ first path, s.EndsAt first ∧ ReflTransGen c.LeadsOn first path
    ∧ TransGen c.LeadsOn path path

/-- **The item references of a schema never come to an end.** -/
def NeverSettles (c : Components) (s : Schema) : Prop :=
  ∃ first, s.EndsAt first ∧ NeverEnds c.LeadsOn first

/-- What leads into a circle goes on for ever. -/
theorem GoesRound.neverSettles (hs : c.GoesRound s) : c.NeverSettles s := by
  obtain ⟨first, path, hfirst, hon, hround⟩ := hs
  exact ⟨first, hfirst, neverEnds_of_circle c.leadsOn_rightUnique hon hround⟩

/-- What an inlining leaves of a schema. -/
def expanded (c : Components) (s : Schema) : Schema := (c.expandItems? s).getD s

/-- A schema is expanded exactly if its nested arrays end at a reference to a container. -/
theorem isSome_expandItems?_iff :
    (c.expandItems? s).isSome = true
      ↔ ∃ path, s.EndsAt path ∧ (c.containerAt? path).isSome = true := by
  unfold expandItems? expandFrom?
  rw [Schema.isSome_expandWith?_iff]
  simp

/-- What an inlining leaves of a schema is what its rules give, changed or not. -/
theorem exists_inlines_expanded (c : Components) (s : Schema) :
    ∃ paths, c.Inlines [] s paths (c.expanded s) (c.expandItems? s).isSome :=
  exists_inlines List.nodup_nil nofun (by simp) s

/-! ## What an inlining leaves at the end

One inlining goes along the references of nested arrays until it stops, at a reference that
it leaves in place. Why it stops there and how it came there are two statements, each by
induction on the rules of the inlining. -/

/-- **What is left at the end leads to no container, or was followed before.** By induction
on the rules: there is one reason to stop for each rule that changes nothing. -/
theorem Inlines.left (h : c.Inlines visited s paths s' changed) (hend : s'.EndsAt path) :
    c.containerAt? path = none ∨ path ∈ visited ∨ path ∈ paths := by
  induction h with
  | noArray h =>
    rw [hend.isArray] at h
    cases h
  | noItems h =>
    cases hend with
    | here _ hi => cases h.symm.trans hi
    | nested _ hi _ => cases h.symm.trans hi
  | nested ha hi _ ih => exact ih ((Schema.endsAt_of_inline hend.isArray rfl).mp hend)
  | seen ha hi h =>
    obtain rfl := (Schema.endsAt_of_ref ha hi).mp hend
    exact .inr (.inl h)
  | kept ha hi _ hr h =>
    obtain rfl := (Schema.endsAt_of_ref ha hi).mp hend
    exact .inl ((containerAt?_eq_none_iff hr).mpr h)
  | placed ha hi _ _ _ _ ih =>
    rcases ih ((Schema.endsAt_of_inline hend.isArray rfl).mp hend) with h | h | h
    · exact .inl h
    · rcases List.mem_cons.mp h with rfl | h
      · exact .inr (.inr List.mem_cons_self)
      · exact .inr (.inl h)
    · exact .inr (.inr (List.mem_cons_of_mem _ h))

/-- **The way leads on to what is left at the end**, through all that is put in place. -/
theorem Inlines.leadsOn (h : c.Inlines visited s paths s' changed) (hend : s'.EndsAt path) :
    (∃ first, s.EndsAt first ∧ ReflTransGen c.LeadsOn first path)
      ∧ ∀ q ∈ paths, TransGen c.LeadsOn q path := by
  induction h with
  | noArray | noItems | seen | kept => exact ⟨⟨path, hend, .refl⟩, nofun⟩
  | nested ha hi _ ih =>
    obtain ⟨⟨first, hfirst, hon⟩, hpaths⟩ := ih ((Schema.endsAt_of_inline hend.isArray rfl).mp hend)
    exact ⟨⟨first, .nested ha hi hfirst, hon⟩, hpaths⟩
  | @placed _ _ s t _ placed _ ha hi _ ht hc _ ih =>
    obtain ⟨⟨first, hfirst, hon⟩, hpaths⟩ := ih ((Schema.endsAt_of_inline hend.isArray rfl).mp hend)
    have hplaced : c.LeadsOn placed first := ⟨t, containerAt?_eq_some_iff.mpr ⟨ht, hc⟩, hfirst⟩
    refine ⟨⟨placed, .here ha hi, .head hplaced hon⟩, fun q hq => ?_⟩
    rcases List.mem_cons.mp hq with rfl | hq
    · exact .head' hplaced hon
    · exact hpaths q hq

/-- **What never ends still does not after an inlining.** The end of the nested arrays has
moved along the chain, and from any place of an endless chain the rest of it is endless. -/
theorem Inlines.neverSettles (h : c.Inlines visited s paths s' changed)
    (hs : c.NeverSettles s) : c.NeverSettles s' := by
  induction h with
  | noArray | noItems | seen | kept => exact hs
  | nested ha hi _ ih =>
    obtain ⟨path, hpath, hnever⟩ := hs
    obtain ⟨path', hpath', hnever'⟩ := ih ⟨path, (Schema.endsAt_of_inline ha hi).mp hpath, hnever⟩
    exact ⟨path', .nested ((Schema.SameFrame.of_items hi).isArray.trans ha) rfl hpath', hnever'⟩
  | @placed _ _ s t t' placed _ ha hi _ ht hc _ ih =>
    obtain ⟨path, hpath, hnever⟩ := hs
    obtain rfl := (Schema.endsAt_of_ref ha hi).mp hpath
    -- The container is put in place, and what it ends at does not come to an end either.
    obtain ⟨next, t₀, ht₀, hnext⟩ := hnever path .refl
    rw [containerAt?_eq_some_iff.mpr ⟨ht, hc⟩] at ht₀
    cases ht₀
    have hon : c.LeadsOn path next := ⟨t, containerAt?_eq_some_iff.mpr ⟨ht, hc⟩, hnext⟩
    obtain ⟨path', hpath', hnever'⟩ := ih ⟨next, hnext, fun q hq => hnever q (.head hon hq)⟩
    exact ⟨path', .nested ((Schema.SameFrame.of_items hi).isArray.trans ha) rfl hpath', hnever'⟩

/-- The same of the inlining as the program makes it. -/
theorem neverSettles_expanded (hs : c.NeverSettles s) : c.NeverSettles (c.expanded s) := by
  obtain ⟨paths, h⟩ := c.exists_inlines_expanded s
  exact h.neverSettles hs

/-- Where the references never come to an end there is always one to expand: the first of
them leads on, hence to a container. -/
theorem NeverSettles.isSome_expandItems? (hs : c.NeverSettles s) :
    (c.expandItems? s).isSome = true := by
  obtain ⟨path, hpath, hnever⟩ := hs
  obtain ⟨next, t, ht, -⟩ := hnever path .refl
  exact isSome_expandItems?_iff.mpr ⟨path, hpath, Option.isSome_iff_exists.mpr ⟨t, ht⟩⟩

/-- **A second inlining finds something to do only on a circle**: the reference that it expands
was expanded by the first, and the way has come back to it. -/
theorem goesRound_of_isSome (h : (c.expandItems? (c.expanded s)).isSome = true) :
    c.GoesRound s := by
  obtain ⟨path, hend, hcontainer⟩ := isSome_expandItems?_iff.mp h
  obtain ⟨paths, hinlines⟩ := c.exists_inlines_expanded s
  obtain ⟨⟨first, hfirst, hon⟩, hpaths⟩ := hinlines.leadsOn hend
  refine ⟨first, path, hfirst, hon, ?_⟩
  rcases hinlines.left hend with hnone | hvisited | hpath
  · rw [hnone] at hcontainer
    cases hcontainer
  · cases hvisited
  · exact hpaths path hpath

/-- **One inlining is enough exactly if the item references do not go round.** If they do, a
further inlining finds something to do however many there have been.

The two parts say that there is nothing between: either the second inlining is idle already,
or no inlining ever is. -/
theorem expandItems?_again_eq_none_iff (c : Components) (s : Schema) :
    (c.expandItems? (c.expanded s) = none ↔ ¬ c.GoesRound s)
      ∧ ((∃ n, c.expandItems? (c.expanded^[n] s) = none) ↔ ¬ c.GoesRound s) := by
  have hnever : ∀ n, c.NeverSettles s → c.NeverSettles (c.expanded^[n] s) := by
    intro n hs
    induction n with
    | zero => exact hs
    | succ n ih =>
      rw [Function.iterate_succ_apply']
      exact neverSettles_expanded ih
  have hnot : ∀ n, c.expandItems? (c.expanded^[n] s) = none → ¬ c.GoesRound s := by
    intro n hnone hs
    have hsome := (hnever n hs.neverSettles).isSome_expandItems?
    rw [hnone] at hsome
    cases hsome
  have hsettles : ¬ c.GoesRound s → c.expandItems? (c.expanded s) = none := by
    intro hs
    rw [← Option.not_isSome_iff_eq_none]
    exact fun h => hs (goesRound_of_isSome h)
  exact ⟨⟨hnot 1, hsettles⟩, fun ⟨n, h⟩ => hnot n h, fun hs => ⟨1, hsettles hs⟩⟩

open Preparation (rows rowComponents)

/-- An array of arrays. -/
def arrayOf (s : Schema) : Schema := { Schema.ofType "array" with items := some (.inline s) }

/-- **An array of itself is expanded again** when it has been expanded. -/
theorem expandItems?_not_idempotent_of_rows :
    rowComponents.expandItems? rows = some (arrayOf rows)
      ∧ rowComponents.expandItems? (arrayOf rows) = some (arrayOf (arrayOf rows))
      ∧ arrayOf (arrayOf rows) ≠ arrayOf rows := by
  refine ⟨rfl, rfl, fun h => ?_⟩
  cases congrArg (fun s => s.items.bind RefOr.inline? |>.bind Schema.items) h

end Components

end ClientGen
