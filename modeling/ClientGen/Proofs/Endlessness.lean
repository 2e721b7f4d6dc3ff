import ClientGen.Proofs.Idempotence

/-!
# Where the preparation has no end

One expansion follows each reference at most once, so it ends whatever the references
look like. The descent then goes on into the container that the expansion has put in
place, and expands again there, having forgotten what was followed above. Where a
container leads back to itself, each of these expansions finds the same reference
again, one level further down. So the guard against circles is good for one node and not
for the descent.

`Preparation.prepareWithin?_ends` says when there is an end. A schema has no preparation at
any depth if the descent runs on below it (`Preparation.RunsOn`), and otherwise one result,
the same at every depth from the one that the preparation starts with. Where compositions
are left alone, the descent runs on exactly below the schemas that lead into a circle of
containers (`Components.Endless`). Where they are loosened, it runs on below some of these
only: the untyped object takes the place of a composition that would have closed the circle,
unless the composition is an array of itself and is met as such.

The smallest schema without an end is an array of itself
(`Preparation.not_exists_prepareWithin?_rows`).
-/

namespace ClientGen

open Schema

namespace Preparation

variable {p : Preparation} {c : Components} {s s' : Schema}

/-- **When the preparation ends**, where it expands item references.

A schema that is not endless has one result, at every depth from the one that the
preparation starts with. An endless schema has none at any depth, unless compositions are
loosened. Where they are, an endless schema has none exactly if the descent runs on below
it, and otherwise one, as before. -/
theorem prepareWithin?_ends (hp : p.expandsItems = true) :
    (¬ c.Endless s →
        ∃ s', ∀ depth, depthFor c s ≤ depth → p.prepareWithin? c depth s = some s')
      ∧ (p.loosensComposedItems = false → c.Endless s →
        ∀ depth, p.prepareWithin? c depth s = none)
      ∧ (¬ p.RunsOn c ⟨s, false⟩ →
        ∃ s', ∀ depth, depthFor c s ≤ depth → p.prepareWithin? c depth s = some s')
      ∧ (p.RunsOn c ⟨s, false⟩ → ∀ depth, p.prepareWithin? c depth s = none) := by
  have hends : ¬ p.RunsOn c ⟨s, false⟩ →
      ∃ s', ∀ depth, depthFor c s ≤ depth → p.prepareWithin? c depth s = some s' := by
    intro hrun
    obtain ⟨s', h⟩ := exists_prepareWithin?_of_not_runsOn hp hrun (Nat.le_refl _)
    exact ⟨s', fun depth hdepth => nodesWithin?_mono hdepth h⟩
  have hnone : p.RunsOn c ⟨s, false⟩ → ∀ depth, p.prepareWithin? c depth s = none :=
    fun hrun depth =>
      nodesWithin?_eq_none hp ((p.runsOn_root_iff s).mpr hrun) (.self c (p.root s)) depth
  exact ⟨fun hs => hends (fun hrun => hs hrun.endless),
    fun hl hs => hnone (runsOn_of_endless hl hs), hends, hnone⟩

/-- A map in the place of a reference leads nowhere, so there is an end. -/
theorem prepareWithin?_ends_of_plainLabels :
    ¬ (labelComponents plainLabels).Endless labelSets
      ∧ ∃ s', ∀ depth, depthFor (labelComponents plainLabels) labelSets ≤ depth →
        prepareWithin? ⟨false, true, true⟩ (labelComponents plainLabels) depth labelSets
          = some s' := by
  have hends : ¬ (labelComponents plainLabels).Endless labelSets :=
    (itemsAcyclic_labelComponents (by decide) rfl rfl).not_endless labelSets
  exact ⟨hends, (prepareWithin?_ends (p := ⟨false, true, true⟩) rfl).1 hends⟩

/-- An array of rings. -/
def links : Schema :=
  { Schema.ofType "array" with items := some (.ref "#/components/schemas/Rings") }

/-- Rings are arrays of links, and a composition as well. -/
def ringComponents : Components where
  schemas := .ofEntries [("Links", .inline links),
    ("Rings", .inline { Schema.ofType "array" with
      items := some (.ref "#/components/schemas/Links"), allOf := [.inline {}] })]

-- The first ring below the links has only just been put in place; the next one gives way.
example : (prepare? ⟨false, true, true⟩ ringComponents links).isSome = true
    ∧ (prepare? ⟨false, false, true⟩ ringComponents links).isSome = false := by
  decide +kernel

/-- An array of itself. -/
def rows : Schema := { Schema.ofType "array" with items := some (.ref "#/components/schemas/Rows") }

/-- Components with the array of itself. -/
def rowComponents : Components where
  schemas := .ofEntries [("Rows", .inline rows)]

/-- An array of itself leads to itself. -/
theorem leadsTo_rows : rowComponents.LeadsTo rows rows := by
  have hmem : ("Rows", .inline rows) ∈ rowComponents.schemas.entries := List.mem_singleton.mpr rfl
  have hpath : "#/components/schemas/Rows" = Reference.toSchema "Rows" := by decide
  have hcontainer : rowComponents.containerAt? "#/components/schemas/Rows" = some rows := by
    rw [Components.containerAt?, hpath, Components.schemaAt_toSchema hmem]
    exact if_pos rfl
  exact ⟨rows, _, .refl, by decide, rfl, hcontainer⟩

/-- **An array of itself is prepared at no depth.** It leads to itself, so it is endless. -/
theorem not_exists_prepareWithin?_rows :
    ¬ ∃ depth s', prepareWithin? ⟨false, false, true⟩ rowComponents depth rows = some s' := by
  rintro ⟨depth, s', h⟩
  have hend : rowComponents.Endless rows := ⟨rows, .single leadsTo_rows, .single leadsTo_rows⟩
  have hrun : RunsOn ⟨false, false, true⟩ rowComponents ⟨rows, false⟩ := runsOn_of_endless rfl hend
  have hnone : prepareWithin? ⟨false, false, true⟩ rowComponents depth rows = none :=
    nodesWithin?_eq_none rfl ((runsOn_root_iff _ rows).mpr hrun) (.self _ _) depth
  rw [hnone] at h
  cases h

end Preparation

end ClientGen
