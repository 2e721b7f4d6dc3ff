import ClientGen.Kotlin.Profile
import ClientGen.Proofs.Conversion

/-!
# What a profile consists of

A variant turns a run into a profile, or gives up over the library, the case of constants or
the form of dates. If it does not give up, the profile is determined by the library and the
case that it has settled on (`Kotlin.Variant.profile_eq_ok_iff`).

Hence there are two ways to speak of a profile. With the whole of it given by
`Kotlin.Variant.profileOf`, profiles of two runs can be compared; with
`Kotlin.Variant.profile_eq_ok` a statement about the files of a run takes the fields that it
needs.
-/

namespace ClientGen.Kotlin.Variant

variable {v : Variant} {run : ResolvedRun} {p : Profile}

/-- A layout is that of a library. -/
theorem select_eq_ok {requested : Option String} {layout : Layout}
    (h : v.select requested = .ok layout) :
    ∃ library, v.choose requested = .ok library ∧ layout = v.layoutFor library := by
  unfold select at h
  cases hchosen : v.choose requested with
  | error e =>
    rw [hchosen] at h
    cases h
  | ok library =>
    rw [hchosen] at h
    exact ⟨library, rfl, (Except.ok.inj h).symm⟩

/-- The profile of a library and a case of constants. -/
def profileOf (v : Variant) (given : Settings) (library : Option Library)
    (constants : Naming.ConstantCase) : Profile :=
  let sourceFolder := (given.text? Key.sourceFolder).getD defaultSourceFolder
  let layout := (v.layoutFor library).withSettings given
  { variant := v.name
    layout
    policy := v.policyFor library
    options := v.options given constants
    infrastructure := (v.declaredFlag? given Key.infrastructure).getD v.infrastructure
    sourceFolder
    settings := v.settingsFor given layout sourceFolder }

/-- **When a run has a profile, and which one.** The three checks can fail and give nothing
but the library and the case, so the rest is a function of these. -/
theorem profile_eq_ok_iff :
    v.profile run = .ok p ↔ ∃ library constants,
      v.choose (run.library.orElse (fun _ => run.settings.text? Key.library)) = .ok library
      ∧ v.constants run.settings = .ok constants
      ∧ v.checkRequestDate run.settings = .ok ()
      ∧ p = v.profileOf run.settings library constants := by
  constructor
  · intro h
    obtain ⟨layout, hlayout, h⟩ := except_bind_eq_ok.mp h
    obtain ⟨constants, hconstants, h⟩ := except_bind_eq_ok.mp h
    obtain ⟨_, hcheck, h⟩ := except_bind_eq_ok.mp h
    cases h
    obtain ⟨library, hchosen, rfl⟩ := select_eq_ok hlayout
    exact ⟨library, constants, hchosen, hconstants, hcheck, rfl⟩
  · rintro ⟨library, constants, hchosen, hconstants, hcheck, rfl⟩
    have hselected : v.select (run.library.orElse (fun _ => run.settings.text? Key.library))
        = .ok (v.layoutFor library) := by
      rw [select, hchosen]
      rfl
    refine except_bind_eq_ok.mpr ⟨_, hselected, ?_⟩
    refine except_bind_eq_ok.mpr ⟨constants, hconstants, ?_⟩
    exact except_bind_eq_ok.mpr ⟨(), hcheck, rfl⟩

/-- **A profile is that of a library and a case of constants.** -/
theorem profile_eq_ok (h : v.profile run = .ok p) :
    ∃ library constants,
      v.choose (run.library.orElse (fun _ => run.settings.text? Key.library)) = .ok library
      ∧ v.constants run.settings = .ok constants
      ∧ p.variant = v.name
      ∧ p.layout = (v.layoutFor library).withSettings run.settings
      ∧ p.policy = v.policyFor library
      ∧ p.options = v.options run.settings constants
      ∧ p.infrastructure
        = (v.declaredFlag? run.settings Key.infrastructure).getD v.infrastructure
      ∧ p.sourceFolder = (run.settings.text? Key.sourceFolder).getD defaultSourceFolder := by
  obtain ⟨library, constants, hchosen, hconstants, -, rfl⟩ := profile_eq_ok_iff.mp h
  exact ⟨library, constants, hchosen, hconstants, rfl, rfl, rfl, rfl, rfl, rfl⟩

/-- **Which library it is matters to the policy** only for the order of arguments and the type of
binary data. -/
theorem policyFor_marksAliases (v : Variant) (library : Option Library) :
    (v.policyFor library).marksAliases = v.policy.marksAliases := by
  unfold policyFor
  split_ifs <;> rfl

end ClientGen.Kotlin.Variant
