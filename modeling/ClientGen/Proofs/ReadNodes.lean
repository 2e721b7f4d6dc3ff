import ClientGen.Json.Reader
import ClientGen.Proofs.Nodes

/-!
# What the JSON reader gives

Every node that a JSON text is read into fits the nesting limit (`Json.fits_of_read?`): what
is nested deeper is unreadable, whole numbers are kept to 64 bits, and no number becomes an
infinity.

The last is a matter of magnitudes. A significand has 64 bits, and the reader checks the
result only where it multiplies. Dividing by a power of ten cannot leave the range:
`Binary64.IsModest` bounds the exponent of a value, and one division raises that bound by at
most three, for the quotient is rounded to 53 bits.

Neither half says anything about which number is read. That is left open on purpose: the
round trip of a document needs to know that a number which was read can be written, and an
integer returns by its digits alone.
-/

namespace ClientGen

/-! ## Magnitudes

How large a rounded quotient can be. The bounds are generous, as nothing depends on the last
bit: it is enough that from a significand of 64 bits, three divisions do not come near the
greatest exponent, which is 971. -/

namespace Decimal.Binary64

/-- **A finite value whose exponent is bounded.** The mantissa may have one bit more than a
rounded value has, so that rounding up needs no case of its own. -/
def IsModest (bound : Nat) (x : Binary64) : Prop :=
  ∃ negative mantissa exponent, x = .finite negative mantissa exponent
    ∧ mantissa ≤ 2 ^ 54 ∧ exponent ≤ (bound : Int)

/-- Neither an infinity nor a value that is no number is modest. -/
theorem IsModest.isFinite {bound : Nat} {x : Binary64} (h : x.IsModest bound) :
    x.isFinite = true := by
  obtain ⟨s, m, e, rfl, -⟩ := h
  rfl

/-- Rounding to the nearest does not go beyond a whole bound. It may reach the bound, which
is why the mantissa of a modest value may be `2 ^ 54`. -/
theorem nearest_le {num den bound : Nat} (h : num < den * bound) : nearest num den ≤ bound := by
  have hq : num / den < bound := Nat.div_lt_of_lt_mul h
  unfold nearest
  dsimp only
  split_ifs <;> omega

/-- **A quotient that is scaled to 53 bits keeps below 54 bits.** The exponent `e` is at
least the difference of the magnitudes less 53; whether it is negative decides which side is
shifted. -/
theorem scaled_lt {num den : Nat} (hden : den ≠ 0) {e : Int}
    (he : (num.log2 : Int) - den.log2 - 53 ≤ e) :
    (scaled num den e).1 < (scaled num den e).2 * 2 ^ 54 := by
  have hnum : num < 2 ^ (num.log2 + 1) := Nat.lt_log2_self
  have hlog : 2 ^ den.log2 ≤ den := Nat.log2_self_le hden
  unfold scaled
  split_ifs with hneg
  · dsimp only
    rw [Nat.shiftLeft_eq]
    calc num * 2 ^ e.natAbs
        < 2 ^ (num.log2 + 1) * 2 ^ e.natAbs := Nat.mul_lt_mul_of_pos_right hnum (Nat.two_pow_pos _)
      _ = 2 ^ (num.log2 + 1 + e.natAbs) := (Nat.pow_add _ _ _).symm
      _ ≤ 2 ^ (den.log2 + 54) := Nat.pow_le_pow_right (by decide) (by omega)
      _ = 2 ^ den.log2 * 2 ^ 54 := Nat.pow_add _ _ _
      _ ≤ den * 2 ^ 54 := Nat.mul_le_mul_right _ hlog
  · dsimp only
    rw [Nat.shiftLeft_eq]
    calc num
        < 2 ^ (num.log2 + 1) := hnum
      _ ≤ 2 ^ (den.log2 + e.natAbs + 54) := Nat.pow_le_pow_right (by decide) (by omega)
      _ = 2 ^ den.log2 * 2 ^ e.natAbs * 2 ^ 54 := by rw [Nat.pow_add, Nat.pow_add]
      _ ≤ den * 2 ^ e.natAbs * 2 ^ 54 := Nat.mul_le_mul_right _ (Nat.mul_le_mul_right _ hlog)

/-- **A quotient of bounded magnitude is rounded to a bounded value.**

The rounding takes a first exponent from the magnitudes, corrects it by one at most, and
raises it once more if the mantissa rounds up to a power of two. None of these steps leaves
the bound, and so the branch that gives an infinity is not taken. -/
theorem ofRatio_isModest (negative : Bool) {num den bound : Nat} (hden : den ≠ 0)
    (h : num.log2 ≤ den.log2 + 51 + bound) (hbound : bound ≤ 971) :
    (ofRatio negative num den).IsModest bound := by
  unfold ofRatio
  split_ifs with hnum
  · exact ⟨negative, 0, leastExponent, rfl, Nat.zero_le _, by simp [leastExponent]⟩
  generalize hfirst : max ((num.log2 : Int) - den.log2 - 53) leastExponent = first
  dsimp only
  generalize he : (if (scaled num den first).1 / (scaled num den first).2 < Nat.pow 2 53 then first
    else first + 1) = e
  have hlow : first ≤ e ∧ e ≤ first + 1 := by
    rw [← he]
    split_ifs <;> omega
  have hupper : first + 2 ≤ bound := by
    simp only [leastExponent] at hfirst
    omega
  have hm : nearest (scaled num den e).1 (scaled num den e).2 ≤ 2 ^ 54 :=
    nearest_le (scaled_lt hden (by omega))
  have hgreatest : greatestExponent = 971 := rfl
  split_ifs with hround hinfinite hinfinite
  · exact absurd hinfinite (by dsimp only; omega)
  · exact ⟨negative, _, _, rfl, Nat.pow_le_pow_right (by decide) (by decide), by dsimp only; omega⟩
  · exact absurd hinfinite (by dsimp only; omega)
  · exact ⟨negative, _, _, rfl, hm, by dsimp only; omega⟩

/-- A natural number of 64 bits is bounded: it exceeds the 53 bits of a mantissa by 11, and
one more for rounding. -/
theorem ofNat_isModest (negative : Bool) {n : Nat} (h : n < 2 ^ 64) :
    (ofNat negative n).IsModest 12 := by
  refine ofRatio_isModest negative one_ne_zero ?_ (by decide)
  have hlog : n.log2 < 64 := by
    rcases eq_or_ne n 0 with rfl | hn
    · decide
    · exact (Nat.log2_lt hn).mpr h
  omega

/-- Whether the magnitude of a value is one at least. -/
def reachesOne : Binary64 → Bool
  | .finite _ mantissa exponent => (ratio mantissa exponent).2 ≤ (ratio mantissa exponent).1
  | _ => false

/-- The denominator of a value as a fraction is a power of two, hence not zero. -/
theorem ratio_snd_pos (mantissa : Nat) (exponent : Int) : 0 < (ratio mantissa exponent).2 := by
  unfold ratio
  split_ifs
  · dsimp only
    rw [Nat.shiftLeft_eq, Nat.one_mul]
    exact Nat.two_pow_pos _
  · exact Nat.one_pos

/-- A modest value as a fraction, bounded by its mantissa and its exponent together. -/
theorem ratio_fst_le {mantissa bound : Nat} {exponent : Int} (hm : mantissa ≤ 2 ^ 54)
    (he : exponent ≤ (bound : Int)) :
    (ratio mantissa exponent).1 ≤ (ratio mantissa exponent).2 * 2 ^ (54 + bound) := by
  have hpow : 2 ^ 54 ≤ 2 ^ (54 + bound) := Nat.pow_le_pow_right (by decide) (by omega)
  unfold ratio
  split_ifs with hneg
  · dsimp only
    rw [Nat.shiftLeft_eq, Nat.one_mul]
    calc mantissa
        ≤ 2 ^ (54 + bound) := hm.trans hpow
      _ ≤ 2 ^ exponent.natAbs * 2 ^ (54 + bound) := Nat.le_mul_of_pos_left _ (Nat.two_pow_pos _)
  · dsimp only
    rw [Nat.shiftLeft_eq, Nat.one_mul]
    calc mantissa * 2 ^ exponent.natAbs
        ≤ 2 ^ 54 * 2 ^ bound := Nat.mul_le_mul hm (Nat.pow_le_pow_right (by decide) (by omega))
      _ = 2 ^ (54 + bound) := (Nat.pow_add _ _ _).symm

/-- The logarithm of what is at most so many times as great. -/
theorem log2_le_of_le_mul {a b k : Nat} (h : a ≤ b * 2 ^ k) : a.log2 ≤ b.log2 + k := by
  rcases eq_or_ne a 0 with rfl | ha
  · rw [Nat.log2_zero]
    exact Nat.zero_le _
  · refine Nat.le_of_lt_succ ((Nat.log2_lt ha).mpr (h.trans_lt ?_))
    calc b * 2 ^ k
        < 2 ^ (b.log2 + 1) * 2 ^ k :=
          Nat.mul_lt_mul_of_pos_right Nat.lt_log2_self (Nat.two_pow_pos _)
      _ = 2 ^ (b.log2 + k + 1) := by rw [← Nat.pow_add]; congr 1; omega

/-- **Dividing by one or more** raises the bound by what rounding may add. The quotient is
no greater than the dividend, but it is formed from numerators and denominators that are
larger than either. -/
theorem IsModest.divide {bound : Nat} {x y : Binary64} (hx : x.IsModest bound)
    (hy : y.reachesOne = true) (hbound : bound + 3 ≤ 971) : (x.divide y).IsModest (bound + 3) := by
  obtain ⟨s, m, e, rfl, hm, he⟩ := hx
  cases y with
  | finite t n f =>
    have hd : (ratio n f).2 ≤ (ratio n f).1 := of_decide_eq_true hy
    have hb := ratio_snd_pos m e
    have hc := (ratio_snd_pos n f).trans_le hd
    have hquotient : (ratio m e).1 * (ratio n f).2
        ≤ (ratio m e).2 * (ratio n f).1 * 2 ^ (54 + bound) := by
      rw [Nat.mul_right_comm]
      exact Nat.mul_le_mul (ratio_fst_le hm he) hd
    have hlog := log2_le_of_le_mul hquotient
    show (ofRatio (s != t) ((ratio m e).1 * (ratio n f).2)
      ((ratio m e).2 * (ratio n f).1)).IsModest _
    exact ofRatio_isModest _ (Nat.mul_pos hb hc).ne' (by omega) hbound
  | infinite => cases hy
  | nan => cases hy

end Decimal.Binary64

/-! ## Numbers

A number is a sign, digits, perhaps a fraction and perhaps an exponent. Without the last two
it stays a whole number as long as it fits 64 bits; in every other case it becomes a
floating-point value, by scaling what is kept of its digits. -/

namespace Json

open Decimal (Binary64)

/-- Every power of ten that the reader divides by reaches one. There are finitely many, and
they are computed. -/
theorem reachesOne_powerOfTen : ∀ n ≤ greatestPower, (powerOfTen n).reachesOne = true := by
  decide +kernel

/-- **Scaling by a power of ten stays finite.** A positive exponent is checked by the reader
itself, so the induction on the steps is about negative ones: each takes off as many powers
as one division can, and uses up three of the exponents that are left. -/
theorem isFinite_of_scaled? {steps bound : Nat} {x y : Binary64} {exponent : Int}
    (hx : x.IsModest bound) (hbound : bound + 3 * steps ≤ 971)
    (h : scaled? x exponent steps = some y) : y.isFinite = true := by
  induction steps generalizing bound x exponent with
  | zero =>
    cases h
    exact hx.isFinite
  | succ steps ih =>
    simp only [scaled?] at h
    split_ifs at h with hnear hneg hfinite hzero
    · cases h
      exact (hx.divide (reachesOne_powerOfTen _ hnear) (by omega)).isFinite
    · cases h
      exact hfinite
    · cases h
      exact hx.isFinite
    · exact ih (hx.divide (reachesOne_powerOfTen _ (Nat.le_refl _)) (by omega)) (by omega) h

/-- **A number that is scaled is finite or unreadable.** Three steps of scaling are all that
the reader takes, and the bound that they need is the one that a significand of 64 bits has
to spare. -/
theorem isStandard_floatScalar (negative : Bool) {n : Nat} (h : n < 2 ^ 64) (exponent : Int) :
    (floatScalar negative n exponent).IsStandard := by
  unfold floatScalar
  split
  · next x hx =>
    have hfinite := isFinite_of_scaled? (Binary64.ofNat_isModest false h) (by decide) hx
    show Binary64.isFinite _ = true
    cases negative
    · exact hfinite
    · cases x
      · rfl
      · exact hfinite
      · exact hfinite
  · trivial

/-- A whole number that fits 64 bits with its sign is kept, and otherwise becomes a
floating-point value of the same magnitude, which is finite. -/
theorem isStandard_wholeScalar (negative : Bool) {n : Nat} (h : n < 2 ^ 64) :
    (wholeScalar negative n).IsStandard := by
  unfold wholeScalar
  split_ifs with hpos hfloat
  · exact h
  · exact (Binary64.ofNat_isModest true h).isFinite
  · simp only [Bool.or_eq_true, decide_eq_true_eq, not_or, Nat.pow_eq] at hfloat
    exact ⟨by omega, by omega⟩

/-- The digits that are kept fit 64 bits: a digit that would not is left out, and so are all
behind it. -/
theorem foldl_push_value_lt (cs : List Char) {s : Significand} (h : s.value < 2 ^ 64) :
    (cs.foldl Significand.push s).value < 2 ^ 64 := by
  induction cs generalizing s with
  | nil => exact h
  | cons c cs ih =>
    refine ih ?_
    unfold Significand.push
    dsimp only
    split_ifs with hfull
    · exact h
    · simp only [Bool.or_eq_true, decide_eq_true_eq, not_or, ge_iff_le, not_le] at hfull
      exact hfull.2

/-- What is read behind the sign is kept to the standard, with a fraction or an exponent or
without. -/
theorem isStandard_of_readMagnitude? {negative : Bool} {cs r : List Char} {v : Scalar}
    (h : readMagnitude? negative cs = some (v, r)) : v.IsStandard := by
  simp only [readMagnitude?] at h
  split_ifs at h
  have hvalue := foldl_push_value_lt (cs.takeWhile Char.isDigit) (s := {}) (by decide)
  generalize (cs.takeWhile Char.isDigit).foldl Significand.push {} = s at h hvalue
  -- What follows the digits is read in one way with a point and without; only the fraction
  -- differs, and it is empty without one.
  have hfinish : ∀ fraction rest : List Char,
      (readExponent? rest >>= fun e =>
        if (fraction.isEmpty && e.1.isNone && !s.full) = true then
          pure (wholeScalar negative s.value, e.2)
        else
          pure (floatScalar negative
            (fraction.foldl Significand.push { value := s.value }).value
            ((s.leftOut : Int)
              - ↑(fraction.length
                - (fraction.foldl Significand.push { value := s.value }).leftOut)
              + e.1.getD 0), e.2)) = some (v, r) → v.IsStandard := by
    intro fraction rest h
    obtain ⟨e, -, h⟩ := Option.bind_eq_some_iff.mp h
    split_ifs at h
    · cases h
      exact isStandard_wholeScalar negative hvalue
    · cases h
      exact isStandard_floatScalar negative
        (foldl_push_value_lt fraction (s := { value := s.value }) hvalue) _
  split at h
  · split_ifs at h
    · cases h
    · exact hfinish _ _ h
  · exact hfinish _ _ h

/-- **Every number that is read is kept to the standard.** -/
theorem isStandard_of_readNumber? {cs r : List Char} {v : Scalar}
    (h : readNumber? cs = some (v, r)) : v.IsStandard := by
  unfold readNumber? at h
  split at h <;> exact isStandard_of_readMagnitude? h

/-! ## Values

The limit is counted downwards: inside `depth` lists and objects a node has `depthLimit -
depth` levels left. A node beyond the limit is replaced by an unreadable one, which fits
anywhere, so the reader needs no condition on the text. -/

/-- The node of a text is a scalar, readable or not. -/
theorem fits_textNode (s : Option String) (n : Nat) : (textNode s).Fits n := by
  cases s <;> exact Tree.fits_scalar.mpr trivial

/-- A list whose items fit one level deeper fits here, and beyond the limit it is replaced
by an unreadable node. In this case the levels left for the items are none, so nothing is
claimed of them that could fail. -/
theorem fits_atDepth_list {items : List Tree} {depth : Nat}
    (h : ∀ t ∈ items, t.Fits (depthLimit - (depth + 1))) :
    (atDepth (depth + 1) (.list items)).Fits (depthLimit - depth) := by
  unfold atDepth
  split_ifs with hdepth
  · exact Tree.fits_scalar.mpr trivial
  · exact Tree.fits_list.mpr ⟨_, by omega, h⟩

/-- The same for an object; its keys are texts and take no level. -/
theorem fits_atDepth_record {entries : List (Tree × Tree)} {depth : Nat}
    (h : ∀ e ∈ entries, e.2.Fits (depthLimit - (depth + 1))) :
    (atDepth (depth + 1) (.record entries)).Fits (depthLimit - depth) := by
  unfold atDepth
  split_ifs with hdepth
  · exact Tree.fits_scalar.mpr trivial
  · exact Tree.fits_record.mpr ⟨_, by omega, h⟩

/-- **What is read inside `depth` lists and objects fits the levels that are left.**

The three readers call each other, so the statement is about all of them, by induction on
the fuel that bounds their recursion. What fuel runs out on is not read, and there is
nothing to show. -/
theorem fits_of_readValue? (fuel : Nat) :
    (∀ {depth cs t r}, readValue? fuel depth cs = some (t, r) → t.Fits (depthLimit - depth))
      ∧ (∀ {depth cs items r}, readItems? fuel depth cs = some (items, r) →
          ∀ t ∈ items, t.Fits (depthLimit - depth))
      ∧ (∀ {depth cs entries r}, readEntries? fuel depth cs = some (entries, r) →
          ∀ e ∈ entries, e.2.Fits (depthLimit - depth)) := by
  induction fuel with
  | zero => exact ⟨nofun, nofun, nofun⟩
  | succ fuel ih =>
    obtain ⟨hvalue, hitems, hentries⟩ := ih
    refine ⟨?_, ?_, ?_⟩
    · intro depth cs t r h
      simp only [readValue?] at h
      split at h
      · cases h
      · -- A text.
        obtain ⟨s, -, h⟩ := Option.bind_eq_some_iff.mp h
        cases h
        exact fits_textNode _ _
      · -- A list.
        split at h
        · cases h
          exact fits_atDepth_list nofun
        · obtain ⟨items, hread, h⟩ := Option.bind_eq_some_iff.mp h
          cases h
          exact fits_atDepth_list (hitems hread)
      · -- An object.
        split at h
        · cases h
          exact fits_atDepth_record nofun
        · obtain ⟨entries, hread, h⟩ := Option.bind_eq_some_iff.mp h
          cases h
          exact fits_atDepth_record (hentries hread)
      · obtain ⟨r, -, h⟩ := Option.bind_eq_some_iff.mp h
        cases h
        exact Tree.fits_scalar.mpr trivial
      · obtain ⟨r, -, h⟩ := Option.bind_eq_some_iff.mp h
        cases h
        exact Tree.fits_scalar.mpr trivial
      · obtain ⟨r, -, h⟩ := Option.bind_eq_some_iff.mp h
        cases h
        exact Tree.fits_scalar.mpr trivial
      · -- A number.
        obtain ⟨n, hread, h⟩ := Option.bind_eq_some_iff.mp h
        cases h
        exact Tree.fits_scalar.mpr (isStandard_of_readNumber? hread)
    · intro depth cs items r h
      simp only [readItems?] at h
      obtain ⟨item, hread, h⟩ := Option.bind_eq_some_iff.mp h
      split at h
      · obtain ⟨rest, hrest, h⟩ := Option.bind_eq_some_iff.mp h
        cases h
        exact List.forall_mem_cons.mpr ⟨hvalue hread, hitems hrest⟩
      · cases h
        exact List.forall_mem_singleton.mpr (hvalue hread)
      · cases h
    · intro depth cs entries r h
      simp only [readEntries?] at h
      split at h
      · obtain ⟨key, -, h⟩ := Option.bind_eq_some_iff.mp h
        split at h
        · obtain ⟨value, hread, h⟩ := Option.bind_eq_some_iff.mp h
          split at h
          · obtain ⟨rest, hrest, h⟩ := Option.bind_eq_some_iff.mp h
            cases h
            exact List.forall_mem_cons.mpr ⟨hvalue hread, hentries hrest⟩
          · cases h
            exact List.forall_mem_singleton.mpr (hvalue hread)
          · cases h
        · cases h
      · cases h

/-- **Every node that a text is read into fits the nesting limit.** The text is read as a
value inside no list and no object. -/
theorem fits_of_read? {text : String} {t : Tree} (h : read? text = some t) :
    t.Fits depthLimit := by
  unfold read? at h
  obtain ⟨⟨t', rest⟩, hread, h⟩ := Option.bind_eq_some_iff.mp h
  dsimp only at h
  split_ifs at h
  cases h
  exact (fits_of_readValue? _).1 hread

end Json

end ClientGen
