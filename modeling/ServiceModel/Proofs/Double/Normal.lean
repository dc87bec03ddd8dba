/-
The normal form of double precision numbers, and what it is good for: numbers in normal form are
the same value only if they are the same data or both zero. Whatever is rounded is in normal form,
and so is every number that a text is read as.
-/
import ServiceModel.Double.Read
import Mathlib.Algebra.Order.Field.Power
import Mathlib.Data.Rat.Cast.Order
import Mathlib.Tactic.FieldSimp
import Mathlib.Tactic.Linarith
import Mathlib.Tactic.NormNum
import Mathlib.Tactic.Positivity
import Mathlib.Tactic.Ring

namespace ServiceModel.Double

/-! ## Values -/

/-- The number `±mantissa · 2^exponent`. -/
def valueOf (negative : Bool) (mantissa : Nat) (exponent : Int) : ℚ :=
  (if negative then -1 else 1) * (mantissa * 2 ^ exponent)

/-- Equality of numbers by their values. What is no number is not even equal to itself. -/
def Equal : Double → Double → Prop
  | .finite s m e, .finite t n f => valueOf s m e = valueOf t n f
  | .infinite s, .infinite t => s = t
  | _, _ => False

/-- Is it no number? -/
def IsNan : Double → Prop
  | .nan _ => True
  | _ => False

theorem not_isNan_of_equal {x y : Double} (h : x.Equal y) : ¬ x.IsNan := by
  cases x with
  | nan mark => cases y <;> cases h
  | _ => exact id

/-- The normal form: the mantissa has 53 bits, or fewer under the least exponent. -/
def IsNormal : Double → Prop
  | .finite _ m e =>
    m < 2 * leastMantissa ∧ (-1074 ≤ e ∧ e ≤ 971) ∧ (leastMantissa ≤ m ∨ e = -1074)
  | _ => True

theorem magnitude_nonneg (m : Nat) (e : Int) : (0 : ℚ) ≤ m * 2 ^ e := by positivity

theorem magnitude_eq_zero {m : Nat} {e : Int} : (m * 2 ^ e : ℚ) = 0 ↔ m = 0 := by
  have power : (2 ^ e : ℚ) ≠ 0 := by positivity
  rw [mul_eq_zero, or_iff_left power, Nat.cast_eq_zero]

/-- Numbers with one magnitude and different exponents: the larger exponent has the smaller
mantissa, by a factor of two at least. -/
theorem double_le_of_magnitude_eq {m n : Nat} {e f : Int} (h : (m * 2 ^ e : ℚ) = n * 2 ^ f)
    (he : e < f) : 2 * n ≤ m := by
  have power : (0 : ℚ) < 2 ^ e := by positivity
  have least : (2 : ℚ) ^ (1 : Int) ≤ 2 ^ (f - e) := zpow_le_zpow_right₀ (by norm_num) (by omega)
  have scaled : (m : ℚ) = n * 2 ^ (f - e) := by
    rw [zpow_sub₀ (by norm_num), ← mul_div_assoc, ← h, mul_div_assoc, div_self power.ne', mul_one]
  have bound : (2 * n : ℚ) ≤ m := by
    rw [scaled, mul_comm]
    exact mul_le_mul_of_nonneg_left (by simpa using least) (Nat.cast_nonneg n)
  exact_mod_cast bound

theorem magnitude_inj {s t : Bool} {m n : Nat} {e f : Int} (hx : (finite s m e).IsNormal)
    (hy : (finite t n f).IsNormal) (h : (m * 2 ^ e : ℚ) = n * 2 ^ f) : m = n ∧ e = f := by
  obtain ⟨m_lt, ⟨e_ge, -⟩, m_ge⟩ := hx
  obtain ⟨n_lt, ⟨f_ge, -⟩, n_ge⟩ := hy
  rcases lt_trichotomy e f with less | rfl | less
  · -- the larger exponent is not the least one, so that its mantissa is large
    have := double_le_of_magnitude_eq h less
    omega
  · have power : (2 ^ e : ℚ) ≠ 0 := by positivity
    exact ⟨by exact_mod_cast mul_right_cancel₀ power h, rfl⟩
  · have := double_le_of_magnitude_eq h.symm less
    omega

theorem valueOf_inj {s t : Bool} {m n : Nat} {e f : Int} (hx : (finite s m e).IsNormal)
    (hy : (finite t n f).IsNormal) :
    valueOf s m e = valueOf t n f ↔ m = 0 ∧ n = 0 ∨ s = t ∧ m = n ∧ e = f := by
  constructor
  · intro h
    unfold valueOf at h
    by_cases hs : s = t
    · subst hs
      have same : (m * 2 ^ e : ℚ) = n * 2 ^ f := by
        cases s <;> simpa using h
      exact .inr ⟨rfl, magnitude_inj hx hy same⟩
    · -- only zero has both signs
      have left := magnitude_nonneg m e
      have right := magnitude_nonneg n f
      have opposite : (m * 2 ^ e : ℚ) = -(n * 2 ^ f) := by
        cases s <;> cases t <;> simp at hs h ⊢ <;> linarith
      have left_zero : (m * 2 ^ e : ℚ) = 0 := by linarith
      have right_zero : (n * 2 ^ f : ℚ) = 0 := by linarith
      exact .inl ⟨magnitude_eq_zero.1 left_zero, magnitude_eq_zero.1 right_zero⟩
  · rintro (⟨rfl, rfl⟩ | ⟨rfl, rfl, rfl⟩)
    · simp [valueOf]
    · rfl

/-- In normal form, numbers with one value are the same data or both zero. -/
theorem same_iff_equal {x y : Double} (hx : x.IsNormal) (hy : y.IsNormal) (numbers : ¬ x.IsNan) :
    x.same y = true ↔ x.Equal y := by
  cases x with
  | nan mark => exact absurd trivial numbers
  | infinite s =>
    cases y <;> simp [same, isZero, Equal]
  | finite s m e =>
    cases y with
    | finite t n f =>
      rw [Equal, valueOf_inj hx hy]
      simp [same, isZero]
    | infinite t => simp [same, isZero, Equal]
    | nan mark => simp [same, isZero, Equal]

/-! ## Rounding -/

theorem two_cast {e : Int} (h : 0 ≤ e) : ((two e : Nat) : ℚ) = 2 ^ e := by
  obtain ⟨n, rfl⟩ := Int.eq_ofNat_of_zero_le h
  simp [two]

theorem two_pos (e : Int) : 0 < two e := Nat.pow_pos (by decide)

theorem scale_pos (num : Nat) {den : Nat} (e : Int) (h : 0 < den) : 0 < (scale num den e).2 := by
  unfold scale
  split
  · exact Nat.mul_pos h (two_pos e)
  · exact h

/-- Scaling divides by a power of two. -/
theorem scale_value (num den : Nat) (e : Int) :
    ((scale num den e).1 / (scale num den e).2 : ℚ) = num / den / 2 ^ e := by
  unfold scale
  split
  · rename_i he
    simp only [Nat.cast_mul, two_cast he, div_div]
  · rename_i he
    have positive : 0 ≤ -e := by omega
    simp only [Nat.cast_mul, two_cast positive, zpow_neg]
    field_simp

theorem roundDiv_le {num den k : Nat} (h : 0 < den) (hk : num ≤ k * den) : roundDiv num den ≤ k := by
  have floor : num / den ≤ k := Nat.div_le_of_le_mul (by rwa [Nat.mul_comm])
  have rest := Nat.div_add_mod num den
  unfold roundDiv
  by_cases full : num / den = k
  · -- then nothing is left to be rounded
    have none : num % den = 0 := by
      rw [full, Nat.mul_comm] at rest
      omega
    simp only [none]
    split <;> omega
  · dsimp only
    split_ifs <;> omega

theorem le_roundDiv {num den k : Nat} (h : 0 < den) (hk : k * den ≤ num) : k ≤ roundDiv num den := by
  have floor : k ≤ num / den := (Nat.le_div_iff_mul_le h).2 hk
  unfold roundDiv
  dsimp only
  split_ifs <;> omega

theorem log2_bounds {n : Nat} (h : 0 < n) :
    (2 : ℚ) ^ (Nat.log2 n : Int) ≤ n ∧ (n : ℚ) < 2 ^ ((Nat.log2 n : Int) + 1) := by
  have low : 2 ^ Nat.log2 n ≤ n := Nat.log2_self_le (by omega)
  have high : n < 2 ^ (Nat.log2 n + 1) := Nat.lt_log2_self
  exact ⟨by exact_mod_cast low, by exact_mod_cast high⟩

/-- The binade of a quotient is where it lies. -/
theorem binade_bounds {num den : Nat} (hn : 0 < num) (hd : 0 < den) :
    (2 : ℚ) ^ binade num den ≤ num / den ∧ (num / den : ℚ) < 2 ^ (binade num den + 1) := by
  have den_pos : (0 : ℚ) < den := by exact_mod_cast hd
  obtain ⟨num_low, num_high⟩ := log2_bounds hn
  obtain ⟨den_low, den_high⟩ := log2_bounds hd
  -- the guess is at most one too large
  have above : (num / den : ℚ) < 2 ^ ((Nat.log2 num : Int) - Nat.log2 den + 1) := by
    rw [div_lt_iff₀ den_pos]
    calc (num : ℚ) < 2 ^ ((Nat.log2 num : Int) + 1) := num_high
      _ = 2 ^ ((Nat.log2 num : Int) - Nat.log2 den + 1) * 2 ^ (Nat.log2 den : Int) := by
        rw [← zpow_add₀ (by norm_num)]
        congr 1
        ring
      _ ≤ 2 ^ ((Nat.log2 num : Int) - Nat.log2 den + 1) * den := by gcongr
  have below : (2 : ℚ) ^ ((Nat.log2 num : Int) - Nat.log2 den - 1) < num / den := by
    rw [lt_div_iff₀ den_pos]
    calc (2 : ℚ) ^ ((Nat.log2 num : Int) - Nat.log2 den - 1) * den
        < 2 ^ ((Nat.log2 num : Int) - Nat.log2 den - 1) * 2 ^ ((Nat.log2 den : Int) + 1) := by
          gcongr
      _ = 2 ^ (Nat.log2 num : Int) := by
        rw [← zpow_add₀ (by norm_num)]
        congr 1
        ring
      _ ≤ num := num_low
  have scaled := scale_value num den ((Nat.log2 num : Int) - Nat.log2 den)
  have scaled_pos := scale_pos num ((Nat.log2 num : Int) - Nat.log2 den) hd
  unfold binade
  dsimp only
  generalize (Nat.log2 num : Int) - Nat.log2 den = guess at above below scaled scaled_pos ⊢
  generalize scale num den guess = parts at scaled scaled_pos ⊢
  have power : (0 : ℚ) < 2 ^ guess := by positivity
  have parts_pos : (0 : ℚ) < parts.2 := by exact_mod_cast scaled_pos
  split
  · rename_i fits
    have fits : (parts.2 : ℚ) ≤ parts.1 := by exact_mod_cast fits
    have one_le : (1 : ℚ) ≤ num / den / 2 ^ guess := by
      rw [← scaled]
      exact (one_le_div₀ parts_pos).2 fits
    exact ⟨(one_le_div₀ power).1 one_le, above⟩
  · rename_i small
    have small : (parts.1 : ℚ) < parts.2 := by exact_mod_cast not_le.1 small
    have lt_one : (num / den / 2 ^ guess : ℚ) < 1 := by
      rw [← scaled]
      exact (div_lt_one₀ parts_pos).2 small
    rw [sub_add_cancel]
    exact ⟨below.le, (div_lt_one₀ power).1 lt_one⟩

theorem ofMantissa_normal {negative : Bool} {m : Nat} {e : Int} (hm : m ≤ 2 * leastMantissa)
    (he : -1074 ≤ e) (h : leastMantissa ≤ m ∨ e = -1074) :
    (ofMantissa negative m e).IsNormal := by
  have positive : 0 < leastMantissa := by decide
  unfold ofMantissa
  by_cases carry : m = 2 * leastMantissa
  · simp only [if_pos carry]
    split
    · trivial
    · exact ⟨by omega, by omega, .inl le_rfl⟩
  · simp only [if_neg carry]
    split
    · trivial
    · exact ⟨by omega, by omega, h⟩

theorem zero_normal (negative : Bool) : (zero negative).IsNormal :=
  ⟨by decide, by decide, .inr rfl⟩

/-- Every quotient is rounded to a number in normal form. -/
theorem ofRatio_normal (negative : Bool) (num : Nat) {den : Nat} (h : 0 < den) :
    (ofRatio negative num den).IsNormal := by
  unfold ofRatio
  split
  · exact zero_normal negative
  · rename_i hn
    obtain ⟨low, high⟩ := binade_bounds (Nat.pos_of_ne_zero hn) h
    dsimp only
    generalize he : max (binade num den - 52) (-1074) = e
    have scaled := scale_value num den e
    have scaled_pos := scale_pos num e h
    generalize scale num den e = parts at scaled scaled_pos ⊢
    have power : (0 : ℚ) < 2 ^ e := by positivity
    have parts_pos : (0 : ℚ) < parts.2 := by exact_mod_cast scaled_pos
    refine ofMantissa_normal (roundDiv_le scaled_pos ?_) (by omega) ?_
    · -- the quotient is below 2^(e + 53)
      have bound : (num / den : ℚ) < 2 ^ (53 : Int) * 2 ^ e := by
        rw [← zpow_add₀ (by norm_num)]
        exact high.trans_le (zpow_le_zpow_right₀ (by norm_num) (by omega))
      have fits : (parts.1 : ℚ) ≤ 2 ^ (53 : Int) * parts.2 := by
        rw [← div_le_iff₀ parts_pos, scaled]
        exact ((div_lt_iff₀ power).2 bound).le
      have large : (2 * leastMantissa : Nat) = 2 ^ 53 := by decide
      rw [large]
      exact_mod_cast fits
    · by_cases least : e = -1074
      · exact .inr least
      · refine .inl (le_roundDiv scaled_pos ?_)
        have exponent : binade num den = 52 + e := by omega
        have bound : (2 : ℚ) ^ (52 : Int) * 2 ^ e ≤ num / den := by
          rw [← zpow_add₀ (by norm_num), ← exponent]
          exact low
        have fits : (2 : ℚ) ^ (52 : Int) * parts.2 ≤ parts.1 := by
          rw [← le_div_iff₀ parts_pos, scaled]
          exact (le_div_iff₀ power).2 bound
        have large : leastMantissa = 2 ^ 52 := by decide
        rw [large]
        exact_mod_cast fits

theorem ofScaled_normal (negative : Bool) (m : Nat) (e : Int) : (ofScaled negative m e).IsNormal := by
  unfold ofScaled
  split
  · exact ofRatio_normal negative _ Nat.one_pos
  · exact ofRatio_normal negative m (two_pos _)

theorem ofDecimal_normal (negative : Bool) (digits : Nat) (e : Int) :
    (ofDecimal negative digits e).IsNormal := by
  have ten_pos : 0 < ten (-e) := Nat.pow_pos (by decide)
  unfold ofDecimal
  dsimp only
  split_ifs
  · exact zero_normal negative
  · trivial
  · exact zero_normal negative
  · exact ofRatio_normal negative _ Nat.one_pos
  · exact ofRatio_normal negative digits ten_pos

/-! ## Sums and signs -/

theorem add_normal (x y : Double) : (x.add y).IsNormal := by
  unfold add
  split
  · trivial
  · trivial
  · exact iteInduction (fun _ => zero_normal _) fun _ => ofScaled_normal _ _ _
  · split <;> trivial
  · trivial
  · trivial

theorem IsNormal.neg {x : Double} (h : x.IsNormal) : x.neg.IsNormal := by
  cases x <;> exact h

theorem IsNormal.withMark {x : Double} (h : x.IsNormal) (mark : Nat) :
    (x.withMark mark).IsNormal := by
  cases x with
  | nan _ => trivial
  | _ => exact h

/-! ## Reading -/

theorem readDecimal?_normal {negative : Bool} {text : List Char} {x : Double}
    (h : readDecimal? negative text = some x) : x.IsNormal := by
  have rounded : ∀ {source : Option Int} {digits shift : Nat},
      (do return ofDecimal negative digits ((← source) - shift)) = some x → x.IsNormal := by
    intro source digits shift h
    obtain ⟨exponent, -, h⟩ := Option.bind_eq_some_iff.1 h
    cases h
    exact ofDecimal_normal negative digits _
  -- with a fraction and without
  unfold readDecimal? at h
  dsimp only at h
  split at h <;> split at h
  · cases h
  · exact rounded h
  · cases h
  · exact rounded h

theorem readMagnitude?_normal {negative : Bool} {text : List Char} {x : Double}
    (h : readMagnitude? negative text = some x) : x.IsNormal := by
  unfold readMagnitude? at h
  dsimp only at h
  split_ifs at h
  · cases h
    trivial
  · cases h
    trivial
  · exact readDecimal?_normal h

/-- The number that a text spells is in normal form. -/
theorem read?_normal {text : List Char} {x : Double} (h : read? text = some x) : x.IsNormal := by
  obtain ⟨plain, -, h⟩ := Option.bind_eq_some_iff.1 h
  unfold readSigned? at h
  split at h
  · exact readMagnitude?_normal h
  · exact readMagnitude?_normal h
  · exact readMagnitude?_normal h

end ServiceModel.Double
