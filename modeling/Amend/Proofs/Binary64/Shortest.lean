/-
# Amend.Proofs.Binary64.Shortest: the shortest digits read back

A value that is within the 2^55th part of a double is rounded to it, for doubles are farther apart than that. A decimal
with eighteen digits that is next to the double is nearer still. So of the grids on which digits are looked for the last
one has some that read back, and whatever digits are found do.

* **`roundBody_congr`**: the rounded double depends on the value of the fraction only.
* **`wideBody_of_close`**, **`readsBack_of_close`**: what is rounded to a double.
* **`exists_gridDigit`**: a grid that is fine enough.
* **`readsBack_shortestFrom`**: the digits that are found read back.
-/
import Amend.Binary64.Shortest
import Amend.Proofs.Binary64.Nearest
import Mathlib.Algebra.Order.Field.Basic
import Mathlib.Algebra.Order.Field.Rat
import Mathlib.Data.Nat.Cast.Order.Field
import Mathlib.Data.Nat.Digits.Lemmas
import Mathlib.Order.Monotone.Basic
import Mathlib.Tactic.FieldSimp
import Mathlib.Tactic.GCongr
import Mathlib.Tactic.Linarith
import Mathlib.Tactic.Positivity
import Mathlib.Tactic.Ring

namespace Amend.Binary64

/-! ## Fractions of one value -/

section

variable {n n' d d' c : Nat}

theorem nearest_mul (hc : 0 < c) : nearest (n * c) (d * c) = nearest n d := by
  have hless : 2 * (n % d * c) < d * c ↔ 2 * (n % d) < d := by
    rw [← Nat.mul_assoc, Nat.mul_lt_mul_right hc]
  have hmore : d * c < 2 * (n % d * c) ↔ d < 2 * (n % d) := by
    rw [← Nat.mul_assoc, Nat.mul_lt_mul_right hc]
  unfold nearest
  simp only [Nat.mul_div_mul_right n d hc, Nat.mul_mod_mul_right, hless, hmore]

theorem roundBody_mul (hc : 0 < c) : roundBody (n * c) (d * c) = roundBody n d := by
  have hstep (p : Nat) : d * c * 2 ^ p = d * 2 ^ p * c := Nat.mul_right_comm d c (2 ^ p)
  simp only [roundBody_eq, wideBody, shift, Nat.mul_div_mul_right n d hc, hstep, nearest_mul hc]

/-- **`roundBody_congr`**: fractions of one value are rounded to one double. -/
theorem roundBody_congr (hd : 0 < d) (hd' : 0 < d') (h : n * d' = n' * d) : roundBody n d = roundBody n' d' := by
  rw [← roundBody_mul hd', h, Nat.mul_comm d d', roundBody_mul hd]

end

/-! ## Values near a double -/

/-- The exponent and the significand of a double. -/
theorem exists_place (body : Nat) : ∃ p m, body = p * 2 ^ 52 + m ∧ m < 2 ^ 53 ∧ (p = 0 ∨ 2 ^ 52 ≤ m) := by
  rcases Nat.lt_or_ge body (2 ^ 52) with hlow | hhigh
  · exact ⟨0, body, by omega, by omega, .inl rfl⟩
  · exact ⟨body / 2 ^ 52 - 1, 2 ^ 52 + body % 2 ^ 52, by omega, by omega, .inr (by omega)⟩

theorem unitsOf_succ (body : Nat) : unitsOf body < unitsOf (body + 1) := by
  obtain ⟨p, m, rfl, hm, hp⟩ := exists_place body
  rw [unitsOf_place (Nat.le_of_lt hm) hp, Nat.add_assoc, unitsOf_place hm (hp.imp_right Nat.le_succ_of_le)]
  exact Nat.mul_lt_mul_of_pos_right (Nat.lt_succ_self m) (Nat.two_pow_pos p)

theorem unitsOf_injective : Function.Injective unitsOf := (strictMono_nat_of_lt_succ unitsOf_succ).injective

/-- Doubles are no nearer to each other than by half of the last place of either. -/
theorem eq_of_half_place {p m body : Nat} (hp : p = 0 ∨ 2 ^ 52 ≤ m)
    (h : 2 * (unitsOf body - (m * 2 ^ p : Nat) : Int).natAbs < 2 ^ p) : unitsOf body = m * 2 ^ p := by
  rcases Nat.eq_zero_or_pos p with rfl | hpos
  · rw [Nat.pow_zero] at h ⊢
    omega
  · obtain ⟨k, rfl⟩ := Nat.exists_eq_succ_of_ne_zero (Nat.ne_of_gt hpos)
    have hm : 2 ^ 52 ≤ m := hp.resolve_left (Nat.succ_ne_zero k)
    have hplace : m * 2 ^ (k + 1) = 2 * m * 2 ^ k := by rw [Nat.pow_succ', ← Nat.mul_assoc, Nat.mul_comm m 2]
    have htwice : (2 : Nat) ^ (k + 1) = 2 * 2 ^ k := Nat.pow_succ'
    rw [Nat.succ_eq_add_one, hplace, htwice] at h
    rw [Nat.succ_eq_add_one, hplace]
    rcases unitsOf_grid body k with ⟨j, hj⟩ | ⟨-, hlow⟩
    · rw [hj] at h ⊢
      rcases Nat.lt_trichotomy j (2 * m) with hless | rfl | hmore
      · have hstep : (j + 1) * 2 ^ k ≤ 2 * m * 2 ^ k := Nat.mul_le_mul_right _ hless
        rw [Nat.succ_mul] at hstep
        omega
      · rfl
      · have hstep : (2 * m + 1) * 2 ^ k ≤ j * 2 ^ k := Nat.mul_le_mul_right _ hmore
        rw [Nat.succ_mul] at hstep
        omega
    · have hstep : (2 ^ 52 + 1) * 2 ^ k ≤ 2 * m * 2 ^ k := Nat.mul_le_mul_right _ (by omega)
      rw [Nat.succ_mul] at hstep
      omega

/-- **`wideBody_of_close`**: what is within the 2^55th part of a double is rounded to it. -/
theorem wideBody_of_close {n d body : Nat} (hd : 0 < d)
    (h : ((unitsOf body * d : Nat) - n : Int).natAbs * 2 ^ 55 ≤ unitsOf body * d) : wideBody n d = body := by
  apply unitsOf_injective
  obtain ⟨hnear, -⟩ := wideBody_near (n := n) hd body
  obtain ⟨p, m, rfl, hm, hp⟩ := exists_place body
  rw [unitsOf_place (Nat.le_of_lt hm) hp] at h hnear ⊢
  have hbelow : m * 2 ^ p * d < 2 ^ 53 * (2 ^ p * d) := by
    rw [Nat.mul_assoc]
    exact Nat.mul_lt_mul_of_pos_right hm (Nat.mul_pos (Nat.two_pow_pos p) hd)
  refine eq_of_half_place hp (Nat.lt_of_mul_lt_mul_right (a := d) ?_)
  have hdistance : (unitsOf (wideBody n d) - (m * 2 ^ p : Nat) : Int).natAbs * d =
      ((unitsOf (wideBody n d) * d : Nat) - (m * 2 ^ p * d : Nat) : Int).natAbs := by
    rw [Int.natCast_mul (unitsOf _) d, Int.natCast_mul (m * 2 ^ p) d, ← Int.sub_mul, Int.natAbs_mul, Int.natAbs_natCast]
  rw [Nat.mul_assoc, hdistance]
  omega

/-! ## Neighbours on a decimal grid -/

/-- How large a finite double is. -/
def size (x : Binary64) : ℚ := x.units / one

theorem shiftDecimal_pos {a b : Nat} (hb : 0 < b) (e : Int) : 0 < (shiftDecimal a b e).2 := by
  unfold shiftDecimal
  split
  · exact hb
  · exact Nat.mul_pos hb (Nat.pow_pos (by decide))

theorem shiftDecimal_value (a : Nat) {b : Nat} (hb : 0 < b) (e : Int) :
    ((shiftDecimal a b e).1 : ℚ) / (shiftDecimal a b e).2 = a / b * 10 ^ e := by
  have hb' : (b : ℚ) ≠ 0 := Nat.cast_ne_zero.mpr (Nat.ne_of_gt hb)
  unfold shiftDecimal
  split
  case isTrue h =>
    obtain ⟨k, rfl⟩ := Int.eq_ofNat_of_zero_le h
    simp only [Int.toNat_natCast, Nat.cast_mul, Nat.cast_pow, Nat.cast_ofNat, zpow_natCast]
    ring
  case isFalse h =>
    obtain ⟨k, rfl⟩ := Int.exists_eq_neg_ofNat (Int.le_of_lt (Int.not_le.mp h))
    simp only [Int.neg_neg, Int.toNat_natCast, Nat.cast_mul, Nat.cast_pow, Nat.cast_ofNat, zpow_neg, zpow_natCast]
    field_simp

section

variable {x : Binary64} {d : Nat} {e : Int}

/-- A decimal that is near enough reads back. -/
theorem readsBack_of_close (hfinite : x.isFinite = true) (h : |(d : ℚ) * 10 ^ e - x.size| * 2 ^ 55 ≤ x.size) :
    x.readsBack d e = true := by
  have hm := shiftDecimal_pos Nat.one_pos e (a := d)
  have hvalue := shiftDecimal_value d Nat.one_pos e
  unfold readsBack
  generalize shiftDecimal d 1 e = f at hm hvalue
  obtain ⟨n, m⟩ := f
  dsimp only at hm hvalue ⊢
  have hm' : (0 : ℚ) < m := Nat.cast_pos.mpr hm
  have hone : (0 : ℚ) < one := Nat.cast_pos.mpr pos_one
  rw [Nat.cast_one, div_one] at hvalue
  have hclose : ((unitsOf x.body * m : Nat) - (n * one : Nat) : Int).natAbs * 2 ^ 55 ≤ unitsOf x.body * m := by
    rw [size, units_eq] at h
    generalize one = k at h hone ⊢
    have hscaled : |((unitsOf x.body * m : Nat) : ℚ) - (n * k : Nat)| =
        |(n : ℚ) / m - unitsOf x.body / k| * (m * k) := by
      rw [abs_sub_comm, ← abs_of_pos (mul_pos hm' hone), ← abs_mul]
      push_cast
      field_simp
    rw [← @Nat.cast_le ℚ, Nat.cast_mul, Nat.cast_natAbs, Int.cast_abs, Int.cast_sub, Int.cast_natCast, Int.cast_natCast,
      hscaled, hvalue]
    calc |(d : ℚ) * 10 ^ e - unitsOf x.body / k| * (m * k) * (2 ^ 55 : Nat)
        = |(d : ℚ) * 10 ^ e - unitsOf x.body / k| * 2 ^ 55 * (m * k) := by push_cast; ring
      _ ≤ unitsOf x.body / k * (m * k) := by gcongr
      _ = (unitsOf x.body * m : Nat) := by push_cast; field_simp
  rw [beq_iff_eq, roundBody_eq, wideBody_of_close hm hclose]
  exact Nat.min_eq_left (Nat.le_of_lt (of_decide_eq_true hfinite))

/-- If a decimal reads back, all fractions with its value are rounded to the double. -/
theorem roundBody_of_readsBack (hreads : x.readsBack d e = true) {n m : Nat} (hm : 0 < m)
    (h : (n : ℚ) / m = d * 10 ^ e) : roundBody (n * one) m = x.body := by
  have hm' := shiftDecimal_pos Nat.one_pos e (a := d)
  have hvalue := shiftDecimal_value d Nat.one_pos e
  unfold readsBack at hreads
  generalize shiftDecimal d 1 e = f at hreads hvalue hm'
  obtain ⟨n', m'⟩ := f
  rw [← eq_of_beq hreads]
  refine roundBody_congr hm hm' ?_
  dsimp only at hvalue hm'
  rw [← div_one (d : ℚ), ← Nat.cast_one, ← hvalue,
    div_eq_div_iff (Nat.cast_ne_zero.mpr hm.ne') (Nat.cast_ne_zero.mpr hm'.ne')] at h
  have hcross : n * m' = n' * m := by exact_mod_cast h
  rw [Nat.mul_right_comm, hcross, Nat.mul_right_comm]

/-- The first neighbour that is tried is the nearer one. -/
theorem gridDigit?_eq (x : Binary64) (e : Int) : ∃ first second,
    first = nearest (shiftDecimal x.units one (-e)).1 (shiftDecimal x.units one (-e)).2 ∧
      x.gridDigit? e = if first ≠ 0 ∧ x.readsBack first e then some first
        else if second ≠ 0 ∧ x.readsBack second e then some second else none := by
  unfold gridDigit?
  generalize shiftDecimal x.units one (-e) = f
  obtain ⟨n, m⟩ := f
  refine ⟨_, _, ?_, rfl⟩
  unfold nearest
  dsimp only
  grind

/-- What is found on a grid reads back. -/
theorem readsBack_of_gridDigit? (h : x.gridDigit? e = some d) : d ≠ 0 ∧ x.readsBack d e = true := by
  obtain ⟨first, second, -, heq⟩ := gridDigit?_eq x e
  rw [heq] at h
  split at h
  case isTrue hfirst =>
    cases h
    exact hfirst
  case isFalse =>
    split at h
    case isTrue hsecond =>
      cases h
      exact hsecond
    case isFalse => cases h

/-- **`exists_gridDigit`**: on a grid so fine that the double has eighteen digits before the point one is found. -/
theorem exists_gridDigit (hfinite : x.isFinite = true) (hfine : (10 : ℚ) ^ 17 * 10 ^ e ≤ x.size) :
    ∃ d, x.gridDigit? e = some d := by
  have hm := shiftDecimal_pos pos_one (-e) (a := x.units)
  have hvalue := shiftDecimal_value x.units pos_one (-e)
  obtain ⟨first, second, hfirst, heq⟩ := gridDigit?_eq x e
  generalize shiftDecimal x.units one (-e) = f at hm hvalue hfirst
  obtain ⟨n, m⟩ := f
  dsimp only at hm hvalue hfirst
  have hstep : (0 : ℚ) < 10 ^ e := zpow_pos (by norm_num) e
  have hm' : (0 : ℚ) < m := Nat.cast_pos.mpr hm
  have hsize : x.size = n / m * 10 ^ e := by
    rw [hvalue, zpow_neg, inv_mul_cancel_right₀ hstep.ne', size]
  have hhalf : |(first : ℚ) - n / m| * 2 ≤ 1 := by
    obtain ⟨hlow, hhigh, -⟩ := nearest_half (n := n) hm
    rw [← hfirst] at hlow hhigh
    have hlow' : 2 * ((first : ℚ) * m) ≤ 2 * n + m := by exact_mod_cast hlow
    have hhigh' : 2 * (n : ℚ) ≤ 2 * (first * m) + m := by exact_mod_cast hhigh
    have hquotient : (first : ℚ) - n / m = (first * m - n) / m := by field_simp
    rw [hquotient, abs_div, abs_of_pos hm', div_mul_eq_mul_div, div_le_one hm']
    have hdistance : |(first : ℚ) * m - n| ≤ m / 2 := abs_le.mpr ⟨by linarith, by linarith⟩
    linarith
  have hnear : |(first : ℚ) * 10 ^ e - x.size| * 2 ≤ 10 ^ e := by
    rw [hsize, ← sub_mul, abs_mul, abs_of_pos hstep]
    nlinarith
  have hreads : x.readsBack first e = true := by
    refine readsBack_of_close hfinite ?_
    linarith
  have hpos : first ≠ 0 := by
    rintro rfl
    rw [Nat.cast_zero, zero_mul, zero_sub, abs_neg] at hnear
    have := le_abs_self x.size
    linarith
  exact ⟨first, by rw [heq, if_pos ⟨hpos, hreads⟩]⟩

end

/-! ## The shortest decimal -/

theorem le_of_decimalLength {n : Nat} (hn : n ≠ 0) : 10 ^ (decimalLength n - 1) ≤ n := by
  by_contra hless
  rcases Nat.eq_zero_or_pos (decimalLength n - 1) with hzero | hpos
  · rw [hzero] at hless
    omega
  · have hlength : decimalLength n ≤ decimalLength n - 1 := Nat.toDigits_length 10 n _ hpos (Nat.not_le.mp hless)
    omega

/-- The first digit of a double is in its leading place. -/
theorem leadingPlace_le {x : Binary64} (hx : x.units ≠ 0) : (10 : ℚ) ^ x.leadingPlace ≤ x.size := by
  have hsmallest : one ≤ 10 ^ 340 := by decide +kernel
  have hone : (0 : ℚ) < one := Nat.cast_pos.mpr pos_one
  have hn : x.units * 10 ^ 340 / one ≠ 0 := by
    refine Nat.ne_of_gt (Nat.div_pos (hsmallest.trans ?_) pos_one)
    exact Nat.le_mul_of_pos_left _ (Nat.pos_of_ne_zero hx)
  have hdigits := le_of_decimalLength hn
  have hlength : decimalLength (x.units * 10 ^ 340 / one) ≠ 0 := by
    unfold decimalLength
    exact (List.length_pos_of_ne_nil Nat.toDigits_ne_nil).ne'
  rw [leadingPlace]
  generalize decimalLength (x.units * 10 ^ 340 / one) = k at hdigits hlength ⊢
  obtain ⟨k, rfl⟩ := Nat.exists_eq_succ_of_ne_zero hlength
  have hplace : ((k.succ : Nat) : Int) - 341 = k - (340 : Nat) := by omega
  rw [hplace, zpow_sub₀ (by norm_num), zpow_natCast, zpow_natCast, div_le_iff₀ (by positivity)]
  calc ((10 : ℚ) ^ k) ≤ (x.units * 10 ^ 340 / one : Nat) := by exact_mod_cast hdigits
    _ ≤ (x.units * 10 ^ 340 : Nat) / one := Nat.cast_div_le
    _ = x.size * 10 ^ 340 := by
      rw [size, Nat.cast_mul, Nat.cast_pow, Nat.cast_ofNat, div_mul_eq_mul_div]

theorem shortestFrom_found {x : Binary64} {place : Int} {n k j : Nat} (hj : j < n)
    (h : ∃ d, x.gridDigit? (place - (k + j : Nat)) = some d) :
    x.gridDigit? (x.shortestFrom place n k).2 = some (x.shortestFrom place n k).1 := by
  induction n generalizing k j with
  | zero => omega
  | succ n ih =>
    rw [shortestFrom]
    cases hgrid : x.gridDigit? (place - k) with
    | some d => exact hgrid
    | none =>
      dsimp only
      cases j with
      | zero =>
        obtain ⟨d, hd⟩ := h
        rw [Nat.add_zero, hgrid] at hd
        cases hd
      | succ j =>
        refine ih (j := j) (by omega) ?_
        rwa [Nat.add_right_comm, Nat.add_assoc]

/-- **`readsBack_shortestFrom`**: the digits that are found read back. -/
theorem readsBack_shortestFrom {x : Binary64} (hfinite : x.isFinite = true) (hx : x.units ≠ 0) :
    (x.shortestFrom x.leadingPlace 18 0).1 ≠ 0 ∧
      x.readsBack (x.shortestFrom x.leadingPlace 18 0).1 (x.shortestFrom x.leadingPlace 18 0).2 = true := by
  refine readsBack_of_gridDigit? (shortestFrom_found (j := 17) (by decide) (exists_gridDigit hfinite ?_))
  have hplace : (10 : ℚ) ^ 17 * 10 ^ (x.leadingPlace - (0 + 17 : Nat)) = 10 ^ x.leadingPlace := by
    rw [zpow_sub₀ (by norm_num), zpow_natCast]
    field_simp
  rw [hplace]
  exact leadingPlace_le hx

end Amend.Binary64
