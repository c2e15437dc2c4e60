/-
# Amend.Proofs.Binary64.Nearest: rounding gives the nearest double

The doubles from 2^52 · 2^p units on are multiples of 2^p units, and all multiples of it up to 2^53 · 2^p are doubles.
A value in this range is rounded to the nearest multiple, so what is left to say is that smaller doubles are not
nearer.

* **`nearest_near`**: a quotient is rounded to the nearest whole number, a half to the even one.
* **`unitsOf_place`**, **`unitsOf_grid`**: the doubles around a value.
* **`wideBody_near`**, **`roundBody_near`**: no double is nearer than the rounded one.
* **`IsNearest`**, **`isNearest_ofInt`**: the double of a whole number.
* **`isFinite_ofInt`**: every whole number of a document has such a double.
* **`units_ofInt`**: the double of a whole number of a word is a whole number.
-/
import Amend.Binary64.Basic
import Amend.Json.Number

namespace Amend.Binary64

/-! ## Quotients -/

section

variable {n d : Nat}

/-- A rounded quotient is off by half of one at most, and by half of one only if it is even. -/
theorem nearest_half (hd : 0 < d) :
    2 * (nearest n d * d) ≤ 2 * n + d ∧ 2 * n ≤ 2 * (nearest n d * d) + d ∧
      (2 * (nearest n d * d) = 2 * n + d ∨ 2 * n = 2 * (nearest n d * d) + d → nearest n d % 2 = 0) := by
  have hdiv := Nat.div_add_mod n d
  have hmod := Nat.mod_lt n hd
  have hup : (n / d + 1) * d = d * (n / d) + d := by rw [Nat.succ_mul, Nat.mul_comm]
  have hdown : n / d * d = d * (n / d) := Nat.mul_comm _ _
  unfold nearest
  dsimp only
  split
  · rw [hdown]
    omega
  · split
    · rw [hup]
      omega
    · split
      · rw [hdown]
        omega
      · rw [hup]
        omega

/-- **`nearest_near`**: no other multiple is nearer, and if one is as near the rounded one is even. -/
theorem nearest_near (hd : 0 < d) (k : Nat) :
    ((nearest n d * d : Nat) - n : Int).natAbs ≤ ((k * d : Nat) - n : Int).natAbs ∧
      (k ≠ nearest n d → ((nearest n d * d : Nat) - n : Int).natAbs = ((k * d : Nat) - n : Int).natAbs →
        nearest n d % 2 = 0) := by
  obtain ⟨hlow, hhigh, heven⟩ := nearest_half (n := n) hd
  rcases Nat.lt_trichotomy k (nearest n d) with hk | rfl | hk
  · have hstep : k * d + d ≤ nearest n d * d := by
      rw [← Nat.succ_mul]
      exact Nat.mul_le_mul_right d hk
    constructor
    · omega
    · intro _ htie
      exact heven (by omega)
  · exact ⟨Nat.le_refl _, fun hne => absurd rfl hne⟩
  · have hstep : nearest n d * d + d ≤ k * d := by
      rw [← Nat.succ_mul]
      exact Nat.mul_le_mul_right d hk
    constructor
    · omega
    · intro _ htie
      exact heven (by omega)

/-- A whole number of steps is not rounded. -/
theorem nearest_exact (hd : 0 < d) (k : Nat) : nearest (k * d) d = k := by
  unfold nearest
  dsimp only
  rw [Nat.mul_mod_left, Nat.mul_div_cancel k hd, if_pos (by omega)]

theorem div_le_nearest (n d : Nat) : n / d ≤ nearest n d ∧ nearest n d ≤ n / d + 1 := by
  unfold nearest
  dsimp only
  split
  · omega
  · split
    · omega
    · split <;> omega

end

/-! ## The doubles around a value -/

/-- The size of the double with a body, in units. -/
def unitsOf (body : Nat) : Nat :=
  if body / 2 ^ 52 = 0 then body % 2 ^ 52 else (2 ^ 52 + body % 2 ^ 52) * 2 ^ (body / 2 ^ 52 - 1)

theorem units_eq (x : Binary64) : x.units = unitsOf x.body := rfl

/-- **`unitsOf_place`**: bodies count through the significands of one exponent up to those of the next. -/
theorem unitsOf_place {p m : Nat} (hm : m ≤ 2 ^ 53) (hp : p = 0 ∨ 2 ^ 52 ≤ m) :
    unitsOf (p * 2 ^ 52 + m) = m * 2 ^ p := by
  rcases Nat.lt_or_ge m (2 ^ 52) with hsmall | hlarge
  · -- below the smallest normal double
    obtain rfl : p = 0 := hp.resolve_right (by omega)
    have hdiv : (0 * 2 ^ 52 + m) / 2 ^ 52 = 0 := by omega
    rw [unitsOf, if_pos hdiv]
    omega
  · rcases Nat.lt_or_ge m (2 ^ 53) with hless | hequal
    · have hdiv : (p * 2 ^ 52 + m) / 2 ^ 52 = p + 1 := by omega
      have hmod : 2 ^ 52 + (p * 2 ^ 52 + m) % 2 ^ 52 = m := by omega
      rw [unitsOf, hdiv, hmod, if_neg (Nat.succ_ne_zero p), Nat.add_sub_cancel]
    · obtain rfl : m = 2 ^ 53 := Nat.le_antisymm hm hequal
      have hdiv : (p * 2 ^ 52 + 2 ^ 53) / 2 ^ 52 = p + 2 := by omega
      have hmod : 2 ^ 52 + (p * 2 ^ 52 + 2 ^ 53) % 2 ^ 52 = 2 ^ 52 := by omega
      have hnext : p + 2 - 1 = p + 1 := rfl
      rw [unitsOf, hdiv, hmod, if_neg (Nat.succ_ne_zero _), hnext, ← Nat.pow_add, ← Nat.pow_add]
      exact congrArg (2 ^ ·) (by omega)

/-- **`unitsOf_grid`**: from 2^52 · 2^p units on all doubles are multiples of 2^p units. -/
theorem unitsOf_grid (body p : Nat) :
    (∃ k, unitsOf body = k * 2 ^ p) ∨ p ≠ 0 ∧ unitsOf body < 2 ^ 52 * 2 ^ p := by
  have hfraction : body % 2 ^ 52 < 2 ^ 52 := Nat.mod_lt _ (by decide)
  rw [unitsOf]
  split
  · rcases Nat.eq_zero_or_pos p with rfl | hp
    · exact .inl ⟨_, (Nat.mul_one _).symm⟩
    · exact .inr ⟨Nat.ne_of_gt hp, Nat.lt_of_lt_of_le hfraction (Nat.le_mul_of_pos_right _ (Nat.two_pow_pos p))⟩
  · rcases Nat.lt_or_ge (body / 2 ^ 52 - 1) p with hlow | hhigh
    · refine .inr ⟨by omega, ?_⟩
      calc (2 ^ 52 + body % 2 ^ 52) * 2 ^ (body / 2 ^ 52 - 1)
          < 2 ^ 53 * 2 ^ (body / 2 ^ 52 - 1) := Nat.mul_lt_mul_of_pos_right (by omega) (Nat.two_pow_pos _)
        _ = 2 ^ (53 + (body / 2 ^ 52 - 1)) := (Nat.pow_add 2 53 _).symm
        _ ≤ 2 ^ (52 + p) := Nat.pow_le_pow_right (by decide) (by omega)
        _ = 2 ^ 52 * 2 ^ p := Nat.pow_add 2 52 p
    · refine .inl ⟨(2 ^ 52 + body % 2 ^ 52) * 2 ^ (body / 2 ^ 52 - 1 - p), ?_⟩
      rw [Nat.mul_assoc, ← Nat.pow_add, Nat.sub_add_cancel hhigh]

/-! ## Rounding -/

section

variable {n d : Nat}

/-- How many bits of the quotient `n / d` are rounded off. -/
def shift (n d : Nat) : Nat := (n / d).log2 - 52

/-- What is left of the quotient has at most 53 bits, and no fewer if any have been rounded off. -/
theorem quotient_bounds (n d : Nat) :
    n / (d * 2 ^ shift n d) < 2 ^ 53 ∧ (shift n d = 0 ∨ 2 ^ 52 ≤ n / (d * 2 ^ shift n d)) := by
  have hshift : shift n d = (n / d).log2 - 52 := rfl
  have hpos : (0 : Nat) < 2 ^ shift n d := Nat.two_pow_pos _
  rw [← Nat.div_div_eq_div_mul]
  constructor
  · refine (Nat.div_lt_iff_lt_mul hpos).mpr ?_
    calc n / d < 2 ^ ((n / d).log2 + 1) := Nat.lt_log2_self
      _ ≤ 2 ^ (53 + shift n d) := Nat.pow_le_pow_right (by decide) (by omega)
      _ = 2 ^ 53 * 2 ^ shift n d := Nat.pow_add 2 53 _
  · rcases Nat.eq_zero_or_pos (shift n d) with hp | hp
    · exact .inl hp
    · refine .inr ((Nat.le_div_iff_mul_le hpos).mpr ?_)
      have hne : n / d ≠ 0 := by
        intro hzero
        rw [shift, hzero] at hp
        exact absurd hp (by decide)
      calc 2 ^ 52 * 2 ^ shift n d = 2 ^ (52 + shift n d) := (Nat.pow_add 2 52 _).symm
        _ ≤ 2 ^ (n / d).log2 := Nat.pow_le_pow_right (by decide) (by omega)
        _ ≤ n / d := Nat.log2_self_le hne

/-- The body of the nearest double if there were no greatest one. -/
def wideBody (n d : Nat) : Nat := shift n d * 2 ^ 52 + nearest n (d * 2 ^ shift n d)

theorem roundBody_eq (n d : Nat) : roundBody n d = min (wideBody n d) infiniteBody := rfl

/-- The significand that is left. -/
theorem nearest_bounds (n d : Nat) : nearest n (d * 2 ^ shift n d) ≤ 2 ^ 53 ∧
    (shift n d = 0 ∨ 2 ^ 52 ≤ nearest n (d * 2 ^ shift n d)) := by
  obtain ⟨hlow, hhigh⟩ := div_le_nearest n (d * 2 ^ shift n d)
  obtain ⟨hless, hnormal⟩ := quotient_bounds n d
  exact ⟨by omega, hnormal.imp_right fun h => by omega⟩

/-- **`wideBody_near`**: no double is nearer than the rounded one, and if another one is as near the rounded one is
even. -/
theorem wideBody_near (hd : 0 < d) (body : Nat) :
    ((unitsOf (wideBody n d) * d : Nat) - n : Int).natAbs ≤ ((unitsOf body * d : Nat) - n : Int).natAbs ∧
      (unitsOf body ≠ unitsOf (wideBody n d) → ((unitsOf (wideBody n d) * d : Nat) - n : Int).natAbs =
        ((unitsOf body * d : Nat) - n : Int).natAbs → wideBody n d % 2 = 0) := by
  obtain ⟨hsignificand, hplace⟩ := nearest_bounds n d
  obtain ⟨_, hnormal⟩ := quotient_bounds n d
  have hbody : wideBody n d = shift n d * 2 ^ 52 + nearest n (d * 2 ^ shift n d) := rfl
  have hunits := congrArg unitsOf hbody
  rw [unitsOf_place hsignificand hplace] at hunits
  generalize shift n d = p at hunits hbody hnormal
  have hstep : 0 < d * 2 ^ p := Nat.mul_pos hd (Nat.two_pow_pos p)
  have hmultiple (k : Nat) : k * 2 ^ p * d = k * (d * 2 ^ p) := by rw [Nat.mul_assoc, Nat.mul_comm d]
  have hparity : wideBody n d % 2 = nearest n (d * 2 ^ p) % 2 := by omega
  rw [hunits, hmultiple]
  rcases unitsOf_grid body p with ⟨k, hk⟩ | ⟨hp, hlow⟩
  · obtain ⟨hnear, heven⟩ := nearest_near (n := n) hstep k
    rw [hk, hmultiple]
    refine ⟨hnear, fun hne htie => hparity.trans (heven (fun hsame => hne ?_) htie)⟩
    rw [hsame]
  · -- a smaller double is farther away than the smallest one of the grid
    have hgrid : 2 ^ 52 * (d * 2 ^ p) ≤ n :=
      (Nat.le_div_iff_mul_le hstep).mp (hnormal.resolve_left hp)
    have hbelow : unitsOf body * d < 2 ^ 52 * (d * 2 ^ p) := by
      rw [← hmultiple]
      exact Nat.mul_lt_mul_of_pos_right hlow hd
    obtain ⟨hnear, _⟩ := nearest_near (n := n) hstep (2 ^ 52)
    exact ⟨by omega, fun _ htie => by omega⟩

/-- **`dvd_unitsOf_wideBody`**: multiples of a power of two are rounded to such multiples. -/
theorem dvd_unitsOf_wideBody (k e : Nat) : 2 ^ e ∣ unitsOf (wideBody (k * 2 ^ e) 1) := by
  obtain ⟨hsignificand, hplace⟩ := nearest_bounds (k * 2 ^ e) 1
  rw [wideBody, unitsOf_place hsignificand hplace, Nat.one_mul]
  generalize shift (k * 2 ^ e) 1 = p
  rcases Nat.lt_or_ge p e with hless | hge
  · obtain ⟨j, rfl⟩ := Nat.exists_eq_add_of_lt hless
    have hsplit : k * 2 ^ (p + j + 1) = k * 2 ^ (j + 1) * 2 ^ p := by
      rw [Nat.add_assoc, Nat.add_comm p, Nat.pow_add, Nat.mul_assoc]
    rw [hsplit, nearest_exact (Nat.two_pow_pos p), ← hsplit]
    exact Nat.dvd_mul_left _ _
  · exact Nat.dvd_trans (Nat.pow_dvd_pow 2 hge) (Nat.dvd_mul_left _ _)

/-- What is at most a double is rounded to what is at most the double. -/
theorem unitsOf_wideBody_le {body : Nat} (h : n ≤ unitsOf body) : unitsOf (wideBody n 1) ≤ unitsOf body := by
  obtain ⟨hnear, -⟩ := wideBody_near (n := n) Nat.one_pos body
  omega
/-- **`roundBody_near`**: this holds of the rounded double if it is a number. -/
theorem roundBody_near (hd : 0 < d) (hfinite : roundBody n d < infiniteBody) (body : Nat) :
    ((unitsOf (roundBody n d) * d : Nat) - n : Int).natAbs ≤ ((unitsOf body * d : Nat) - n : Int).natAbs ∧
      (unitsOf body ≠ unitsOf (roundBody n d) → ((unitsOf (roundBody n d) * d : Nat) - n : Int).natAbs =
        ((unitsOf body * d : Nat) - n : Int).natAbs → roundBody n d % 2 = 0) := by
  have hbody : roundBody n d = wideBody n d := by
    have hmin := roundBody_eq n d
    omega
  rw [hbody]
  exact wideBody_near hd body

end

/-! ## Doubles -/

section

variable {negative : Bool} {body : Nat}

theorem word_ofBody (h : body < 2 ^ 63) :
    (ofBody negative body).word = (if negative then 2 ^ 63 else 0) + body := by
  show (UInt64.ofNat _).toNat = _
  rw [UInt64.toNat_ofNat', Nat.mod_eq_of_lt]
  split <;> omega

theorem body_ofBody (h : body < 2 ^ 63) : (ofBody negative body).body = body := by
  rw [Binary64.body, word_ofBody h]
  split <;> omega

theorem negative_ofBody (h : body < 2 ^ 63) : (ofBody negative body).negative = negative := by
  rw [Binary64.negative, word_ofBody h]
  cases negative with
  | false => exact decide_eq_false (by rw [if_neg Bool.false_ne_true]; omega)
  | true => exact decide_eq_true (by rw [if_pos rfl]; omega)

end

/-- **`IsNearest`**: of the doubles that are numbers none is nearer to a whole number than this one, and if another one
is as near this is the even one. -/
structure IsNearest (x : Binary64) (n : Int) : Prop where
  near : ∀ y : Binary64, y.isFinite = true → (x.scaled - n * one).natAbs ≤ (y.scaled - n * one).natAbs
  even : ∀ y : Binary64, y.isFinite = true → y.scaled ≠ x.scaled →
    (x.scaled - n * one).natAbs = (y.scaled - n * one).natAbs → x.body % 2 = 0

theorem scaled_cases (x : Binary64) : x.scaled = unitsOf x.body ∨ x.scaled = -(unitsOf x.body : Int) := by
  rw [scaled, units_eq]
  split
  · exact .inr rfl
  · exact .inl rfl

theorem infiniteBody_lt : infiniteBody < 2 ^ 63 := by decide

theorem ofInt_eq {n : Int} (h : 0 ≤ n) : ofInt n = ofBody false (roundBody (n.natAbs * one) 1) := by
  rw [ofInt, decide_eq_false (Int.not_lt.mpr h)]
  rfl

/-- A negative double is farther away than the positive one of its size, unless both are zero. -/
theorem roundBody_near_scaled {n : Nat} (hfinite : roundBody n 1 < infiniteBody) (y : Binary64) :
    ((unitsOf (roundBody n 1) : Int) - n).natAbs ≤ (y.scaled - n).natAbs ∧
      (y.scaled ≠ unitsOf (roundBody n 1) → ((unitsOf (roundBody n 1) : Int) - n).natAbs = (y.scaled - n).natAbs →
        roundBody n 1 % 2 = 0) := by
  obtain ⟨hnear, heven⟩ := roundBody_near Nat.one_pos hfinite y.body
  have hzero : ((unitsOf (roundBody n 1) * 1 : Nat) - n : Int).natAbs ≤ ((0 * 1 : Nat) - n : Int).natAbs :=
    (roundBody_near Nat.one_pos hfinite 0).1
  simp only [Nat.mul_one] at hnear heven hzero
  rcases scaled_cases y with hy | hy
  · exact ⟨by omega, fun hne htie => heven (by omega) (by omega)⟩
  · exact ⟨by omega, fun hne htie => heven (by omega) (by omega)⟩

/-- **`isNearest_ofInt`**: a whole number is rounded to the nearest double. -/
theorem isNearest_ofInt {n : Int} (h : 0 ≤ n) (hfinite : (ofInt n).isFinite = true) : IsNearest (ofInt n) n := by
  have hlt : roundBody (n.natAbs * one) 1 < 2 ^ 63 := Nat.lt_of_le_of_lt (Nat.min_le_right _ _) infiniteBody_lt
  have hbody : (ofInt n).body = roundBody (n.natAbs * one) 1 := by rw [ofInt_eq h, body_ofBody hlt]
  have hround : roundBody (n.natAbs * one) 1 < infiniteBody := by
    rw [← hbody]
    exact of_decide_eq_true hfinite
  have hscaled : (ofInt n).scaled = unitsOf (roundBody (n.natAbs * one) 1) := by
    have hsign : (ofInt n).negative = false := by rw [ofInt_eq h, negative_ofBody hlt]
    rw [scaled, hsign, units_eq, hbody]
    rfl
  have hsize : n * one = ((n.natAbs * one : Nat) : Int) := by
    rw [Int.natCast_mul, Int.natAbs_of_nonneg h]
  constructor
  case near =>
    intro y _
    rw [hscaled, hsize]
    exact (roundBody_near_scaled hround y).1
  case even =>
    intro y _
    rw [hscaled, hsize, hbody]
    exact (roundBody_near_scaled hround y).2

theorem roundBody_lt {n k : Nat} (h : n < 2 ^ k) (hk : k ≤ 2000) : roundBody n 1 < infiniteBody := by
  have hlog : (n / 1).log2 < 2000 := by
    rw [Nat.div_one]
    by_cases hzero : n = 0
    · rw [hzero]
      decide
    · exact Nat.lt_of_lt_of_le ((Nat.log2_lt hzero).mpr h) hk
  have hshift : shift n 1 ≤ 1947 := by
    rw [shift]
    omega
  obtain ⟨hsignificand, _⟩ := nearest_bounds n 1
  have hround := roundBody_eq n 1
  rw [wideBody] at hround
  have hinfinite : infiniteBody = 2047 * 2 ^ 52 := rfl
  omega

theorem one_eq : one = 2 ^ 1074 := by rw [one]

theorem pos_one : 0 < one := Nat.lt_of_lt_of_eq (Nat.two_pow_pos _) one_eq.symm

theorem mul_lt {k m e : Nat} (h : k < 2 ^ 64) (hm : m = 2 ^ e) : k * m < 2 ^ (64 + e) := by
  rw [hm, Nat.pow_add]
  exact Nat.mul_lt_mul_of_pos_right h (Nat.two_pow_pos e)

/-- A whole number below 2^64 is rounded to a number. -/
theorem roundBody_whole {k : Nat} (h : k < 2 ^ 64) : roundBody (k * one) 1 < infiniteBody :=
  roundBody_lt (mul_lt h one_eq) (by decide)

/-- **`isFinite_ofInt`**: whole numbers below 2^64 are rounded to numbers. -/
theorem isFinite_ofInt {n : Int} (h : 0 ≤ n) (hn : n < 2 ^ 64) : (ofInt n).isFinite = true := by
  have hround := roundBody_whole (k := n.natAbs) (by omega)
  rw [isFinite, ofInt_eq h, body_ofBody (Nat.lt_trans hround infiniteBody_lt)]
  exact decide_eq_true hround

/-! ## Whole numbers of a word -/

/-- The double of 2^63. -/
def twoPow63 : Binary64 := ⟨0x43E0000000000000⟩

theorem unitsOf_twoPow63 : unitsOf twoPow63.body = 2 ^ 63 * one := by
  have hbody : twoPow63.body = (11 + 1074) * 2 ^ 52 + 2 ^ 52 := by decide
  have hplace (e : Nat) : unitsOf ((11 + e) * 2 ^ 52 + 2 ^ 52) = 2 ^ 63 * 2 ^ e := by
    rw [unitsOf_place (by decide) (.inr (Nat.le_refl _)), Nat.pow_add 2 11 e, ← Nat.mul_assoc, ← Nat.pow_add 2 52 11]
  rw [hbody, one_eq]
  exact hplace 1074

section

variable {i : Int}

theorem fields_ofInt (h : i.natAbs ≤ 2 ^ 63) : (ofInt i).body = wideBody (i.natAbs * one) 1 ∧
    (ofInt i).isFinite = true ∧ (ofInt i).negative = decide (i < 0) := by
  have hround := roundBody_whole (Nat.lt_of_le_of_lt h (by decide))
  have hlt := Nat.lt_trans hround infiniteBody_lt
  have hbody : (ofInt i).body = roundBody (i.natAbs * one) 1 := body_ofBody hlt
  refine ⟨?_, ?_, negative_ofBody hlt⟩
  · rw [hbody]
    rw [roundBody_eq] at hround ⊢
    omega
  · rw [isFinite, hbody]
    exact decide_eq_true hround

/-- **`units_ofInt`**: a whole number of a word is rounded to a whole number, and to 2^63 at most. -/
theorem units_ofInt (h : i.natAbs ≤ 2 ^ 63) : ∃ k ≤ 2 ^ 63, (ofInt i).units = k * one := by
  obtain ⟨hbody, -, -⟩ := fields_ofInt h
  obtain ⟨k, hk⟩ := dvd_unitsOf_wideBody i.natAbs 1074
  have hle : unitsOf (wideBody (i.natAbs * one) 1) ≤ unitsOf twoPow63.body := by
    refine unitsOf_wideBody_le ?_
    rw [unitsOf_twoPow63]
    exact Nat.mul_le_mul_right one h
  rw [← one_eq, Nat.mul_comm one] at hk
  rw [unitsOf_twoPow63, hk] at hle
  exact ⟨k, Nat.le_of_mul_le_mul_right hle pos_one, by rw [units_eq, hbody, hk]⟩

end

end Amend.Binary64
