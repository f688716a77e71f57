import Mathlib.Algebra.Order.Floor.Semiring
import Mathlib.Data.Int.Log
import Mathlib.Data.Rat.Floor
import Mathlib.Tactic.Linarith
import Mathlib.Tactic.Positivity
import Mathlib.Tactic.FieldSimp
import Mathlib.Tactic.Ring

/-!
# Binary floating-point numbers

Magnitudes of a binary format: rounding a rational to the nearest number of the format,
ties to even (`Format.round`), and the shortest decimal that is read as a given number
(`Format.shortest`). Numbers of the format are rounded to themselves (`round_round`), as
are the integers below `2^precision` (`round_natCast`), and the shortest decimal of a
number is read as that number (`round_shortest`).
-/
namespace Zasper.Floats
set_option linter.unusedSimpArgs false

/-- The bits of a significand, and the least and the greatest exponent of its last bit. -/
structure Format where
  precision : ℕ
  least : ℤ
  greatest : ℤ
  positive : 0 < precision
  below : least ≤ 0
  above : 0 ≤ greatest

/-- The nearest natural number, of two the even one. -/
def nearestEven (y : ℚ) : ℕ :=
  let n := ⌊y⌋₊
  if y - n < 1/2 then n
  else if y - n = 1/2 ∧ n % 2 = 0 then n
  else n + 1

namespace Format
variable (f : Format)

/-- The exponent of the last bit that is kept of a magnitude. -/
def lastBit (x : ℚ) : ℤ := max f.least (Int.log 2 x - (f.precision - 1))

/-- The magnitudes below this one are in range. -/
def limit : ℚ := 2^(f.greatest + f.precision)

/-- The nearest number that ends with the last bit. -/
def nearest (x : ℚ) : ℚ := (nearestEven (x / 2^f.lastBit x) : ℚ) * 2^f.lastBit x

/-- The nearest number of the format; none where it is out of range. -/
def round (x : ℚ) : Option ℚ := if f.nearest x < f.limit then some (f.nearest x) else none

/-- The digits that a decimal may have whose last digit stands at `10^q`: the nearest ones,
    and those below and above. -/
def candidates (x : ℚ) (q : ℤ) : List ℕ := [nearestEven (x / 10^q),⌊x / 10^q⌋₊,⌊x / 10^q⌋₊ + 1]

/-- The digits of a decimal that is read as `x` with its last digit at `10^q`. -/
def digitsAt (x : ℚ) (q : ℤ) : Option (ℕ × ℤ) :=
  ((candidates x q).find? (fun c : ℕ => f.round ((c : ℚ) * 10^q) = some x)).map (fun c => (c,q))

/-- How many digits stand before the point. -/
def wholeDigits (x : ℚ) : ℕ := (Nat.toDigits 10 ⌊x⌋₊).length

/-- The fewest digits that are read as `x`, of several the nearest. -/
def shortest (x : ℚ) : ℕ × ℤ :=
  ((List.range (wholeDigits x + f.least.natAbs + 1)).findSome? (fun i : ℕ => f.digitsAt x (wholeDigits x - i))).getD (0,0)

end Format

/-! ## Rounding -/

theorem nearestEven_natCast (n : ℕ) : nearestEven n = n := by simp [nearestEven]

theorem nearestEven_le {y : ℚ} {n : ℕ} (below : y ≤ n) (positive : 0 ≤ y) : nearestEven y ≤ n := by
  have floor : ⌊y⌋₊ ≤ n := Nat.floor_le_of_le below
  rcases floor.lt_or_eq with less | same
  · unfold nearestEven
    dsimp only
    split_ifs <;> omega
  · have whole : y = n := le_antisymm below (same ▸ Nat.floor_le positive)
    rw [whole,nearestEven_natCast]

theorem nearestEven_zero : nearestEven 0 = 0 := by simpa using nearestEven_natCast 0

section
variable {f : Format}

theorem two_zpow_pos (e : ℤ) : (0 : ℚ) < 2^e := zpow_pos (by decide) e

/-- The last bit that is kept of a number whose significand fits. -/
theorem lastBit_le {s : ℕ} {e : ℤ} (positive : 0 < s) (fits : s < 2^f.precision) (least : f.least ≤ e) :
    f.lastBit ((s : ℚ) * 2^e) ≤ e := by
  have magnitude : (0 : ℚ) < s * 2^e := mul_pos (by exact_mod_cast positive) (two_zpow_pos e)
  have small : (s * 2^e : ℚ) < (2 : ℕ)^(f.precision + e) := by
    rw [Nat.cast_ofNat,zpow_add₀ (by decide),zpow_natCast]
    exact mul_lt_mul_of_pos_right (by exact_mod_cast fits) (two_zpow_pos e)
  have log := (Int.lt_zpow_iff_log_lt (by decide) magnitude).mp small
  refine max_le least ?_
  omega

/-- A number of the format is rounded to itself. -/
theorem round_exact {s : ℕ} {e : ℤ} (fits : s < 2^f.precision) (least : f.least ≤ e) (range : (s * 2^e : ℚ) < f.limit) :
    f.round ((s : ℚ) * 2^e) = some ((s : ℚ) * 2^e) := by
  rcases Nat.eq_zero_or_pos s with rfl | positive
  · simp only [Nat.cast_zero,zero_mul] at range
    simp [Format.round,Format.nearest,nearestEven_zero,range]
  · obtain ⟨k,apart⟩ := Int.eq_ofNat_of_zero_le (Int.sub_nonneg_of_le (lastBit_le positive fits least))
    have whole : (s * 2^e : ℚ) / 2^f.lastBit (s * 2^e) = ((s * 2^k : ℕ) : ℚ) := by
      rw [mul_div_assoc,← zpow_sub₀ (by decide),apart]
      push_cast
      rw [zpow_natCast]
    have back : ((s * 2^k : ℕ) : ℚ) * 2^f.lastBit (s * 2^e) = s * 2^e := by
      rw [← whole,div_mul_cancel₀ _ (two_zpow_pos _).ne']
    rw [Format.round,Format.nearest,whole,nearestEven_natCast,back,if_pos range]

/-- What is kept of a magnitude fits, but for a carry. -/
theorem scaled_le {x : ℚ} : x / 2^f.lastBit x ≤ (2^f.precision : ℕ) := by
  have log : x < (2 : ℕ)^(Int.log 2 x + 1) := Int.lt_zpow_succ_log_self (by decide) x
  have exponent : Int.log 2 x + 1 ≤ f.precision + f.lastBit x := by
    have := le_max_right f.least (Int.log 2 x - (f.precision - 1))
    unfold Format.lastBit
    omega
  rw [div_le_iff₀ (two_zpow_pos _)]
  refine log.le.trans ?_
  push_cast
  rw [← zpow_natCast,← zpow_add₀ (by decide)]
  exact zpow_le_zpow_right₀ (by decide) exponent

/-- What is rounded is a number of the format. -/
theorem round_round {x y : ℚ} (positive : 0 ≤ x) (rounded : f.round x = some y) : f.round y = some y := by
  unfold Format.round at rounded
  split_ifs at rounded with range
  obtain rfl := Option.some.inj rounded
  have least : f.least ≤ f.lastBit x := le_max_left ..
  have most := nearestEven_le scaled_le (div_nonneg positive (two_zpow_pos (f.lastBit x)).le)
  rcases most.lt_or_eq with fits | carry
  · exact round_exact fits least range
  · rw [Format.nearest] at range ⊢
    have bits := f.positive
    obtain ⟨p,precision⟩ : ∃ p, f.precision = p + 1 := ⟨f.precision - 1,by omega⟩
    have half : ((2^f.precision : ℕ) : ℚ) * 2^f.lastBit x = (2^p : ℕ) * 2^(f.lastBit x + 1) := by
      rw [precision,zpow_add₀ (by decide)]
      push_cast
      ring
    rw [carry,half] at range ⊢
    refine round_exact ?_ (by omega) range
    rw [precision]
    exact Nat.pow_lt_pow_right (by decide) (by omega)

theorem round_natCast {n : ℕ} (small : n < 2^f.precision) : f.round n = some n := by
  have range : (n : ℚ) < f.limit := by
    have below : (n : ℚ) < 2^(f.precision : ℤ) := by
      rw [zpow_natCast]
      exact_mod_cast small
    have above := f.above
    exact below.trans_le (zpow_le_zpow_right₀ (by decide) (by omega))
  simpa using @round_exact f n 0 small f.below (by simpa using range)

theorem round_nonneg {x y : ℚ} (rounded : f.round x = some y) : 0 ≤ y := by
  unfold Format.round at rounded
  split_ifs at rounded
  obtain rfl := Option.some.inj rounded
  exact mul_nonneg (Nat.cast_nonneg _) (two_zpow_pos _).le

end

/-! ## The shortest decimal -/

section
variable {f : Format} {x : ℚ}

theorem digitsAt_round {q : ℤ} {found : ℕ × ℤ} (here : f.digitsAt x q = some found) :
    f.round ((found.1 : ℚ) * 10^found.2) = some x := by
  obtain ⟨c,chosen,rfl⟩ := Option.map_eq_some_iff.mp here
  simpa using List.find?_some chosen

/-- A number of the format has its digits, the last of them at the least exponent or before. -/
theorem digitsAt_least (rounded : f.round x = some x) : (f.digitsAt x f.least).isSome := by
  obtain ⟨s,e,least,same⟩ : ∃ (s : ℕ) (e : ℤ), f.least ≤ e ∧ x = s * 2^e := by
    unfold Format.round at rounded
    split_ifs at rounded
    exact ⟨_,_,le_max_left ..,(Option.some.inj rounded).symm⟩
  obtain ⟨k,apart⟩ := Int.eq_ofNat_of_zero_le (Int.sub_nonneg_of_le least)
  obtain ⟨l,low⟩ := Int.eq_ofNat_of_zero_le (Int.neg_nonneg_of_nonpos f.below)
  have whole : x / 10^f.least = ((s * 2^k * 5^l : ℕ) : ℚ) := by
    have five : (2 : ℚ)^(-f.least) * 5^(-f.least) = 10^(-f.least) := by
      rw [← mul_zpow]
      norm_num
    have split : (2 : ℚ)^e * 10^(-f.least) = 2^(e - f.least) * 5^(-f.least) := by
      rw [← five,← mul_assoc,← zpow_add₀ (by decide),sub_eq_add_neg]
    rw [same,div_eq_mul_inv,← zpow_neg,mul_assoc,split,apart,low]
    push_cast
    rw [zpow_natCast,zpow_natCast,mul_assoc]
  have back : ((s * 2^k * 5^l : ℕ) : ℚ) * 10^f.least = x := by
    rw [← whole,div_mul_cancel₀ _ (zpow_pos (by decide) f.least).ne']
  rw [Format.digitsAt,Option.isSome_map,List.find?_isSome]
  refine ⟨_,List.mem_cons_self,?_⟩
  rw [whole,nearestEven_natCast,back,rounded]
  simp

/-- The shortest decimal of a number is read as that number. -/
theorem round_shortest (rounded : f.round x = some x) :
    f.round (((f.shortest x).1 : ℚ) * 10^(f.shortest x).2) = some x := by
  have found : ((List.range (Format.wholeDigits x + f.least.natAbs + 1)).findSome?
      (fun i : ℕ => f.digitsAt x (Format.wholeDigits x - i))).isSome := by
    rw [List.findSome?_isSome_iff]
    refine ⟨Format.wholeDigits x + f.least.natAbs,List.mem_range.mpr (Nat.lt_succ_self _),?_⟩
    have last : (Format.wholeDigits x : ℤ) - ((Format.wholeDigits x + f.least.natAbs : ℕ) : ℤ) = f.least := by
      have low := f.below
      omega
    rw [last]
    exact digitsAt_least rounded
  obtain ⟨pair,here⟩ := Option.isSome_iff_exists.mp found
  obtain ⟨i,-,digits⟩ := List.exists_of_findSome?_eq_some here
  rw [Format.shortest,here]
  exact digitsAt_round digits

end
end Zasper.Floats
