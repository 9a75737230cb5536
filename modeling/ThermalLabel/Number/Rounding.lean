/-!
# Rounding to nearest

`divEven a b` is the integer nearest to `a / b`; a quotient halfway between two integers goes
to the even one.
-/
namespace ThermalLabel.Number

def divEven (a b : Nat) : Nat :=
  let q := a / b
  let r := a % b
  if 2 * r < b then q
  else if b < 2 * r then q + 1
  else q + q % 2

/-- The result is at most half a unit away from the quotient. -/
theorem divEven_near (a b : Nat) (h : 0 < b) :
    2 * a ≤ 2 * (divEven a b * b) + b ∧ 2 * (divEven a b * b) ≤ 2 * a + b := by
  have hd : b * (a / b) + a % b = a := Nat.div_add_mod a b
  have hm : a % b < b := Nat.mod_lt a h
  have hc : b * (a / b) = a / b * b := Nat.mul_comm _ _
  unfold divEven
  dsimp only
  split
  · omega
  · split
    · rw [Nat.add_mul]
      omega
    · rcases Nat.mod_two_eq_zero_or_one (a / b) with he | he
      · rw [he, Nat.add_zero]
        omega
      · rw [he, Nat.add_mul]
        omega

/-- A quotient halfway between two integers goes to the even one. -/
theorem divEven_tie (a b : Nat) (h : 2 * (a % b) = b) : divEven a b % 2 = 0 := by
  have h1 : ¬ 2 * (a % b) < b := by omega
  have h2 : ¬ b < 2 * (a % b) := by omega
  simp only [divEven, h1, h2, if_false]
  omega

end ThermalLabel.Number
