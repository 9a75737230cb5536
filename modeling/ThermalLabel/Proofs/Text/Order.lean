import Mathlib.Data.List.Basic
import ThermalLabel.Text.CodePoint

/-!
# The order of texts

Texts are linearly ordered by their code points, so sorting texts forgets the order in which they
came.
-/
namespace ThermalLabel

theorem CodePoint.ofNat_toNat (c : CodePoint) : CodePoint.ofNat c.toNat = c := by
  cases c with
  | char c =>
    have hvalid : c.toNat < 0xd800 ∨ (0xdfff < c.toNat ∧ c.toNat < 0x110000) := c.valid
    have hnot : ¬ (firstHalf ≤ c.toNat ∧ c.toNat - firstHalf < 0x800) := by
      unfold firstHalf
      omega
    simp [CodePoint.ofNat, CodePoint.toNat, hnot]
  | half i =>
    have hi := i.isLt
    simp [CodePoint.ofNat, CodePoint.toNat, hi]

namespace Text

theorem codes_injective : Function.Injective codes :=
  List.map_injective_iff.mpr (Function.LeftInverse.injective CodePoint.ofNat_toNat)

theorem atMost_trans (a b c : Text) (hab : atMost a b = true) (hbc : atMost b c = true) :
    atMost a c = true := by
  unfold atMost order at *
  exact Std.TransCmp.isLE_trans hab hbc

theorem atMost_total (a b : Text) : (atMost a b || atMost b a) = true := by
  have hswap : compare b.codes a.codes = (compare a.codes b.codes).swap := Std.OrientedOrd.eq_swap
  rw [atMost, atMost, order, order, hswap]
  cases compare a.codes b.codes <;> rfl

theorem atMost_antisymm {a b : Text} (hab : atMost a b = true) (hba : atMost b a = true) : a = b :=
  codes_injective (Std.LawfulEqCmp.eq_of_compare (Std.OrientedCmp.isLE_antisymm hab hba))

/-- Sorted texts do not tell in which order they came. -/
theorem mergeSort_eq_of_perm {names names' : List Text} (h : names.Perm names') :
    names.mergeSort atMost = names'.mergeSort atMost := by
  refine List.Perm.eq_of_pairwise (fun a b _ _ => atMost_antisymm)
    (List.pairwise_mergeSort atMost_trans atMost_total names)
    (List.pairwise_mergeSort atMost_trans atMost_total names') ?_
  exact (names.mergeSort_perm atMost).trans (h.trans (names'.mergeSort_perm atMost).symm)

end Text

end ThermalLabel
