import Mathlib.Data.List.Basic
import ThermalLabel.Number.Double.Text

/-!
# Plain characters

Numbers of all kinds are written with plain characters: letters, digits and a few others, none of
which means anything to a printer.
-/
namespace ThermalLabel

/-- Letters, digits, and what stands between them in numbers and tokens. -/
def Text.isPlain (c : Char) : Bool :=
  c.isAlphanum || [' ', '+', ',', '-', '.', '_'].contains c

/-- The text is written with plain characters only. -/
def Text.Plain (s : Text) : Prop :=
  ∀ c ∈ s, ∃ d : Char, c = .char d ∧ isPlain d = true

instance (s : Text) : Decidable s.Plain :=
  decidable_of_iff (s.all fun c => c.char?.any Text.isPlain) <| by
    rw [List.all_eq_true]
    refine forall₂_congr fun c _ => ?_
    cases c <;> simp [CodePoint.char?]

namespace Number

open Text (isPlain)

def Plain (cs : List Char) : Prop :=
  ∀ c ∈ cs, isPlain c = true

instance (cs : List Char) : Decidable (Plain cs) :=
  decidable_of_iff (cs.all isPlain) List.all_eq_true

theorem Plain.text {cs : List Char} (h : Plain cs) : Text.Plain (Text.ofChars cs) := by
  intro c hc
  obtain ⟨d, hd, rfl⟩ := List.mem_map.mp hc
  exact ⟨d, rfl, h d hd⟩

theorem Plain.of_subset {cs ds : List Char} (h : Plain ds) (hsub : cs ⊆ ds) : Plain cs :=
  fun c hc => h c (hsub hc)

theorem plain_append {cs ds : List Char} : Plain (cs ++ ds) ↔ Plain cs ∧ Plain ds := by
  simp only [Plain, List.mem_append, or_imp, forall_and]

theorem plain_cons {c : Char} {cs : List Char} :
    Plain (c :: cs) ↔ isPlain c = true ∧ Plain cs :=
  List.forall_mem_cons

theorem plain_zeros (n : Nat) : Plain (List.replicate n '0') := by
  intro c hc
  rw [List.eq_of_mem_replicate hc]
  rfl

theorem plain_digits (n : Nat) : Plain (digits n) := by
  intro c hc
  have hdigit : c.isDigit = true := Nat.isDigit_of_mem_toDigits (by decide) (by decide) hc
  simp [isPlain, Char.isAlphanum, hdigit]

theorem plain_integerText (n : Int) : Plain (integerText n) := by
  unfold integerText
  split
  · exact plain_cons.mpr ⟨rfl, plain_digits _⟩
  · exact plain_digits _

namespace Double

theorem plain_dropZeros {ds : List Char} (h : Plain ds) (exponent : Int) :
    Plain (dropZeros ds exponent).1 := by
  refine h.of_subset fun c hc => ?_
  exact List.mem_reverse.mp (List.dropWhile_subset _ (List.mem_reverse.mp hc))

theorem plain_positional {ds : List Char} (h : Plain ds) (exponent : Int) :
    Plain (positional ds exponent) := by
  unfold positional
  split
  · exact plain_append.mpr ⟨plain_append.mpr ⟨h, plain_zeros _⟩, by decide⟩
  · dsimp only
    split
    · exact plain_append.mpr ⟨h.of_subset (List.take_subset _ _),
        plain_cons.mpr ⟨rfl, h.of_subset (List.drop_subset _ _)⟩⟩
    · exact plain_append.mpr
        ⟨plain_cons.mpr ⟨rfl, plain_cons.mpr ⟨rfl, plain_zeros _⟩⟩, h⟩

theorem plain_withExponent {ds : List Char} (h : Plain ds) (first : Int) :
    Plain (withExponent ds first) := by
  have hdigits : Plain (twoDigits first.natAbs) := by
    unfold twoDigits
    split
    · exact plain_cons.mpr ⟨rfl, plain_digits _⟩
    · exact plain_digits _
  unfold withExponent
  refine plain_append.mpr ⟨?_, plain_cons.mpr ⟨rfl, plain_cons.mpr ⟨?_, hdigits⟩⟩⟩
  · cases ds with
    | nil => exact h
    | cons d rest =>
      cases rest with
      | nil => exact h
      | cons e rest' =>
        rw [plain_cons] at h
        exact plain_cons.mpr ⟨h.1, plain_cons.mpr ⟨rfl, h.2⟩⟩
  · split <;> rfl

theorem plain_text (x : Double) : Plain x.text := by
  cases x with
  | finite s m e =>
    rw [text, plain_append]
    constructor
    · split <;> decide
    · unfold finiteText
      split
      · decide
      · have hds := plain_dropZeros (plain_digits (shortest m e).1) (shortest m e).2
        dsimp only
        split
        · exact plain_positional hds _
        · exact plain_withExponent hds _
  | infinite s => cases s <;> decide
  | nan => decide

end Double

end Number

theorem Text.plain_ofNat (n : Nat) : (Text.ofNat n).Plain := by
  rw [Text.ofNat, Text.ofString, Nat.toString_eq_ofList_toDigits, String.toList_ofList]
  exact (Number.plain_digits n).text

end ThermalLabel
