/-!
# Code points and texts

A text is a list of code points.  A code point is a character, or half of a surrogate pair that
stands alone: the notations for texts can spell the halves one by one, so a text that was read
may hold one without the other.  Such a text can be measured, compared and quoted, but it has no
form in octets.
-/
namespace ThermalLabel

inductive CodePoint where
  | char (c : Char)
  | half (index : Fin 0x800)
  deriving DecidableEq, Repr

instance : Inhabited CodePoint := ⟨.char ' '⟩
instance : Coe Char CodePoint := ⟨.char⟩

namespace CodePoint

def firstHalf : Nat := 0xd800

def toNat : CodePoint → Nat
  | char c => c.toNat
  | half i => firstHalf + i

/-- The code point of a number below `0x110000`. -/
def ofNat (n : Nat) : CodePoint :=
  if h : firstHalf ≤ n ∧ n - firstHalf < 0x800 then half ⟨n - firstHalf, h.2⟩
  else char (Char.ofNat n)

def char? : CodePoint → Option Char
  | char c => some c
  | half _ => none

end CodePoint

abbrev Text := List CodePoint

namespace Text

def ofChars (s : List Char) : Text :=
  s.map .char

def ofString (s : String) : Text :=
  ofChars s.toList

instance : Coe String Text := ⟨ofString⟩

def ofNat (n : Nat) : Text :=
  ofString (toString n)

/-- The text as a string, which holds no halves. -/
def toString? (t : Text) : Option String :=
  (t.mapM CodePoint.char?).map String.ofList

def codes (t : Text) : List Nat :=
  t.map CodePoint.toNat

/-- Texts are ordered by their code points. -/
def order (s t : Text) : Ordering :=
  compare s.codes t.codes

def atMost (s t : Text) : Bool :=
  (order s t).isLE

def join (separator : Text) (parts : List Text) : Text :=
  separator.intercalate parts

@[simp] theorem toString?_ofString (s : String) : (ofString s).toString? = some s := by
  have h (cs : List Char) : (ofChars cs).mapM CodePoint.char? = some cs := by
    induction cs with
    | nil => rfl
    | cons c rest ih =>
      rw [ofChars, List.map_cons, List.mapM_cons]
      change ((ofChars rest).mapM CodePoint.char? >>= fun cs => some (c :: cs)) = _
      rw [ih]
      rfl
  simp [toString?, ofString, h]

end Text

end ThermalLabel
