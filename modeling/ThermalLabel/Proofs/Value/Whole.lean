import ThermalLabel.Value.Arithmetic
import ThermalLabel.Value.Order
import ThermalLabel.Value.Text

/-!
# Whole values

Integers and members of enumerations are whole: they are ordered, added and subtracted as the
integers that they are.  The other half of this module is about writing.  Only an integer with
too many digits cannot be written, so a value is written as soon as all integers in it are short
enough.
-/
namespace ThermalLabel.Value

/-- The integer that a value is, truth values apart. -/
def whole? : Value → Option Int
  | integer n => some n
  | member m => some m.number
  | _ => none

mutual

/-- The integers that are written out when a value is shown. -/
def integers : Value → List Int
  | integer n => [n]
  | list items => itemIntegers items
  | object fields => fieldIntegers fields
  | _ => []

def itemIntegers : List Value → List Int
  | [] => []
  | v :: rest => v.integers ++ itemIntegers rest

def fieldIntegers : List (Text × Value) → List Int
  | [] => []
  | (_, v) :: rest => v.integers ++ fieldIntegers rest

end

/-- No integer in the value has too many digits to be written. -/
def Short (v : Value) : Prop :=
  ∀ n ∈ v.integers, Number.writable n

instance (v : Value) : Decidable v.Short :=
  inferInstanceAs (Decidable (∀ n ∈ v.integers, Number.writable n))

theorem short_integer {n : Int} : Short (.integer n) ↔ Number.writable n := by
  simp [Short, integers]

theorem short_member (m : Member) : Short (.member m) := by
  simp [Short, integers]

@[simp] theorem short_text (s : Text) : Short (.text s) := by
  simp [Short, integers]

mutual

theorem quoted_of_short (v : Value) (h : ∀ n ∈ v.integers, Number.writable n) :
    ∃ s, v.quoted = .ok s := by
  cases v with
  | integer n =>
    have hn := h n (by simp [integers])
    simp [quoted, integerText, hn]
  | list items =>
    obtain ⟨parts, hp⟩ := quotedItems_of_short items (by simpa [integers] using h)
    simp [quoted, hp, Except.map]
  | object fields =>
    obtain ⟨parts, hp⟩ := quotedFields_of_short fields (by simpa [integers] using h)
    simp [quoted, hp, Except.map]
  | _ => simp [quoted]

theorem quotedItems_of_short (items : List Value)
    (h : ∀ n ∈ itemIntegers items, Number.writable n) : ∃ parts, quotedItems items = .ok parts := by
  cases items with
  | nil => simp [quotedItems]
  | cons v rest =>
    simp only [itemIntegers, List.mem_append] at h
    obtain ⟨s, hs⟩ := quoted_of_short v fun n hn => h n (Or.inl hn)
    obtain ⟨parts, hp⟩ := quotedItems_of_short rest fun n hn => h n (Or.inr hn)
    simp [quotedItems, hs, hp, bind, Except.bind, pure, Except.pure]

theorem quotedFields_of_short (fields : List (Text × Value))
    (h : ∀ n ∈ fieldIntegers fields, Number.writable n) :
    ∃ parts, quotedFields fields = .ok parts := by
  cases fields with
  | nil => simp [quotedFields]
  | cons field rest =>
    obtain ⟨key, v⟩ := field
    simp only [fieldIntegers, List.mem_append] at h
    obtain ⟨s, hs⟩ := quoted_of_short v fun n hn => h n (Or.inl hn)
    obtain ⟨parts, hp⟩ := quotedFields_of_short rest fun n hn => h n (Or.inr hn)
    simp [quotedFields, hs, hp, bind, Except.bind, pure, Except.pure]

end

theorem toText_of_short {v : Value} (h : v.Short) : ∃ s, v.toText = .ok s := by
  cases v with
  | text s => exact ⟨s, rfl⟩
  | member m => exact ⟨_, rfl⟩
  | decimal d => exact ⟨_, rfl⟩
  | _ => exact quoted_of_short _ h

theorem integer?_of_whole? {v : Value} {n : Int} (h : v.whole? = some n) :
    v.integer? = some n := by
  cases v <;> simp_all [whole?, integer?]

theorem isSignaling_of_whole? {v : Value} {n : Int} (h : v.whole? = some n) :
    v.isSignaling = false := by
  cases v <;> simp_all [whole?, isSignaling]

theorem order_whole {a b : Value} {m n : Int} (ha : a.whole? = some m) (hb : b.whole? = some n) :
    order a b = .ok (some (compare m n)) := by
  have h : compareNumbers a b = some (.ok (some (compare m n))) := by
    simp [compareNumbers, integer?_of_whole? ha, integer?_of_whole? hb]
  cases a <;> cases b <;> simp_all [whole?, order]

theorem add_whole {a b : Value} {m n : Int} (ha : a.whole? = some m) (hb : b.whole? = some n) :
    a.add b = .ok (.integer (m + n)) := by
  cases a <;> cases b <;> simp_all [whole?, add, combine, integer?]

theorem sub_whole {a b : Value} {m n : Int} (ha : a.whole? = some m) (hb : b.whole? = some n) :
    a.sub b = .ok (.integer (m - n)) := by
  simp [sub, combine, integer?_of_whole? ha, integer?_of_whole? hb]

theorem exceeds_whole {a b : Value} {m n : Int} (ha : a.whole? = some m)
    (hb : b.whole? = some n) : a.exceeds b = .ok (decide (n < m)) := by
  rw [exceeds, order_whole ha hb]
  have h : (some (compare m n) == some Ordering.gt) = decide (n < m) := by
    rw [Bool.eq_iff_iff]
    simp [Int.compare_eq_gt]
  simp [Except.map, h]

/-- A whole value limits lengths as the integer that it is. -/
theorem limit_whole {v : Value} {w : Int} (h : v.whole? = some w) :
    v.limit = .ok fun n => decide ((n : Int) ≤ w) := by
  rw [limit, order_whole (a := .integer 0) rfl h]
  simp only [Except.map, Except.ok.injEq]
  funext n
  rw [order_whole (a := .integer n) rfl h]
  cases hc : compare (n : Int) w with
  | lt => simpa using Int.le_of_lt (Int.compare_eq_lt.mp hc)
  | eq => simpa using Int.le_of_eq (Int.compare_eq_eq.mp hc)
  | gt => simpa using Int.compare_eq_gt.mp hc

end ThermalLabel.Value
