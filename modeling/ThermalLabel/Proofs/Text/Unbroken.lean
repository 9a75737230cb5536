import ThermalLabel.Text.Quoted

/-!
# Texts without lone halves

A text has a form in octets when no half of a pair stands alone in it.  Whatever comes from
characters is such a text, and so is everything that is quoted, for quoting escapes the halves.
-/
namespace ThermalLabel.Text

/-- No half of a pair stands alone in the text. -/
def Unbroken (t : Text) : Prop :=
  ∀ c ∈ t, ∃ d : Char, c = .char d

variable {s t : Text}

instance (t : Text) : Decidable t.Unbroken :=
  decidable_of_iff (t.all fun c => c.char?.isSome) <| by
    rw [List.all_eq_true]
    refine forall₂_congr fun c _ => ?_
    cases c <;> simp [CodePoint.char?]

theorem unbroken_ofChars (cs : List Char) : Unbroken (ofChars cs) := by
  intro c hc
  obtain ⟨d, -, rfl⟩ := List.mem_map.mp hc
  exact ⟨d, rfl⟩

@[simp] theorem unbroken_ofString (s : String) : Unbroken (ofString s) :=
  unbroken_ofChars s.toList

theorem unbroken_ofNat (n : Nat) : Unbroken (ofNat n) :=
  unbroken_ofString _

theorem unbroken_nil : Unbroken [] := by
  intro c hc
  cases hc

theorem unbroken_cons {c : CodePoint} :
    Unbroken (c :: t) ↔ (∃ d : Char, c = .char d) ∧ Unbroken t :=
  List.forall_mem_cons

theorem unbroken_append : Unbroken (s ++ t) ↔ Unbroken s ∧ Unbroken t := by
  simp only [Unbroken, List.mem_append, or_imp, forall_and]

theorem Unbroken.append (hs : Unbroken s) (ht : Unbroken t) : Unbroken (s ++ t) :=
  unbroken_append.mpr ⟨hs, ht⟩

theorem Unbroken.of_subset (ht : Unbroken t) (h : s ⊆ t) : Unbroken s :=
  fun c hc => ht c (h hc)

theorem unbroken_flatMap {α : Type} {items : List α} {f : α → Text}
    (h : ∀ a ∈ items, Unbroken (f a)) : Unbroken (items.flatMap f) := by
  intro c hc
  obtain ⟨a, ha, hc⟩ := List.mem_flatMap.mp hc
  exact h a ha c hc

theorem unbroken_flatten {parts : List Text} (h : ∀ part ∈ parts, Unbroken part) :
    Unbroken parts.flatten := by
  intro c hc
  obtain ⟨part, hpart, hc⟩ := List.mem_flatten.mp hc
  exact h part hpart c hc

theorem unbroken_join {separator : Text} {parts : List Text} (hs : Unbroken separator)
    (h : ∀ part ∈ parts, Unbroken part) : Unbroken (join separator parts) := by
  apply unbroken_flatten
  intro part hpart
  induction parts with
  | nil => cases hpart
  | cons first rest ih =>
    cases rest with
    | nil => exact h part hpart
    | cons second rest =>
      rw [List.intersperse_cons_cons, List.mem_cons, List.mem_cons] at hpart
      rcases hpart with rfl | rfl | hpart
      · exact h part List.mem_cons_self
      · exact hs
      · exact ih (fun p hp => h p (List.mem_cons_of_mem first hp)) hpart

/-! ### Quoting -/

/-- A half does not print, so it is escaped. -/
theorem isPrintable_half (i : Fin 0x800) : isPrintable (.half i) = false := by
  have hrange : (⟨0xd7fc, 0xf8ff⟩ : CodeRange) ∈ unprintableRanges := by decide +kernel
  have hlt := i.isLt
  have hcode : CodePoint.toNat (.half i) = 0xd800 + i := rfl
  have hin : inRanges unprintableRanges (CodePoint.toNat (.half i)) = true := by
    rw [inRanges, List.any_eq_true]
    refine ⟨_, hrange, ?_⟩
    simp only [hcode, Bool.and_eq_true, decide_eq_true_eq]
    omega
  have hhigh : ¬ CodePoint.toNat (.half i) < 0x7f := by omega
  simp [isPrintable, hhigh, hin]

theorem unbroken_escapeQuoted (mark : Char) (c : CodePoint) : Unbroken (escapeQuoted mark c) := by
  have hpair : ∀ d e : Char, Unbroken [.char d, .char e] := fun d e => unbroken_ofChars [d, e]
  unfold escapeQuoted
  split
  · rename_i h
    rcases h with rfl | rfl
    · exact hpair _ _
    · exact hpair _ _
  split
  · exact hpair _ _
  split
  · exact hpair _ _
  split
  · exact hpair _ _
  split
  · rename_i hprintable
    cases c with
    | char c => exact unbroken_ofChars [c]
    | half i =>
      rw [isPrintable_half] at hprintable
      cases hprintable
  · exact unbroken_ofChars _

theorem unbroken_quoted (s : Text) : Unbroken (quoted s) := by
  refine unbroken_append.mpr ⟨unbroken_cons.mpr ⟨⟨_, rfl⟩, ?_⟩, unbroken_ofChars [quoteMark s]⟩
  exact unbroken_flatMap fun c _ => unbroken_escapeQuoted _ c

/-! ### The form in octets -/

theorem eq_ofChars_of_mapM {cs : List Char} (h : t.mapM CodePoint.char? = some cs) :
    t = ofChars cs := by
  induction t generalizing cs with
  | nil =>
    cases h
    rfl
  | cons c t ih =>
    rw [List.mapM_cons] at h
    cases c with
    | half i => cases h
    | char c =>
      cases hrest : t.mapM CodePoint.char? with
      | none =>
        simp only [hrest, CodePoint.char?] at h
        cases h
      | some rest =>
        simp only [hrest, CodePoint.char?] at h
        cases h
        rw [ih hrest]
        rfl

theorem toString?_eq_some_iff {result : String} :
    t.toString? = some result ↔ t = ofString result := by
  constructor
  · intro h
    obtain ⟨cs, hcs, rfl⟩ := Option.map_eq_some_iff.mp h
    rw [ofString, String.toList_ofList]
    exact eq_ofChars_of_mapM hcs
  · rintro rfl
    exact toString?_ofString result

theorem exists_toString? (h : Unbroken t) : ∃ result, t.toString? = some result := by
  obtain ⟨cs, rfl⟩ : ∃ cs, t = ofChars cs := by
    induction t with
    | nil => exact ⟨[], rfl⟩
    | cons c t ih =>
      obtain ⟨⟨d, rfl⟩, ht⟩ := unbroken_cons.mp h
      obtain ⟨cs, rfl⟩ := ih ht
      exact ⟨d :: cs, rfl⟩
  refine ⟨String.ofList cs, ?_⟩
  have h := toString?_ofString (String.ofList cs)
  rwa [ofString, String.toList_ofList] at h

theorem isSome_toString?_iff : t.toString?.isSome = true ↔ Unbroken t := by
  rw [Option.isSome_iff_exists]
  refine ⟨fun ⟨result, h⟩ => ?_, exists_toString?⟩
  rw [toString?_eq_some_iff.mp h]
  exact unbroken_ofString result

end ThermalLabel.Text
