import Mathlib.Logic.Function.Basic
import ThermalLabel.Escape

/-!
# Escaped texts are read back

Escaping replaces two code points, the underscore first and the space after it, and the second pass
also runs over what the first one put in.  It comes to the same as escaping the code points one by
one.  Reading an escaped field gives the text back, and what can be the result of escaping is known
from the field alone: it has no space, and every underscore begins one of the two codes.
-/
namespace ThermalLabel.Escape

/-- The text with another one in place of each occurrence of a code point. -/
def replace (old : CodePoint) (new s : Text) : Text :=
  s.flatMap fun c => if c = old then new else [c]

theorem encode_cons (c : CodePoint) (s : Text) : encode (c :: s) = encodePoint c ++ encode s := rfl

theorem encodePoint_other {c : CodePoint} (hunderscore : c ≠ .char '_') (hspace : c ≠ .char ' ') :
    encodePoint c = [c] := by
  rw [encodePoint, if_neg hunderscore, if_neg hspace]

/-- The second pass leaves what the first one put in as it is. -/
theorem encode_eq_replace (s : Text) :
    encode s = replace ' ' "_20" (replace '_' "_5F" s) := by
  rw [encode, replace, replace, List.flatMap_assoc]
  congr 1
  funext c
  by_cases hunderscore : c = .char '_'
  · subst hunderscore
    rfl
  · rw [if_neg hunderscore, List.flatMap_singleton, encodePoint, if_neg hunderscore]
    rfl

theorem decode_code {high low : Char} {h l : Nat} (hhigh : Text.hexValue? high = some h)
    (hlow : Text.hexValue? low = some l) (t : Text) :
    decode (.char '_' :: .char high :: .char low :: t) =
      (decode t).map (.ofNat (16 * h + l) :: ·) := by
  rw [decode, hhigh, hlow]
  cases decode t <;> rfl

theorem decode_encodePoint_append (c : CodePoint) (t : Text) :
    decode (encodePoint c ++ t) = (decode t).map (c :: ·) := by
  by_cases hunderscore : c = .char '_'
  · subst hunderscore
    exact decode_code (h := 5) (l := 15) rfl rfl t
  by_cases hspace : c = .char ' '
  · subst hspace
    exact decode_code (h := 2) (l := 0) rfl rfl t
  rw [encodePoint_other hunderscore hspace, List.singleton_append, decode]
  · rw [if_neg hunderscore]
  · rintro high low rest rfl
    exact absurd rfl hunderscore

/-- Reading an escaped field gives the text back. -/
theorem decode_encode (s : Text) : decode (encode s) = some s := by
  induction s with
  | nil => rfl
  | cons c rest ih => rw [encode_cons, decode_encodePoint_append, ih, Option.map_some]

/-- A field without spaces in which every underscore begins the code of an underscore or of a
space. -/
structure IsEscaped (t : Text) : Prop where
  spaceless : .char ' ' ∉ t
  coded : ∀ before after, t = before ++ .char '_' :: after →
    Text.ofString "5F" <+: after ∨ Text.ofString "20" <+: after

theorem IsEscaped.append {s t : Text} (hs : IsEscaped s) (ht : IsEscaped t) :
    IsEscaped (s ++ t) where
  spaceless h := (List.mem_append.mp h).elim hs.spaceless ht.spaceless
  coded before after h := by
    rw [List.append_eq_append_iff] at h
    rcases h with ⟨front, -, htail⟩ | ⟨back, hfront, hback⟩
    · exact ht.coded front after htail
    · cases back with
      | nil => exact ht.coded [] after hback.symm
      | cons c back =>
        obtain ⟨rfl, rfl⟩ := List.cons.inj hback
        exact (hs.coded before back hfront).imp (·.trans (List.prefix_append _ _))
          (·.trans (List.prefix_append _ _))

theorem IsEscaped.of_append {s t : Text} (h : IsEscaped (s ++ t)) : IsEscaped t where
  spaceless ht := h.spaceless (List.mem_append_right s ht)
  coded before after ht := h.coded (s ++ before) after (by rw [ht, List.append_assoc])

theorem isEscaped_code {first second : Char} (hfirst : first ≠ '_' ∧ first ≠ ' ')
    (hsecond : second ≠ '_' ∧ second ≠ ' ')
    (h : Text.ofString "5F" <+: [.char first, .char second] ∨
      Text.ofString "20" <+: [.char first, .char second]) :
    IsEscaped [.char '_', .char first, .char second] := by
  refine ⟨by simp [hfirst.2.symm, hsecond.2.symm], fun before after hsplit => ?_⟩
  -- Nothing but the first code point is an underscore.
  rcases before with _ | ⟨_, _ | ⟨_, _ | ⟨_, _⟩⟩⟩
  · simp only [List.nil_append, List.cons.injEq, true_and] at hsplit
    rwa [← hsplit]
  all_goals simp_all

theorem isEscaped_encodePoint (c : CodePoint) : IsEscaped (encodePoint c) := by
  by_cases hunderscore : c = .char '_'
  · subst hunderscore
    exact isEscaped_code (by decide) (by decide) (.inl (List.prefix_refl _))
  by_cases hspace : c = .char ' '
  · subst hspace
    exact isEscaped_code (by decide) (by decide) (.inr (List.prefix_refl _))
  rw [encodePoint_other hunderscore hspace]
  refine ⟨by simpa using Ne.symm hspace, fun before after hsplit => ?_⟩
  rcases before with _ | ⟨_, _ | ⟨_, _⟩⟩ <;> simp_all

theorem isEscaped_encode (s : Text) : IsEscaped (encode s) := by
  induction s with
  | nil => exact ⟨List.not_mem_nil, fun before after h => by simp [encode] at h⟩
  | cons c rest ih => exact (isEscaped_encodePoint c).append ih

theorem IsEscaped.underscore {t : Text} (h : IsEscaped (.char '_' :: t)) :
    ∃ c rest, .char '_' :: t = encodePoint c ++ rest := by
  rcases h.coded [] t rfl with ⟨rest, rfl⟩ | ⟨rest, rfl⟩
  · exact ⟨.char '_', rest, rfl⟩
  · exact ⟨.char ' ', rest, rfl⟩

/-- Every field of this form is the result of escaping. -/
theorem exists_encode_eq {t : Text} (h : IsEscaped t) : ∃ s, encode s = t := by
  induction hlength : t.length using Nat.strongRecOn generalizing t with
  | _ n ih =>
  cases t with
  | nil => exact ⟨[], rfl⟩
  | cons c t =>
    obtain ⟨d, rest, hd⟩ : ∃ d rest, c :: t = encodePoint d ++ rest := by
      by_cases hunderscore : c = .char '_'
      · subst hunderscore
        exact h.underscore
      · have hspace : c ≠ .char ' ' := by
          rintro rfl
          exact h.spaceless List.mem_cons_self
        exact ⟨c, t, by rw [encodePoint_other hunderscore hspace, List.singleton_append]⟩
    have hne : 0 < (encodePoint d).length := by
      unfold encodePoint
      split
      · exact Nat.succ_pos _
      · split <;> exact Nat.succ_pos _
    rw [hd] at h hlength ⊢
    rw [List.length_append] at hlength
    obtain ⟨s, rfl⟩ := ih rest.length (by omega) h.of_append rfl
    exact ⟨d :: s, rfl⟩

/-- Escaping is exactly undone by reading.  The two passes of replacement escape each code point by
itself and leave all others in place; so escaping takes different texts to different fields and
parts to parts, also where the text looks like an escaped one. -/
theorem encode_exact :
    (∀ s, decode (encode s) = some s) ∧
    (∀ s, encode s = replace ' ' "_20" (replace '_' "_5F" s)) ∧
    (∀ t, (∃ s, encode s = t) ↔ IsEscaped t) ∧
    (∀ before c after, c ≠ .char '_' → c ≠ .char ' ' →
      encode (before ++ c :: after) = encode before ++ c :: encode after) ∧
    Function.Injective encode ∧
    ∀ s t, encode (s ++ t) = encode s ++ encode t := by
  refine ⟨decode_encode, encode_eq_replace, fun t => ⟨?_, exists_encode_eq⟩, ?_, ?_, encode_append⟩
  · rintro ⟨s, rfl⟩
    exact isEscaped_encode s
  · intro before c after hunderscore hspace
    rw [encode_append, encode_cons, encodePoint_other hunderscore hspace, List.singleton_append]
  · intro s t h
    have hread : some s = some t := by rw [← decode_encode, h, decode_encode]
    exact Option.some.inj hread

/-- A text that looks escaped, and has an umlaut between two of its codes. -/
def lookalike : Text :=
  "_5FÄ_20"

theorem encode_exact_lookalike : encode lookalike = "_5F5FÄ_5F20" ∧
    encode ("_5F" ++ .char 'Ä' :: Text.ofString "_20") =
      encode "_5F" ++ .char 'Ä' :: encode "_20" ∧
    decode (encode lookalike) = some lookalike := by
  obtain ⟨hread, -, -, hkeep, -, -⟩ := encode_exact
  exact ⟨by decide, hkeep "_5F" 'Ä' "_20" (by decide) (by decide), hread lookalike⟩

end ThermalLabel.Escape
