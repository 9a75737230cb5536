import ThermalLabel.Proofs.Label.Plain
import ThermalLabel.Proofs.Script.Refusal

/-!
# Texts among the arguments of a step

Reading a step makes no texts: an argument that is a text stands in the step itself, unless it is
the operation's own, and then it is plain.
-/
namespace ThermalLabel.Script

theorem settle_eq_text {t : FieldType} {v : Value} {s : Text} (h : settle t v = .text s) :
    v = .text s := by
  cases t with
  | choice e =>
    cases ha : admits (.choice e) v with
    | true =>
      obtain ⟨chosen, n, hc, hn⟩ := choose_of_admits ha
      rw [settle, hc] at h
      cases h
      simp [Value.whole?] at hn
    | false =>
      have hrefused : Refused (some v) (choose e v) := ⟨_, choose_of_not_admits ha⟩
      obtain ⟨failure, hf⟩ := hrefused.isError
      rw [settle, hf] at h
      exact h
  | _ => exact h

theorem default_plain (op : Operation) :
    ∀ f ∈ op.fields, ∀ s, f.default? = some (.text s) → s.Plain := by
  have hfont : Text.Plain (Text.ofString "0") := by decide
  cases op <;>
    simp [Operation.fields, Field.integer, Field.text, Field.flag, Field.choice, Field.option,
      hfont]

theorem text_of_argumentsOf {op : Operation} {fields : Fields} {p : Parameter} {s : Text}
    (hs : argumentsOf op fields p = .text s) : (∃ name, (name, .text s) ∈ fields) ∨ s.Plain := by
  unfold argumentsOf at hs
  cases hfind : op.fields.find? (·.parameter == p) with
  | none => simp [hfind] at hs
  | some f =>
    rw [hfind, Option.bind_some] at hs
    cases hget : Fields.get? fields f.parameter.name with
    | some v =>
      have hsettle : settle f.type v = .text s := by simpa [hget] using hs
      rw [settle_eq_text hsettle] at hget
      exact Or.inl ⟨_, Fields.mem_of_get? hget⟩
    | none =>
      cases hd : f.default? with
      | none => simp [hget, hd] at hs
      | some d =>
        have hdefault : d = .text s := by simpa [hget, hd] using hs
        exact Or.inr (default_plain op f (List.mem_of_find?_eq_some hfind) s (by rw [hd, hdefault]))

end ThermalLabel.Script
