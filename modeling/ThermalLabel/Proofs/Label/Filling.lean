import ThermalLabel.Label.Wrap

/-!
# Emissions that are filled in

An emission may depend on one text alone: its fragments are frames that are filled with the text,
and its notices and its end are the same for every text.  Placing the lines of a text gives such an
emission if writing a line gives such a frame.
-/
namespace ThermalLabel

/-- The fragments are frames of a certain kind, filled with the text, and all else is the same for
every text. -/
def Emission.FilledBy {α : Type} (fill : Text → α → Text) (kind : α → Prop)
    (emission : Text → Emission) : Prop :=
  ∃ (frames : List α) (notices : List Notice) (outcome : Except Fault Outcome),
    (∀ frame ∈ frames, kind frame) ∧
      ∀ t, emission t = ⟨frames.map fun frame => .text (fill t frame), notices, outcome⟩

section Filling

variable {α : Type} {fill : Text → α → Text} {kind : α → Prop}

namespace Emission.FilledBy

theorem const {e : Emission} (h : e.fragments = []) : FilledBy fill kind fun _ => e :=
  ⟨[], e.notices, e.outcome, by simp, fun _ => by rw [List.map_nil, ← h]⟩

theorem cons {frame : α} {next : Text → Emission} (hframe : kind frame)
    (h : FilledBy fill kind next) :
    FilledBy fill kind fun t => .cons (fill t frame) (next t) := by
  obtain ⟨frames, notices, outcome, hframes, hnext⟩ := h
  refine ⟨frame :: frames, notices, outcome, List.forall_mem_cons.mpr ⟨hframe, hframes⟩,
    fun t => ?_⟩
  simp only [hnext, Emission.cons, List.map_cons]

/-- A single fragment, or none if it cannot be written. -/
theorem one {r : Except Fault α} (h : ∀ frame, r = .ok frame → kind frame) :
    FilledBy fill kind fun t => .one (r.map (fill t)) := by
  cases r with
  | error f => exact const rfl
  | ok frame => exact ⟨[frame], [], .ok .same, by simpa using h frame rfl, fun _ => rfl⟩

end Emission.FilledBy

namespace Wrap

open Emission (FilledBy)

variable {write : Value → Text → Except Fault α}

theorem place_filled (hwrite : ∀ y s frame, write y s = .ok frame → kind frame)
    (interval maxY : Value) (rest : List (List Word)) (y : Value) :
    FilledBy fill kind fun t =>
      place (fun y s => (write y s).map (fill t)) interval maxY y rest := by
  induction rest generalizing y with
  | nil => exact .const rfl
  | cons line rest ih =>
    simp only [place]
    cases hline : write y (lineText line) with
    | error f => exact .const rfl
    | ok frame =>
      simp only [Except.map]
      refine .cons (hwrite _ _ _ hline) ?_
      split
      · exact .const rfl
      · split
        · exact .const rfl
        · split
          · exact .const rfl
          · exact .const rfl
          · exact ih _

theorem text_filled (hwrite : ∀ y s frame, write y s = .ok frame → kind frame)
    (limit interval maxY y : Value) (s : Text) :
    FilledBy fill kind fun t =>
      text (fun y s => (write y s).map (fill t)) limit interval maxY y s := by
  unfold text
  split
  · exact .const rfl
  · split
    · exact .const rfl
    · split
      · cases hline : write y s with
        | error f =>
          simp only [hline, Except.map]
          exact .const rfl
        | ok frame =>
          simp only [hline, Except.map]
          exact .cons (hwrite _ _ _ hline) (.const rfl)
      · exact place_filled hwrite interval maxY _ y

end Wrap

end Filling

end ThermalLabel
