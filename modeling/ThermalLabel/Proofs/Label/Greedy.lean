import Mathlib.Data.List.Chain
import ThermalLabel.Proofs.Label.Placement

/-!
# Lines are filled greedily

A text that does not fit on one line is divided into lines.  No word is lost, moved or broken: the
lines one after another are the text with a space behind it.  Every line fits unless it holds a
single word, and no line but the last has room for the first word of the next one.
-/
namespace ThermalLabel

namespace Wrap

/-- The words of a text divided into lines, each filled as far as the limit admits. -/
structure Greedy (wrap : Int) (s : Text) (division : List (List Word)) : Prop where
  inOrder : division.flatten = words s
  text : division.flatMap lineText = s ++ [.char ' ']
  nonempty : ∀ line ∈ division, line ≠ []
  fits : ∀ line ∈ division, ((lineText line).length : Int) ≤ wrap ∨ ∃ w, line = [w]
  maximal : division.IsChain fun line next =>
    ∀ w ∈ next.head?, wrap < (lineText line).length + (w.length + 1)

theorem lineText_append (first second : List Word) :
    lineText (first ++ second) = lineText first ++ lineText second := by
  simp [lineText]

@[simp] theorem length_lineText_singleton (w : Word) : (lineText [w]).length = room w := by
  simp [lineText, room]

theorem flatMap_lineText (division : List (List Word)) :
    division.flatMap lineText = lineText division.flatten := by
  induction division with
  | nil => rfl
  | cons line rest ih => rw [List.flatMap_cons, List.flatten_cons, lineText_append, ih]

/-- The words of a text with a space behind each of them are the text with a space behind it. -/
theorem lineText_words (s : Text) : lineText (words s) = s ++ [.char ' '] := by
  unfold words
  induction s with
  | nil => rfl
  | cons c rest ih =>
    rw [Text.split]
    split
    · rename_i hspace
      rw [← List.singleton_append, lineText_append, ih, hspace]
      rfl
    · cases hsplit : Text.split (.char ' ') rest with
      | nil => exact absurd hsplit (Text.split_ne_nil _ _)
      | cons piece pieces =>
        rw [hsplit] at ih
        simpa [lineText] using ih

theorem breakLines_head (fits : Nat → Bool) (line : List Word) (length : Nat) (rest : List Word) :
    ∃ more others, breakLines fits line length rest = (line ++ more) :: others := by
  induction rest generalizing line length with
  | nil => exact ⟨[], [], by simp [breakLines]⟩
  | cons w rest ih =>
    rw [breakLines]
    split
    · obtain ⟨more, others, h⟩ := ih (line ++ [w]) (length + room w)
      exact ⟨w :: more, others, by simpa using h⟩
    · exact ⟨[], _, by rw [List.append_nil]⟩

/-- A line that is complete fits, or it has only its first word. -/
theorem breakLines_fits {fits : Nat → Bool} {line : List Word} (rest : List Word) (hne : line ≠ [])
    (hline : fits (lineText line).length = true ∨ ∃ w, line = [w]) :
    ∀ l ∈ breakLines fits line (lineText line).length rest,
      l ≠ [] ∧ (fits (lineText l).length = true ∨ ∃ w, l = [w]) := by
  induction rest generalizing line with
  | nil => simpa [breakLines] using ⟨hne, hline⟩
  | cons w rest ih =>
    have hlength : (lineText line).length + room w = (lineText (line ++ [w])).length := by
      rw [lineText_append, List.length_append, length_lineText_singleton]
    rw [breakLines, hlength, ← length_lineText_singleton]
    split
    · rename_i hfits
      exact ih (by simp) (.inl hfits)
    · rw [List.forall_mem_cons]
      exact ⟨⟨hne, hline⟩, ih (by simp) (.inr ⟨w, rfl⟩)⟩

/-- A line is complete when the next word, with which the next line begins, does not fit. -/
theorem breakLines_maximal (fits : Nat → Bool) (line rest : List Word) :
    (breakLines fits line (lineText line).length rest).IsChain fun l next =>
      ∀ w ∈ next.head?, fits ((lineText l).length + room w) = false := by
  induction rest generalizing line with
  | nil => exact List.isChain_singleton line
  | cons w rest ih =>
    have hlength : (lineText line).length + room w = (lineText (line ++ [w])).length := by
      rw [lineText_append, List.length_append, length_lineText_singleton]
    rw [breakLines]
    split
    · rw [hlength]
      exact ih _
    · rename_i hfull
      rw [← length_lineText_singleton, List.isChain_cons]
      refine ⟨?_, ih _⟩
      obtain ⟨more, others, hhead⟩ := breakLines_head fits [w] (lineText [w]).length rest
      rw [hhead]
      rintro _ ⟨⟩ v ⟨⟩
      simpa using hfull

theorem lines_filled (fits : Nat → Bool) (ws : List Word) :
    (∀ l ∈ lines fits ws, l ≠ [] ∧ (fits (lineText l).length = true ∨ ∃ w, l = [w])) ∧
    (lines fits ws).IsChain fun l next =>
      ∀ w ∈ next.head?, fits ((lineText l).length + room w) = false := by
  cases ws with
  | nil => exact ⟨nofun, .nil⟩
  | cons w rest =>
    rw [lines, ← length_lineText_singleton]
    exact ⟨breakLines_fits rest (List.cons_ne_nil w []) (.inr ⟨w, rfl⟩),
      breakLines_maximal fits [w] rest⟩

/-- Lines are filled greedily. -/
theorem lines_greedy (wrap : Int) (s : Text) :
    Greedy wrap s (lines (fun n => decide ((n : Int) ≤ wrap)) (words s)) := by
  obtain ⟨hlines, hmaximal⟩ := lines_filled (fun n => decide ((n : Int) ≤ wrap)) (words s)
  have hinOrder := lines_flatten (fun n => decide ((n : Int) ≤ wrap)) (words s)
  constructor
  case inOrder => exact hinOrder
  case text => rw [flatMap_lineText, hinOrder, lineText_words]
  case nonempty => exact fun l hl => (hlines l hl).1
  case fits => exact fun l hl => by simpa using (hlines l hl).2
  case maximal =>
    refine hmaximal.imp fun l next hnext w hw => ?_
    have hfull := of_decide_eq_false (hnext w hw)
    rw [room] at hfull
    omega

/-- Lines that are not empty are no more than their words. -/
theorem length_le_flatten {division : List (List Word)} (h : ∀ line ∈ division, line ≠ []) :
    division.length ≤ division.flatten.length := by
  induction division with
  | nil => exact Nat.le_refl 0
  | cons line rest ih =>
    rw [List.forall_mem_cons] at h
    have hline : 0 < line.length := List.length_pos_iff.mpr h.1
    have hrest := ih h.2
    rw [List.flatten_cons, List.length_append, List.length_cons]
    omega

/-- A text has no more lines than words. -/
theorem Greedy.length_le {wrap : Int} {s : Text} {division : List (List Word)}
    (h : Greedy wrap s division) : division.length ≤ (words s).length := by
  rw [← h.inOrder]
  exact length_le_flatten h.nonempty

end Wrap

namespace Arguments

/-- Wrapping divides a text that is not blank and does not fit into greedily filled lines, and
writes each of them like a text at its position.  It fails only where one of these texts does, and
if they can be written it ends at the last line. -/
theorem emitWrapped_divides (config : Config) (a : Arguments) {s : Text} {wrap : Int}
    (hblank : Text.blank s = false) (hlong : wrap < s.length) (y interval : Int) :
    ∃ division : List (List Wrap.Word), Wrap.Greedy wrap s division ∧ ∀ lowest,
      (emitWrapped config a s wrap y interval lowest).notices = [] →
        (emitWrapped config a s wrap y interval lowest).Performs config
          (a.lineCalls y interval (division.map Wrap.lineText)) ∧
        ((a.margin config).Short → (∃ j, (a .justification).whole? = some j) →
          (∀ k < division.length, Number.writable (y + (k : Nat) * interval)) →
          (emitWrapped config a s wrap y interval lowest).outcome =
            .ok (.endingY (.integer (y + (division.length - 1 : Nat) * interval)))) := by
  refine ⟨_, Wrap.lines_greedy wrap s, fun lowest hnone => ?_⟩
  have hlines : Wrap.lineTexts wrap s =
      (Wrap.lines (fun n => decide ((n : Int) ≤ wrap)) (Wrap.words s)).map Wrap.lineText := by
    rw [Wrap.lineTexts, if_neg (by simp [hblank]), if_neg (Int.not_le.mpr hlong)]
  rw [← hlines]
  refine ⟨emitWrapped_performs_all config a s wrap y interval lowest hnone,
    fun hmargin hjustification hwritable => ?_⟩
  rw [← List.length_map Wrap.lineText, ← hlines] at hwritable ⊢
  obtain ⟨o, ho⟩ := emitWrapped_of_writable config a s wrap y interval lowest hmargin
    hjustification fun k hk => hwritable k (Nat.lt_of_lt_of_le hk (Wrap.placedCount_le _ _ _ _))
  rw [← placedCount_of_no_notice config a s wrap y interval lowest ho hnone]
  exact (emitWrapped_ends config a s wrap y interval lowest ho).outcome

/-- A text with empty words and with a word that is longer than the limit. -/
def spacedText : Text :=
  " a  extraordinarily b"

theorem emitWrapped_divides_spaced : ∃ division : List (List Wrap.Word),
    Wrap.Greedy 5 spacedText division ∧
    (emitWrapped {} atMargin spacedText 5 0 10 1000).Performs {}
      (atMargin.lineCalls 0 10 (division.map Wrap.lineText)) ∧
    (emitWrapped {} atMargin spacedText 5 0 10 1000).outcome =
      .ok (.endingY (.integer (0 + (division.length - 1 : Nat) * 10))) := by
  have hnone : (emitWrapped {} atMargin spacedText 5 0 10 1000).notices = [] := by
    decide +kernel
  have hwords : (Wrap.words spacedText).length = 5 := by decide +kernel
  have hwritable : ∀ k < 5, Number.writable (0 + (k : Nat) * 10) := by decide +kernel
  have hblank : Text.blank spacedText = false := by decide +kernel
  have hlong : (5 : Int) < spacedText.length := by decide +kernel
  obtain ⟨division, hgreedy, hall⟩ := emitWrapped_divides {} atMargin hblank hlong 0 10
  obtain ⟨hperforms, hends⟩ := hall 1000 hnone
  refine ⟨division, hgreedy, hperforms, hends (by decide +kernel) ⟨0, rfl⟩ fun k hk => ?_⟩
  have hcount := hgreedy.length_le
  exact hwritable k (by omega)

end Arguments

end ThermalLabel
