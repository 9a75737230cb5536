import Mathlib.Algebra.GroupWithZero.Nat
import ThermalLabel.Proofs.Label.Greedy
import ThermalLabel.Proofs.Label.History

/-!
# The fewest lines

No way of dividing a text into lines that fit has fewer lines than the one that fills each line as
far as it goes.  The greedy division stays ahead: of the words that any other division puts on its
first so many lines, none is left after as many greedy lines.
-/
namespace ThermalLabel

namespace Wrap

/-- The words of a text divided into lines, each of which fits or holds a single word. -/
structure Division (wrap : Int) (s : Text) (groups : List (List Word)) : Prop where
  inOrder : groups.flatten = words s
  nonempty : ∀ group ∈ groups, group ≠ []
  fits : ∀ group ∈ groups, ((group.map room).sum : Int) ≤ wrap ∨ ∃ w, group = [w]

theorem length_lineText (line : List Word) : (lineText line).length = (line.map room).sum := by
  induction line with
  | nil => rfl
  | cons w rest ih =>
    rw [← List.singleton_append, lineText_append, List.length_append, ih,
      length_lineText_singleton, List.singleton_append, List.map_cons, List.sum_cons]

theorem sum_room_append (first second : List Word) :
    ((first ++ second).map room).sum = (first.map room).sum + (second.map room).sum := by
  rw [← length_lineText, lineText_append, List.length_append, length_lineText, length_lineText]

theorem Greedy.division {wrap : Int} {s : Text} {division : List (List Word)}
    (h : Greedy wrap s division) : Division wrap s division where
  inOrder := h.inOrder
  nonempty := h.nonempty
  fits line hline := by
    rw [← length_lineText]
    exact h.fits line hline

/-- A line that begins no later than a filled one, and fits, does not go beyond it. -/
theorem not_beyond_filled {wrap : Int} {early line more : List Word} {w : Word} (hne : line ≠ [])
    (hfull : wrap < ((lineText line).length : Int) + (w.length + 1)) :
    ¬ ((((early ++ line ++ w :: more).map room).sum : Int) ≤ wrap ∨
      ∃ v, early ++ line ++ w :: more = [v]) := by
  rintro (hfits | ⟨v, hsingle⟩)
  · have hsum : ((early ++ line ++ w :: more).map room).sum = (early.map room).sum +
        (line.map room).sum + (w.length + 1 + (more.map room).sum) := by
      rw [sum_room_append, sum_room_append, List.map_cons, List.sum_cons, room]
    rw [length_lineText] at hfull
    rw [hsum] at hfits
    omega
  · have hlength := congrArg List.length hsingle
    have hpos : 0 < line.length := List.length_pos_iff.mpr hne
    simp only [List.length_append, List.length_cons, List.length_nil] at hlength
    omega

/-- Filled lines stay ahead of any lines that fit: if those have to place some earlier words and
then the same ones, they are not fewer. -/
theorem length_le_of_filled {wrap : Int} {division groups : List (List Word)}
    (hnonempty : ∀ line ∈ division, line ≠ [])
    (hfilled : division.IsChain fun line next =>
      ∀ w ∈ next.head?, wrap < ((lineText line).length : Int) + (w.length + 1))
    (hfits : ∀ group ∈ groups, ((group.map room).sum : Int) ≤ wrap ∨ ∃ w, group = [w])
    {early : List Word} (hwords : groups.flatten = early ++ division.flatten) :
    division.length ≤ groups.length := by
  induction groups generalizing division early with
  | nil =>
    cases division with
    | nil => exact Nat.le_refl 0
    | cons line rest =>
      have hempty := (List.append_eq_nil_iff.mp hwords.symm).2
      exact absurd (List.append_eq_nil_iff.mp hempty).1 (hnonempty line List.mem_cons_self)
  | cons group groups ih =>
    cases division with
    | nil => exact Nat.zero_le _
    | cons line rest =>
      rw [List.forall_mem_cons] at hnonempty hfits
      rw [List.isChain_cons] at hfilled
      have ahead {early : List Word} (h : groups.flatten = early ++ rest.flatten) :
          (line :: rest).length ≤ (group :: groups).length :=
        Nat.succ_le_succ (ih hnonempty.2 hfilled.2 hfits.2 h)
      rw [List.flatten_cons, List.flatten_cons, ← List.append_assoc,
        List.append_eq_append_iff] at hwords
      rcases hwords with ⟨later, -, hlater⟩ | ⟨beyond, hgroup, hrest⟩
      · exact ahead hlater
      · -- The group reaches the end of the greedy line, and cannot go beyond it.
        cases beyond with
        | nil =>
          have hwords : groups.flatten = [] ++ rest.flatten := hrest.symm
          exact ahead hwords
        | cons w more =>
          cases rest with
          | nil => cases hrest
          | cons next others =>
            have hnext : w ∈ next.head? := by
              obtain ⟨first, tail, rfl⟩ :=
                List.exists_cons_of_ne_nil (hnonempty.2 next List.mem_cons_self)
              obtain ⟨rfl, -⟩ := List.cons.inj hrest
              rfl
            have hfull := hfilled.1 next rfl w hnext
            rw [hgroup] at hfits
            exact absurd hfits.1 (not_beyond_filled hnonempty.1 hfull)

/-- No division has fewer lines than the greedy one. -/
theorem Greedy.fewest {wrap : Int} {s : Text} {division groups : List (List Word)}
    (h : Greedy wrap s division) (hgroups : Division wrap s groups) :
    division.length ≤ groups.length := by
  have hwords : groups.flatten = [] ++ division.flatten := by
    rw [hgroups.inOrder, List.nil_append, h.inOrder]
  exact length_le_of_filled h.nonempty h.maximal hgroups.fits hwords

theorem Division.ne_nil {wrap : Int} {s : Text} {groups : List (List Word)}
    (h : Division wrap s groups) : groups ≠ [] := by
  rintro rfl
  exact Text.split_ne_nil _ s h.inOrder.symm

/-- The lines of a text are no more than those of any division, also if it fits on one line. -/
theorem Division.length_lineTexts_le {wrap : Int} {s : Text} {groups : List (List Word)}
    (h : Division wrap s groups) : (lineTexts wrap s).length ≤ groups.length := by
  unfold lineTexts
  split
  · exact Nat.zero_le _
  · split
    · exact List.length_pos_iff.mpr h.ne_nil
    · rw [List.length_map]
      exact (lines_greedy wrap s).fewest h

theorem linesUnder_integer (wrap : Int) (s : Text) :
    linesUnder (.integer wrap) s = lineTexts wrap s := by
  rw [linesUnder, lineTexts, Value.limit_whole (w := wrap) rfl]
  simp only [decide_eq_true_eq]

end Wrap

namespace Arguments

variable (config : Config) (a : Arguments) (s : Text) (wrap y interval : Int)

theorem emitWrapped_lineByLine (lowest : Int) :
    Wrap.LineByLine (a.writeLine config) (Wrap.lineTexts wrap s)
      (emitWrapped config a s wrap y interval lowest) := by
  rw [← Wrap.linesUnder_integer]
  exact Wrap.text_lineByLine _ _ _ _ s

/-- Wrapping uses the fewest lines.  It never writes more of them than any division of the text has
lines; and a text that is not blank and does not fit on one line has a division with exactly as many
lines as are written when none is left out. -/
theorem emitWrapped_fewest :
    (∀ lowest groups, Wrap.Division wrap s groups →
      (emitWrapped config a s wrap y interval lowest).fragments.length ≤ groups.length) ∧
    (Text.blank s = false → wrap < s.length → ∃ groups, Wrap.Division wrap s groups ∧
      ∀ lowest, (emitWrapped config a s wrap y interval lowest).notices = [] →
        (a.margin config).Short → (∃ j, (a .justification).whole? = some j) →
        (∀ k < groups.length, Number.writable (y + (k : Nat) * interval)) →
        (∃ o, (emitWrapped config a s wrap y interval lowest).outcome = .ok o) ∧
          (emitWrapped config a s wrap y interval lowest).fragments.length = groups.length) := by
  constructor
  · intro lowest groups hgroups
    have hwritten := (emitWrapped_lineByLine config a s wrap y interval lowest).each.length_eq
    have hle := hgroups.length_lineTexts_le
    rw [List.length_take] at hwritten
    omega
  · intro hblank hlong
    refine ⟨_, (Wrap.lines_greedy wrap s).division,
      fun lowest hnone hmargin hjustification hwritable => ?_⟩
    have hcount : (Wrap.lines (fun n => decide ((n : Int) ≤ wrap)) (Wrap.words s)).length =
        (Wrap.lineTexts wrap s).length := by
      rw [Wrap.lineTexts, if_neg (by simp [hblank]), if_neg (Int.not_le.mpr hlong),
        List.length_map]
    rw [hcount] at hwritable ⊢
    obtain ⟨o, ho⟩ := emitWrapped_of_writable config a s wrap y interval lowest hmargin
      hjustification fun k hk => hwritable k (Nat.lt_of_lt_of_le hk (Wrap.placedCount_le _ _ _ _))
    exact ⟨⟨o, ho⟩, (emitWrapped_lineByLine config a s wrap y interval lowest).whole o ho hnone⟩

/-- The words of `spacedText`, with the first of them on a line of its own. -/
def looseDivision : List (List Wrap.Word) :=
  [[""], ["a", ""], ["extraordinarily"], ["b"]]

theorem emitWrapped_fewest_loose : Wrap.Division 5 spacedText looseDivision ∧
    (emitWrapped {} atMargin spacedText 5 0 10 1000).fragments.length ≤ looseDivision.length ∧
    ∃ groups, Wrap.Division 5 spacedText groups ∧
      (∃ o, (emitWrapped {} atMargin spacedText 5 0 10 1000).outcome = .ok o) ∧
      (emitWrapped {} atMargin spacedText 5 0 10 1000).fragments.length = groups.length := by
  have hfits : ∀ group ∈ looseDivision,
      ((group.map Wrap.room).sum : Int) ≤ 5 ∨ group.length = 1 := by decide +kernel
  have hloose : Wrap.Division 5 spacedText looseDivision :=
    ⟨by decide +kernel, by decide, fun group hgroup =>
      (hfits group hgroup).imp_right List.length_eq_one_iff.mp⟩
  have hwords : (Wrap.words spacedText).length = 5 := by decide +kernel
  have hwritable : ∀ k < 5, Number.writable (0 + (k : Nat) * 10) := by decide +kernel
  obtain ⟨hle, hexact⟩ := emitWrapped_fewest {} atMargin spacedText 5 0 10
  obtain ⟨groups, hgroups, hcount⟩ := hexact (by decide +kernel) (by decide +kernel)
  refine ⟨hloose, hle 1000 looseDivision hloose, groups, hgroups,
    hcount 1000 (by decide +kernel) (by decide +kernel) ⟨0, rfl⟩ fun k hk => ?_⟩
  have hlength := Wrap.length_le_flatten hgroups.nonempty
  rw [hgroups.inOrder, hwords] at hlength
  exact hwritable k (by omega)

end Arguments

end ThermalLabel
