import Mathlib.Order.Bounds.Defs
import ThermalLabel.Proofs.Label.Calls
import ThermalLabel.Proofs.Label.Emission

/-!
# Where wrapped lines are placed

A wrapped text does what texts at positions do, one for each of its lines, from a position downwards
at equal distances.  The lowest position decides how many of the lines are placed and nothing else:
it stops the text at the first line, from the second on, that would lie below it.  The words of the
lines that are left out are counted in a notice, and there is no notice unless a line is left out.
-/
namespace ThermalLabel

/-! ### Calls that stand for an emission -/

/-- The emission adds to a label what the calls add one after another, and fails as they do. -/
def Emission.Performs (config : Config) (e : Emission) (calls : List Call) : Prop :=
  ∀ fragments, Document.performAll ⟨config, fragments⟩ calls =
    e.outcome.map fun _ => ⟨config, fragments ++ e.fragments⟩

/-- What fails like the first calls fails like all of them. -/
theorem Emission.Performs.of_failed {config : Config} {e : Emission} {calls : List Call} {n : Nat}
    (h : e.Performs config (calls.take n)) {f : Fault} (hf : e.outcome = .error f) :
    e.Performs config calls := by
  intro fragments
  rw [← List.take_append_drop n calls, Document.performAll_append, h fragments, hf]
  rfl

namespace Arguments

/-- The arguments of a text that is wrapped, in the orientation and justification of the given ones
and at their horizontal position. -/
def wrapping (a : Arguments) (s : Text) (wrap y interval lowest : Int) : Arguments
  | .value => .text s
  | .wrap => .integer wrap
  | .y => .integer y
  | .lineInterval => .integer interval
  | .maxY => .integer lowest
  | p => a p

/-- The arguments of a text at a position of its own. -/
def positioned (a : Arguments) (y : Value) (s : Text) : Arguments
  | .value => .text s
  | .y => y
  | p => a p

/-- The position of a line, counted from zero, together with its text. -/
def placed (y interval : Int) (k : Nat) (line : Text) : Value × Text :=
  (.integer (y + k * interval), line)

def placedCall (a : Arguments) (line : Value × Text) : Call :=
  ⟨.writeTextAt, a.positioned line.1 line.2⟩

/-- Texts at positions from `y` downwards, one interval apart. -/
def lineCalls (a : Arguments) (y interval : Int) (lines : List Text) : List Call :=
  (lines.mapIdx (placed y interval)).map a.placedCall

end Arguments

theorem performAll_placedCall (config : Config) (a : Arguments) (lines : List (Value × Text))
    (fragments : List Value) :
    Document.performAll ⟨config, fragments⟩ (lines.map a.placedCall) =
      (lines.mapM fun line =>
        textField config (a .orientation) (a .justification) (a .x) line.1 line.2).map
          fun texts => ⟨config, fragments ++ texts.map .text⟩ := by
  induction lines generalizing fragments with
  | nil => simp [Document.performAll, Except.map, pure, Except.pure]
  | cons line rest ih =>
    have hemit : Operation.emit config (a.positioned line.1 line.2) .writeTextAt =
        .one (textField config (a .orientation) (a .justification) (a .x) line.1 line.2) :=
      emit_writeTextAt config rfl
    rw [List.map_cons, Document.performAll, List.mapM_cons]
    simp only [Arguments.placedCall, Document.perform, hemit]
    cases textField config (a .orientation) (a .justification) (a .x) line.1 line.2 with
    | error f => rfl
    | ok s =>
      simp only [Emission.one, Emission.done, Document.append]
      refine (ih _).trans ?_
      cases rest.mapM fun line =>
          textField config (a .orientation) (a .justification) (a .x) line.1 line.2 with
      | error f => rfl
      | ok texts => simp [Except.map, bind, Except.bind, pure, Except.pure]

/-! ### The lines that are placed -/

namespace Wrap

theorem positions_succ (interval lowest : Int) (count : Nat) (y : Int) :
    positions interval lowest (count + 1) (.integer y) =
      .integer y :: if lowest < y + interval then []
        else positions interval lowest count (.integer (y + interval)) := rfl

/-- The number of lines that are placed, of so many from `y` downwards. -/
def placedCount (interval lowest y : Int) (count : Nat) : Nat :=
  (positions interval lowest count (.integer y)).length

@[simp] theorem placedCount_zero (interval lowest y : Int) : placedCount interval lowest y 0 = 0 :=
  rfl

theorem placedCount_of_low {interval lowest y : Int} (h : lowest < y + interval) (count : Nat) :
    placedCount interval lowest y (count + 1) = 1 := by
  rw [placedCount, positions_succ, if_pos h]
  rfl

theorem placedCount_of_room {interval lowest y : Int} (h : ¬ lowest < y + interval) (count : Nat) :
    placedCount interval lowest y (count + 1) =
      placedCount interval lowest (y + interval) count + 1 := by
  rw [placedCount, positions_succ, if_neg h, List.length_cons, placedCount]

/-- The positions from the second one on are those of the other lines, counted from zero again. -/
theorem shift_position (y interval : Int) (k : Nat) :
    y + (k + 1 : Nat) * interval = y + interval + k * interval := by
  push_cast
  rw [Int.add_mul]
  omega

/-- The lines that are placed are all lines, or those up to the first one below which there is no
room for another. -/
theorem placedCount_isLeast (interval lowest y : Int) (count : Nat) :
    IsLeast {k : Nat | k = count ∨ 1 ≤ k ∧ lowest < y + k * interval}
      (placedCount interval lowest y count) := by
  induction count generalizing y with
  | zero => exact ⟨.inl rfl, fun _ _ => Nat.zero_le _⟩
  | succ count ih =>
    by_cases hlow : lowest < y + interval
    · rw [placedCount_of_low hlow]
      refine ⟨.inr ⟨Nat.le_refl 1, by simpa using hlow⟩, ?_⟩
      rintro k (rfl | ⟨hk, -⟩)
      · exact Nat.succ_pos _
      · exact hk
    · rw [placedCount_of_room hlow]
      obtain ⟨hmem, hleast⟩ := ih (y + interval)
      refine ⟨?_, ?_⟩
      · rcases hmem with hall | ⟨hpos, hbelow⟩
        · exact .inl (congrArg (· + 1) hall)
        · exact .inr ⟨by omega, by rwa [shift_position]⟩
      · rintro k (rfl | ⟨hk, hbelow⟩)
        · exact Nat.succ_le_succ (hleast (.inl rfl))
        · obtain ⟨k, rfl⟩ := Nat.exists_eq_add_one.mpr hk
          rw [shift_position] at hbelow
          refine Nat.succ_le_succ (hleast (.inr ⟨Nat.pos_of_ne_zero ?_, hbelow⟩))
          rintro rfl
          exact hlow (by simpa using hbelow)

theorem placedCount_le (interval lowest y : Int) (count : Nat) :
    placedCount interval lowest y count ≤ count :=
  (placedCount_isLeast interval lowest y count).2 (.inl rfl)

theorem placedCount_pos (interval lowest y : Int) (count : Nat) :
    0 < placedCount interval lowest y (count + 1) := by
  by_cases hlow : lowest < y + interval
  · rw [placedCount_of_low hlow]
    exact Nat.one_pos
  · rw [placedCount_of_room hlow]
    exact Nat.succ_pos _

theorem placedCount_one (interval lowest y : Int) : placedCount interval lowest y 1 = 1 :=
  Nat.le_antisymm (placedCount_le interval lowest y 1) (placedCount_pos interval lowest y 0)

theorem zip_positions (interval lowest y : Int) (lines : List Text) :
    (positions interval lowest lines.length (.integer y)).zip lines =
      (lines.mapIdx (Arguments.placed y interval)).take
        (placedCount interval lowest y lines.length) := by
  induction lines generalizing y with
  | nil => rfl
  | cons line rest ih =>
    have hfirst : Arguments.placed y interval 0 line = (.integer y, line) := by
      simp [Arguments.placed]
    have hshift : (fun k => Arguments.placed y interval (k + 1)) =
        Arguments.placed (y + interval) interval := by
      funext k line
      rw [Arguments.placed, shift_position, Arguments.placed]
    rw [List.length_cons, positions_succ, List.mapIdx_cons, hfirst, hshift, List.zip_cons_cons]
    by_cases hlow : lowest < y + interval
    · rw [if_pos hlow, placedCount_of_low hlow]
      rfl
    · rw [if_neg hlow, placedCount_of_room hlow, List.take_succ_cons, ih]

/-! ### How a wrapped text ends -/

/-- A run that does not fail ends at its last line, and has a notice if lines are left out. -/
structure EndsAt (y interval lowest : Int) (lines : List (List Word)) (n : Nat) (e : Emission)
    (o : Outcome) : Prop where
  outcome : o = .endingY (.integer (y + (n - 1 : Nat) * interval))
  notices : e.notices =
    if n < lines.length then [⟨.integer lowest, wordCount (lines.drop n)⟩] else []

section

variable {write : Value → Text → Except Fault Text} {interval lowest y : Int} {line : List Word}
  {rest : List (List Word)} {s : Text}

theorem add_integer (y interval : Int) :
    (Value.integer y).add (.integer interval) = .ok (.integer (y + interval)) := rfl

theorem place_of_low (hs : write (.integer y) (lineText line) = .ok s) (hrest : rest ≠ [])
    (hlow : lowest < y + interval) :
    place write (.integer interval) (.integer lowest) (.integer y) (line :: rest) =
      .cons s { fragments := [], notices := [⟨.integer lowest, wordCount rest⟩],
                outcome := .ok (.endingY (.integer y)) } := by
  have hexceeds : (Value.integer (y + interval)).exceeds (.integer lowest) = .ok true := by
    rw [Value.exceeds_whole rfl rfl, decide_eq_true hlow]
  have hback : (Value.integer (y + interval)).sub (.integer interval) = .ok (.integer y) := by
    rw [Value.sub_whole rfl rfl, Int.add_sub_cancel]
  rw [place, hs]
  simp only [List.isEmpty_eq_false_iff.mpr hrest, Bool.false_eq_true, if_false, add_integer,
    hexceeds, cut, hback]
  rfl

theorem place_of_room (hs : write (.integer y) (lineText line) = .ok s) (hrest : rest ≠ [])
    (hroom : ¬ lowest < y + interval) :
    place write (.integer interval) (.integer lowest) (.integer y) (line :: rest) =
      .cons s (place write (.integer interval) (.integer lowest) (.integer (y + interval))
        rest) := by
  have hexceeds : (Value.integer (y + interval)).exceeds (.integer lowest) = .ok false := by
    rw [Value.exceeds_whole rfl rfl, decide_eq_false hroom]
  rw [place, hs]
  simp only [List.isEmpty_eq_false_iff.mpr hrest, Bool.false_eq_true, if_false, add_integer,
    hexceeds]

theorem place_endsAt {lines : List (List Word)} {o : Outcome}
    (h : (place write (.integer interval) (.integer lowest) (.integer y) lines).outcome = .ok o) :
    EndsAt y interval lowest lines (placedCount interval lowest y lines.length)
      (place write (.integer interval) (.integer lowest) (.integer y) lines) o := by
  induction lines generalizing y with
  | nil =>
    obtain rfl := Except.ok.inj h
    exact ⟨by simp, rfl⟩
  | cons line rest ih =>
    cases hs : write (.integer y) (lineText line) with
    | error f =>
      rw [place, hs] at h
      cases h
    | ok s =>
      cases hrest : rest with
      | nil =>
        subst hrest
        rw [place, hs] at h ⊢
        obtain rfl := Except.ok.inj h
        have hone := placedCount_one interval lowest y
        exact ⟨by simp [hone], by simp [hone, Emission.cons]⟩
      | cons line' rest' =>
        rw [← hrest]
        have hne : rest ≠ [] := by simp [hrest]
        by_cases hlow : lowest < y + interval
        · rw [place_of_low hs hne hlow] at h ⊢
          obtain rfl := Except.ok.inj h
          have hpos : 0 < rest.length := List.length_pos_iff.mpr hne
          rw [List.length_cons, placedCount_of_low hlow]
          exact ⟨by simp, by simp [Emission.cons, hpos]⟩
        · rw [place_of_room hs hne hlow] at h ⊢
          obtain ⟨rfl, hnotices⟩ := ih h
          rw [List.length_cons, placedCount_of_room hlow]
          obtain ⟨n, hn⟩ : ∃ n, placedCount interval lowest (y + interval) rest.length = n + 1 := by
            rw [hrest]
            exact Nat.exists_eq_add_one.mpr (placedCount_pos interval lowest (y + interval) _)
          rw [hn] at hnotices ⊢
          refine ⟨?_, ?_⟩
          · rw [Nat.add_sub_cancel, Nat.add_sub_cancel, shift_position]
          · simpa [Emission.cons] using hnotices

end

/-- How a wrapped text ends of whose lines the first `n` are placed: at the last of them, or where
it began.  If lines are left out, there is one notice, which counts their words. -/
structure Ends (s : Text) (lines : List Text) (y interval lowest : Int) (n : Nat)
    (e : Emission) : Prop where
  outcome : e.outcome = .ok (.endingY (.integer (y + (n - 1 : Nat) * interval)))
  complete : n = lines.length → e.notices = []
  dropped : n < lines.length → ∃ division : List (List Word), lines = division.map lineText ∧
    division.flatten = words s ∧
    e.notices = [⟨.integer lowest, (division.drop n).flatten.length⟩]

theorem text_ends {write : Value → Text → Except Fault Text} {wrap interval lowest y : Int}
    {s : Text} {o : Outcome}
    (h : (text write (.integer wrap) (.integer interval) (.integer lowest) (.integer y) s).outcome =
      .ok o) :
    Ends s (lineTexts wrap s) y interval lowest
      (placedCount interval lowest y (lineTexts wrap s).length)
      (text write (.integer wrap) (.integer interval) (.integer lowest) (.integer y) s) := by
  have hfits : (Value.integer wrap).limit = .ok fun n => decide ((n : Int) ≤ wrap) :=
    Value.limit_whole rfl
  unfold text lineTexts at *
  by_cases hblank : Text.blank s
  · simp only [hblank, if_true] at h ⊢
    exact ⟨by simp, fun _ => rfl, nofun⟩
  · simp only [hblank, hfits, Bool.false_eq_true, if_false, decide_eq_true_eq] at h ⊢
    by_cases hshort : (s.length : Int) ≤ wrap
    · simp only [hshort, if_true] at h ⊢
      cases hs : write (.integer y) s with
      | error f =>
        rw [hs] at h
        cases h
      | ok t =>
        simp only [List.length_singleton, placedCount_one]
        exact ⟨by simp [Emission.cons], fun _ => rfl, fun hlt => absurd hlt (Nat.lt_irrefl _)⟩
    · simp only [hshort, if_false, List.length_map] at h ⊢
      obtain ⟨rfl, hnotices⟩ := place_endsAt h
      refine ⟨h, fun hall => ?_, fun hlt => ⟨_, rfl, lines_flatten _ _, ?_⟩⟩
      · rw [hnotices, if_neg]
        simp at hall
        omega
      · rw [hnotices, if_pos]
        · rfl
        · simpa using hlt

end Wrap

/-! ### A wrapped text as calls -/

namespace Arguments

variable (config : Config) (a : Arguments) (s : Text) (wrap y interval lowest : Int)

/-- What wrapping a text emits. -/
def emitWrapped : Emission :=
  Operation.emit config (a.wrapping s wrap y interval lowest) .writeTextAtWithWrap

theorem emitWrapped_eq : emitWrapped config a s wrap y interval lowest =
    Wrap.text (textField config (a .orientation) (a .justification) (a .x)) (.integer wrap)
      (.integer interval) (.integer lowest) (.integer y) s := rfl

/-- A wrapped text does what texts at the positions of its placed lines do. -/
theorem emitWrapped_performs : (emitWrapped config a s wrap y interval lowest).Performs config
    ((a.lineCalls y interval (Wrap.lineTexts wrap s)).take
      (Wrap.placedCount interval lowest y (Wrap.lineTexts wrap s).length)) := by
  intro fragments
  have hwrites : Wrap.Writes (emitWrapped config a s wrap y interval lowest)
      ((((Wrap.lineTexts wrap s).mapIdx (placed y interval)).take
        (Wrap.placedCount interval lowest y (Wrap.lineTexts wrap s).length)).mapM fun line =>
          textField config (a .orientation) (a .justification) (a .x) line.1 line.2) := by
    rw [← Wrap.zip_positions, emitWrapped_eq]
    exact Wrap.text_eq_mapM rfl rfl rfl rfl s
  rw [lineCalls, ← List.map_take, performAll_placedCall]
  cases hwritten : (((Wrap.lineTexts wrap s).mapIdx (placed y interval)).take
      (Wrap.placedCount interval lowest y (Wrap.lineTexts wrap s).length)).mapM fun line =>
        textField config (a .orientation) (a .justification) (a .x) line.1 line.2 with
  | error f =>
    rw [hwritten] at hwrites
    have hfailed : (emitWrapped config a s wrap y interval lowest).outcome = .error f := hwrites
    rw [hfailed]
    rfl
  | ok texts =>
    rw [hwritten] at hwrites
    obtain ⟨hfragments, last, hlast⟩ := hwrites
    rw [hfragments, hlast]
    rfl

/-- A wrapped text does not fail if what it writes next to its lines can be written. -/
theorem emitWrapped_of_writable (hmargin : (a.margin config).Short)
    (hjustification : ∃ j, (a .justification).whole? = some j)
    (hwritable : ∀ k < Wrap.placedCount interval lowest y (Wrap.lineTexts wrap s).length,
      Number.writable (y + (k : Nat) * interval)) :
    ∃ o, (emitWrapped config a s wrap y interval lowest).outcome = .ok o := by
  obtain ⟨j, hj⟩ := hjustification
  have hlines : ∀ line ∈ ((Wrap.lineTexts wrap s).mapIdx (placed y interval)).take
      (Wrap.placedCount interval lowest y (Wrap.lineTexts wrap s).length), ∃ t,
      textField config (a .orientation) (a .justification) (a .x) line.1 line.2 = .ok t := by
    intro line hline
    obtain ⟨k, hk, rfl⟩ := List.mem_take_iff_getElem.mp hline
    rw [List.getElem_mapIdx]
    exact textField_of_short hj hmargin
      (Value.short_integer.mpr (hwritable k (Nat.lt_of_lt_of_le hk (Nat.min_le_left _ _)))) _
  obtain ⟨texts, htexts⟩ := mapM_of_forall hlines
  have hperforms := emitWrapped_performs config a s wrap y interval lowest []
  rw [lineCalls, ← List.map_take, performAll_placedCall, htexts] at hperforms
  cases ho : (emitWrapped config a s wrap y interval lowest).outcome with
  | ok o => exact ⟨o, rfl⟩
  | error f =>
    rw [ho] at hperforms
    cases hperforms

theorem emitWrapped_ends {o : Outcome}
    (ho : (emitWrapped config a s wrap y interval lowest).outcome = .ok o) :
    Wrap.Ends s (Wrap.lineTexts wrap s) y interval lowest
      (Wrap.placedCount interval lowest y (Wrap.lineTexts wrap s).length)
      (emitWrapped config a s wrap y interval lowest) :=
  Wrap.text_ends ho

theorem length_lineCalls (lines : List Text) :
    (a.lineCalls y interval lines).length = lines.length := by
  simp [lineCalls]

/-- A run that does not fail and leaves no notice has placed all lines. -/
theorem placedCount_of_no_notice {o : Outcome}
    (ho : (emitWrapped config a s wrap y interval lowest).outcome = .ok o)
    (hnone : (emitWrapped config a s wrap y interval lowest).notices = []) :
    Wrap.placedCount interval lowest y (Wrap.lineTexts wrap s).length =
      (Wrap.lineTexts wrap s).length := by
  obtain ⟨-, -, hdropped⟩ := emitWrapped_ends config a s wrap y interval lowest ho
  refine Nat.le_antisymm (Wrap.placedCount_le _ _ _ _) (Nat.not_lt.mp fun hlt => ?_)
  obtain ⟨division, -, -, hnotices⟩ := hdropped hlt
  rw [hnotices] at hnone
  cases hnone

theorem emitWrapped_performs_all
    (hnone : (emitWrapped config a s wrap y interval lowest).notices = []) :
    (emitWrapped config a s wrap y interval lowest).Performs config
      (a.lineCalls y interval (Wrap.lineTexts wrap s)) := by
  have hperforms := emitWrapped_performs config a s wrap y interval lowest
  cases ho : (emitWrapped config a s wrap y interval lowest).outcome with
  | error f => exact hperforms.of_failed ho
  | ok o =>
    rwa [placedCount_of_no_notice config a s wrap y interval lowest ho hnone,
      ← length_lineCalls a y interval, List.take_length] at hperforms

/-- The lowest position only truncates.  The lines of a text are those of any run that leaves none
out; under a given lowest position the first of them are placed, up to the first position from the
second one on that would be lower. -/
theorem emitWrapped_truncates : ∃ lines : List Text,
    (∀ lowest, (emitWrapped config a s wrap y interval lowest).notices = [] →
      (emitWrapped config a s wrap y interval lowest).Performs config
        (a.lineCalls y interval lines)) ∧
    ∀ lowest, ∃ n,
      IsLeast {k : Nat | k = lines.length ∨ 1 ≤ k ∧ lowest < y + k * interval} n ∧
      (∀ k : Nat, 1 ≤ k → k < n → y + k * interval ≤ lowest) ∧
      (emitWrapped config a s wrap y interval lowest).Performs config
        ((a.lineCalls y interval lines).take n) ∧
      ((a.margin config).Short → (∃ j, (a .justification).whole? = some j) →
        (∀ k < n, Number.writable (y + (k : Nat) * interval)) →
        Wrap.Ends s lines y interval lowest n
          (emitWrapped config a s wrap y interval lowest)) := by
  refine ⟨Wrap.lineTexts wrap s, fun lowest hnone => ?_, fun lowest => ⟨_,
    Wrap.placedCount_isLeast interval lowest y _, fun k hpos hlt => ?_,
    emitWrapped_performs config a s wrap y interval lowest, fun hmargin hjust hwritable => ?_⟩⟩
  · exact emitWrapped_performs_all config a s wrap y interval lowest hnone
  · by_contra hbelow
    have hleast := (Wrap.placedCount_isLeast interval lowest y (Wrap.lineTexts wrap s).length).2
      (.inr ⟨hpos, Int.not_le.mp hbelow⟩)
    omega
  · obtain ⟨o, ho⟩ := emitWrapped_of_writable config a s wrap y interval lowest hmargin hjust
      hwritable
    exact emitWrapped_ends config a s wrap y interval lowest ho

/-- A text in the left margin, upright. -/
def atMargin : Arguments
  | .x => .integer 10
  | .orientation => .member .upright
  | .justification => .member .left
  | _ => .null

/-- Of the four lines of a text the first two are placed, with a notice that counts two words. -/
theorem emitWrapped_truncates_fox : ∃ lines : List Text,
    (emitWrapped {} atMargin "The quick brown fox" 9 100 30 150).Performs {}
      ((atMargin.lineCalls 100 30 lines).take 2) ∧
    Wrap.Ends "The quick brown fox" lines 100 30 150 2
      (emitWrapped {} atMargin "The quick brown fox" 9 100 30 150) := by
  have hnotices : (emitWrapped {} atMargin "The quick brown fox" 9 100 30 150).notices ≠ [] := by
    decide +kernel
  obtain ⟨lines, -, hcut⟩ := emitWrapped_truncates {} atMargin "The quick brown fox" 9 100 30
  obtain ⟨n, ⟨hmem, hleast⟩, -, hperforms, hends⟩ := hcut 150
  have hle : n ≤ 2 := hleast (.inr (by decide))
  have hwritable : ∀ k < n, Number.writable (100 + (k : Nat) * 30) := by
    intro k hk
    have hk : k = 0 ∨ k = 1 := by omega
    rcases hk with rfl | rfl <;> decide +kernel
  have hends := hends (by decide +kernel) ⟨0, rfl⟩ hwritable
  have hn : n = 2 := by
    rcases hmem with hall | ⟨hpos, hbelow⟩
    · exact absurd (hends.complete hall) hnotices
    · omega
  subst hn
  exact ⟨lines, hperforms, hends⟩

end Arguments

end ThermalLabel
