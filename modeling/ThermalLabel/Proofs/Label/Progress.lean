import ThermalLabel.Proofs.Label.Greedy

/-!
# Wrapping makes progress

The lines of a wrapped text can be found and placed in a single loop over its words.  A pass of the
loop accepts the next word into a buffer, or it writes the buffer as a line, moves down, and leaves
the word to the next pass.  An empty buffer accepts any word, so that a word is never left twice,
and no line is written without a word, whatever the limit is.
-/
namespace ThermalLabel

namespace Wrap

/-- What is done with the next word, or with the words that were accepted. -/
inductive Event where
  | accept (w : Word)
  | flush (buffer : Text)
  deriving DecidableEq

/-- Where the loop stands: the words that are left, the line that is being filled, the room that is
taken in it, and its position. -/
structure Loop where
  pending : List Word
  buffer : Text
  length : Nat
  y : Int

theorem words_ne_nil (s : Text) : words s ≠ [] :=
  Text.split_ne_nil _ s

theorem lineText_concat (line : List Word) (w : Word) :
    lineText (line ++ [w]) = lineText line ++ (w ++ [.char ' ']) := by
  rw [lineText_append]
  simp [lineText]

/-- Even an empty word leaves a space in a line. -/
theorem lineText_ne_nil {line : List Word} (h : line ≠ []) : lineText line ≠ [] := by
  obtain ⟨w, more, rfl⟩ := List.exists_cons_of_ne_nil h
  simp [lineText]

theorem breakLines_ne_nil (fits : Nat → Bool) (line : List Word) (length : Nat)
    (rest : List Word) : breakLines fits line length rest ≠ [] := by
  obtain ⟨more, others, h⟩ := breakLines_head fits line length rest
  rw [h]
  exact List.cons_ne_nil _ _

namespace Loop

def start (s : Text) (y : Int) : Loop :=
  ⟨words s, [], 0, y⟩

/-- A word is accepted if it fits, and by an empty buffer in any case. -/
def Takes (wrap : Int) (loop : Loop) (w : Word) : Prop :=
  ((loop.length + room w : Nat) : Int) ≤ wrap ∨ loop.buffer = []

def accept (loop : Loop) (w : Word) (rest : List Word) : Loop :=
  ⟨rest, loop.buffer ++ (w ++ [.char ' ']), loop.length + room w, loop.y⟩

def moveDown (loop : Loop) (interval : Int) : Loop :=
  ⟨loop.pending, [], 0, loop.y + interval⟩

/-- The emission of a loop that writes a last line. -/
def close (write : Value → Text → Except Fault Text) (loop : Loop) : Emission :=
  match write (.integer loop.y) loop.buffer with
  | .error f => .fault f
  | .ok s => .cons s { fragments := [], outcome := .ok (.endingY (.integer loop.y)) }

/-- The runs of the loop from a state: the number of passes, what they do, and the emission.  The
last line is written behind the last pass, when all words are accepted; a pass ends the loop early
when its line cannot be written or when the next line would lie too low. -/
inductive Runs (write : Value → Text → Except Fault Text) (wrap interval lowest : Int) :
    Loop → Nat → List Event → Emission → Prop
  | finish {loop : Loop} (hdone : loop.pending = []) :
      Runs write wrap interval lowest loop 0 [.flush loop.buffer] (loop.close write)
  | accept {loop : Loop} {w : Word} {rest : List Word} {passes : Nat} {trace : List Event}
      {e : Emission} (hnext : loop.pending = w :: rest) (htakes : loop.Takes wrap w)
      (hrun : Runs write wrap interval lowest (loop.accept w rest) passes trace e) :
      Runs write wrap interval lowest loop (passes + 1) (.accept w :: trace) e
  | flush {loop : Loop} {w : Word} {rest : List Word} {s : Text} {passes : Nat}
      {trace : List Event} {e : Emission} (hnext : loop.pending = w :: rest)
      (hfull : ¬ loop.Takes wrap w) (hwrite : write (.integer loop.y) loop.buffer = .ok s)
      (hroom : loop.y + interval ≤ lowest)
      (hrun : Runs write wrap interval lowest (loop.moveDown interval) passes trace e) :
      Runs write wrap interval lowest loop (passes + 1) (.flush loop.buffer :: trace) (.cons s e)
  | low {loop : Loop} {w : Word} {rest : List Word} {s : Text} (hnext : loop.pending = w :: rest)
      (hfull : ¬ loop.Takes wrap w) (hwrite : write (.integer loop.y) loop.buffer = .ok s)
      (hlow : lowest < loop.y + interval) :
      Runs write wrap interval lowest loop 1 [.flush loop.buffer]
        (.cons s { fragments := [], notices := [⟨.integer lowest, loop.pending.length⟩],
                   outcome := .ok (.endingY (.integer loop.y)) })
  | fail {loop : Loop} {w : Word} {rest : List Word} {f : Fault} (hnext : loop.pending = w :: rest)
      (hfull : ¬ loop.Takes wrap w) (hwrite : write (.integer loop.y) loop.buffer = .error f) :
      Runs write wrap interval lowest loop 1 [.flush loop.buffer] (.fault f)

variable {write : Value → Text → Except Fault Text} {wrap interval lowest : Int}

namespace Runs

variable {loop : Loop} {passes passes' : Nat} {trace trace' : List Event} {e e' : Emission}

/-- A state has one run. -/
theorem unique (h : Runs write wrap interval lowest loop passes trace e)
    (h' : Runs write wrap interval lowest loop passes' trace' e') :
    passes' = passes ∧ trace' = trace ∧ e' = e := by
  induction h generalizing passes' trace' e' with
  | finish hdone =>
    cases h' with
    | finish => exact ⟨rfl, rfl, rfl⟩
    | _ => simp_all
  | accept hnext htakes hrun ih =>
    cases h' with
    | accept hnext' htakes' hrun' =>
      rw [hnext] at hnext'
      cases hnext'
      obtain ⟨rfl, rfl, rfl⟩ := ih hrun'
      exact ⟨rfl, rfl, rfl⟩
    | _ => simp_all
  | flush hnext hfull hwrite hroom hrun ih =>
    cases h' with
    | flush hnext' hfull' hwrite' hroom' hrun' =>
      rw [hwrite] at hwrite'
      cases hwrite'
      obtain ⟨rfl, rfl, rfl⟩ := ih hrun'
      exact ⟨rfl, rfl, rfl⟩
    | low => omega
    | _ => simp_all
  | low hnext hfull hwrite hlow =>
    cases h' with
    | low hnext' hfull' hwrite' hlow' =>
      rw [hwrite] at hwrite'
      cases hwrite'
      exact ⟨rfl, rfl, rfl⟩
    | flush => omega
    | _ => simp_all
  | fail hnext hfull hwrite =>
    cases h' with
    | fail hnext' hfull' hwrite' =>
      rw [hwrite] at hwrite'
      cases hwrite'
      exact ⟨rfl, rfl, rfl⟩
    | _ => simp_all

end Runs

/-! ### How many passes there are -/

/-- What is left to do: a pass for each word, one more for each that does not fit, and one for the
line that is being filled. -/
def work (loop : Loop) : Nat :=
  2 * loop.pending.length + if loop.buffer = [] then 0 else 1

theorem buffer_ne_nil_of_full {loop : Loop} {w : Word} (h : ¬ loop.Takes wrap w) :
    loop.buffer ≠ [] :=
  fun hempty => h (.inr hempty)

theorem work_accept_lt {loop : Loop} {w : Word} {rest : List Word}
    (hnext : loop.pending = w :: rest) : (loop.accept w rest).work < loop.work := by
  have hfilled : (loop.accept w rest).buffer ≠ [] := by simp [accept]
  rw [work, work, if_neg hfilled, hnext, List.length_cons]
  simp only [accept]
  omega

theorem work_moveDown_lt {loop : Loop} (hbuffer : loop.buffer ≠ []) (interval : Int) :
    (loop.moveDown interval).work < loop.work := by
  rw [work, work, if_neg hbuffer]
  simp [moveDown]

/-- Every pass leaves less to do, and something to write behind the last one. -/
theorem Runs.passes_lt {loop : Loop} {passes : Nat} {trace : List Event} {e : Emission}
    (h : Runs write wrap interval lowest loop passes trace e)
    (hwork : loop.pending ≠ [] ∨ loop.buffer ≠ []) : passes < loop.work := by
  induction h with
  | @finish loop hdone =>
    have hbuffer : loop.buffer ≠ [] := hwork.resolve_left (absurd hdone)
    rw [work, if_neg hbuffer]
    omega
  | @accept loop w rest passes trace e hnext htakes hrun ih =>
    have hless := work_accept_lt hnext
    have hpasses := ih (.inr (by simp [Loop.accept]))
    omega
  | @flush loop w rest s passes trace e hnext hfull hwrite hroom hrun ih =>
    have hless := work_moveDown_lt (buffer_ne_nil_of_full hfull) interval
    have hpasses := ih (.inl (by simp [moveDown, hnext]))
    omega
  | low hnext hfull | fail hnext hfull =>
    rw [work, if_neg (buffer_ne_nil_of_full hfull), hnext, List.length_cons]
    omega

/-! ### What is flushed -/

/-- The flushes of a trace, each with the words that were accepted since the one before it. -/
def flushes (accepted : List Word) : List Event → List (List Word × Text)
  | [] => []
  | .accept w :: rest => flushes (accepted ++ [w]) rest
  | .flush buffer :: rest => (accepted, buffer) :: flushes [] rest

/-- A flush writes the words that were accepted since the one before it, and there is one. -/
theorem Runs.flushes_accepted {loop : Loop} {passes : Nat} {trace : List Event} {e : Emission}
    (h : Runs write wrap interval lowest loop passes trace e) {accepted : List Word}
    (hbuffer : loop.buffer = lineText accepted) (hwork : loop.pending ≠ [] ∨ accepted ≠ []) :
    ∀ flush ∈ flushes accepted trace, flush.1 ≠ [] ∧ flush.2 = lineText flush.1 := by
  have hfilled {loop : Loop} {accepted : List Word} (hbuffer : loop.buffer = lineText accepted)
      (hne : loop.buffer ≠ []) : accepted ≠ [] := by
    rintro rfl
    exact hne hbuffer
  induction h generalizing accepted with
  | finish hdone =>
    simpa [flushes, hbuffer] using hwork.resolve_left (absurd hdone)
  | @accept loop w rest passes trace e hnext htakes hrun ih =>
    have hnextBuffer : (loop.accept w rest).buffer = lineText (accepted ++ [w]) := by
      rw [lineText_concat, ← hbuffer]
      rfl
    exact ih hnextBuffer (.inr (by simp))
  | @flush loop w rest s passes trace e hnext hfull hwrite hroom hrun ih =>
    rw [flushes, List.forall_mem_cons]
    exact ⟨⟨hfilled hbuffer (buffer_ne_nil_of_full hfull), hbuffer⟩,
      ih rfl (.inl (by simp [moveDown, hnext]))⟩
  | low hnext hfull | fail hnext hfull =>
    simpa [flushes, hbuffer] using hfilled hbuffer (buffer_ne_nil_of_full hfull)

/-! ### The loop places the lines -/

variable (write wrap interval lowest)

/-- The lines that words are broken into are placed by the loop that goes over the words. -/
theorem exists_runs_breakLines {line : List Word} (hline : line ≠ []) (rest : List Word)
    (length : Nat) (y : Int) :
    ∃ passes trace, Runs write wrap interval lowest ⟨rest, lineText line, length, y⟩ passes trace
      (place write (.integer interval) (.integer lowest) (.integer y)
        (breakLines (fun n => decide ((n : Int) ≤ wrap)) line length rest)) := by
  induction rest generalizing line length y with
  | nil =>
    have hclose : place write (.integer interval) (.integer lowest) (.integer y) [line] =
        close write ⟨[], lineText line, length, y⟩ := by
      rw [place, close]
      rfl
    rw [breakLines, hclose]
    exact ⟨_, _, .finish rfl⟩
  | cons w rest ih =>
    have hbuffer := lineText_ne_nil hline
    rw [breakLines]
    by_cases hfits : ((length + room w : Nat) : Int) ≤ wrap
    · have hlonger : line ++ [w] ≠ [] := by simp
      obtain ⟨passes, trace, hrun⟩ := ih hlonger (length + room w) y
      rw [if_pos (by simpa using hfits)]
      rw [lineText_concat] at hrun
      exact ⟨_, _, .accept rfl (.inl hfits) hrun⟩
    · -- The word is left to the next pass, which finds an empty buffer.
      have hfull : ¬ Takes wrap ⟨w :: rest, lineText line, length, y⟩ w := by
        rintro (h | h)
        · exact hfits h
        · exact hbuffer h
      have hmore := breakLines_ne_nil (fun n => decide ((n : Int) ≤ wrap)) [w] (room w) rest
      rw [if_neg (by simpa using hfits)]
      cases hwrite : write (.integer y) (lineText line) with
      | error f =>
        rw [place, hwrite]
        exact ⟨_, _, .fail rfl hfull hwrite⟩
      | ok s =>
        by_cases hlow : lowest < y + interval
        · rw [place_of_low hwrite hmore hlow, wordCount, breakLines_flatten]
          exact ⟨_, _, .low rfl hfull hwrite hlow⟩
        · obtain ⟨passes, trace, hrun⟩ := ih (List.cons_ne_nil w []) (room w) (y + interval)
          have htaken : Runs write wrap interval lowest ⟨w :: rest, [], 0, y + interval⟩ _ _ _ :=
            .accept rfl (.inr rfl) (by simpa [accept, lineText] using hrun)
          rw [place_of_room hwrite hmore hlow]
          exact ⟨_, _, .flush rfl hfull hwrite (Int.not_lt.mp hlow) htaken⟩

/-- The loop over the words of a text places its lines. -/
theorem exists_runs_lines (s : Text) (y : Int) :
    ∃ passes trace, Runs write wrap interval lowest (start s y) passes trace
      (place write (.integer interval) (.integer lowest) (.integer y)
        (lines (fun n => decide ((n : Int) ≤ wrap)) (words s))) := by
  obtain ⟨w, rest, hwords⟩ := List.exists_cons_of_ne_nil (words_ne_nil s)
  obtain ⟨passes, trace, hrun⟩ := exists_runs_breakLines write wrap interval lowest
    (List.cons_ne_nil w []) rest (room w) y
  rw [start, hwords, lines]
  exact ⟨_, _, .accept rfl (.inr rfl) (by simpa [accept, lineText] using hrun)⟩

end Loop

end Wrap

namespace Arguments

open Wrap in
/-- Wrapping makes progress on every text, and within every limit.  What is emitted for a text that
is not blank and does not fit is what the loop over its words emits, and this loop has one run: it
ends after fewer passes than twice as many as there are words, and every line that it writes holds
at least one word that was accepted since the line before it, be it an empty word. -/
theorem emitWrapped_progresses (config : Config) (a : Arguments) (s : Text)
    (wrap y interval lowest : Int) : ∃ passes trace e,
      let Runs := Loop.Runs (textField config (a .orientation) (a .justification) (a .x)) wrap
        interval lowest (.start s y)
      Runs passes trace e ∧
      (∀ passes' trace' e', Runs passes' trace' e' →
        passes' = passes ∧ trace' = trace ∧ e' = e) ∧
      (Text.blank s = false → wrap < s.length →
        emitWrapped config a s wrap y interval lowest = e) ∧
      passes ≤ 2 * (words s).length - 1 ∧
      ∀ flush ∈ Loop.flushes [] trace,
        flush.1 ≠ [] ∧ flush.2 = lineText flush.1 ∧ flush.2 ≠ [] := by
  obtain ⟨passes, trace, hrun⟩ := Loop.exists_runs_lines
    (textField config (a .orientation) (a .justification) (a .x)) wrap interval lowest s y
  refine ⟨passes, trace, _, hrun, fun _ _ _ => hrun.unique, fun hblank hlong => ?_, ?_,
    fun flush hflush => ?_⟩
  · have hlimit : Value.limit (.integer wrap) = .ok fun n => decide ((n : Int) ≤ wrap) :=
      Value.limit_whole rfl
    have hfull : decide ((s.length : Int) ≤ wrap) = false := by simpa using hlong
    simp [emitWrapped_eq, text, hblank, hlimit, hfull]
  · have hpasses := hrun.passes_lt (.inl (words_ne_nil s))
    have hwork : (Loop.start s y).work = 2 * (words s).length := rfl
    omega
  · obtain ⟨hne, htext⟩ := hrun.flushes_accepted rfl (.inl (words_ne_nil s)) flush hflush
    exact ⟨hne, htext, htext ▸ lineText_ne_nil hne⟩

/-- Under a limit that is below zero no word fits, and empty words make lines of their own. -/
theorem emitWrapped_progresses_narrow : ∃ passes trace,
    Wrap.Loop.Runs (textField {} (.member .upright) (.member .left) (.integer 10)) (-1) 10 1000
      (.start spacedText 0) passes trace (emitWrapped {} atMargin spacedText (-1) 0 10 1000) ∧
    passes ≤ 9 ∧ ∀ flush ∈ Wrap.Loop.flushes [] trace, flush.1 ≠ [] := by
  have hblank : Text.blank spacedText = false := by decide +kernel
  have hlong : (-1 : Int) < spacedText.length := by decide +kernel
  have hwords : (Wrap.words spacedText).length = 5 := by decide +kernel
  obtain ⟨passes, trace, e, hrun, -, hemission, hpasses, hflushes⟩ :=
    emitWrapped_progresses {} atMargin spacedText (-1) 0 10 1000
  rw [hwords] at hpasses
  rw [hemission hblank hlong]
  exact ⟨passes, trace, hrun, hpasses, fun flush hflush => (hflushes flush hflush).1⟩

end Arguments

end ThermalLabel
