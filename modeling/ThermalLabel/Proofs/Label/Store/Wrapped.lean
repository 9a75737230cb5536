import Mathlib.Data.List.TakeWhile
import ThermalLabel.Proofs.Label.Progress
import ThermalLabel.Proofs.Label.Store.Emits

/-!
# Wrapped texts as calls over objects

The loop over the words of a text, asking for a word at a time, writes the lines that the text is
broken into.  It needs at most two passes a word, since the word that is left to the next pass is
taken there.
-/
namespace ThermalLabel

theorem Text.isEmpty_strip (s : Text) : (Text.strip s).isEmpty = Text.blank s := by
  rw [Bool.eq_iff_iff, List.isEmpty_iff, Text.strip, Text.trim, List.reverse_eq_nil_iff,
    List.dropWhile_eq_nil_iff, Text.blank, List.all_eq_true]
  constructor
  · intro h v hv
    rw [← List.takeWhile_append_dropWhile (p := Text.isBlank) (l := s), List.mem_append] at hv
    rcases hv with hv | hv
    · exact List.mem_takeWhile_imp hv
    · exact h v (List.mem_reverse.mpr hv)
  · intro h v hv
    exact h v ((List.dropWhile_suffix _).subset (List.mem_reverse.mp hv))

namespace Store

open Objects Act

variable {c : Config}

section Wrapping

variable {a : Arguments} {fits : Nat → Bool} {ws rest : List Wrap.Word} {w : Wrap.Word}
  {line : Text} {y : Value} {f : Filling Handle} {e : Emission} {passes : Nat}

/-- The words of a text as objects. -/
def wordList (ws : List Wrap.Word) : Handle :=
  .value (.list (ws.map .text))

theorem gives_count (ws : List Wrap.Word) :
    Gives c (objects.question (.length (wordList ws))) (.ok ws.length) := by
  have h : (Value.list (ws.map .text)).length = .ok ws.length := by
    rw [Value.length, List.length_map]
  exact gives_question fun s => congrArg (·, s) h

theorem gives_word {n : Nat} (hw : ws[n]? = some w) :
    Gives c (objects.question (.item (wordList ws) n)) (.ok (.value (.text w))) := by
  have h : (Value.list (ws.map .text)).item n = .ok (.text w) := by
    rw [Value.item, List.getElem?_map, hw]
    rfl
  exact gives_question fun s => congrArg (fun r => (Except.map Handle.value r, s)) h

theorem gives_atMost {v : Value} {r : Except Fault (Nat → Bool)} (h : v.limit = r) (n : Nat) :
    Gives c (objects.question (.atMost n (.value v))) (r.map fun fits => fits n) := by
  subst h
  exact gives_question fun _ => rfl

theorem gives_lineText (a : Arguments) (y : Value) (line : Text) :
    Gives c
      (objects.textField (.value (a .orientation)) (.value (a .justification)) (.value (a .x))
        (.value y) (.value (.text line))) (a.writeLine c y line) :=
  gives_textField _ _ _ y _

/-- A pass with a word before it takes the word if it fits or the line is empty, else it moves
down. -/
theorem fill_word (hfits : (a .wrap).limit = .ok fits) (hw : ws[f.next]? = some w)
    (hline : f.line = .value (.text line))
    (h : Emits c
      (if fits (f.length + Wrap.room w) || line.isEmpty then
        objects.fill a.handles (wordList ws) passes
          (f.accept (.value (.text w)) (.value (.text (line ++ (w ++ [.char ' ']))))
            (f.length + Wrap.room w))
      else objects.moveDown a.handles (wordList ws) f fun y =>
        objects.fill a.handles (wordList ws) passes
          (.start objects y f.next f.allLines)) e) :
    Emits c (objects.fill a.handles (wordList ws) (passes + 1) f) e := by
  have hlt : f.next < ws.length := (List.getElem?_eq_some_iff.mp hw).1
  have hlength : Gives c (objects.question (.length (.value (.text w)))) (.ok w.length) :=
    gives_question fun _ => rfl
  have hspaced : Gives c (objects.question (.sum (.value (.text w)) (objects.own (.text " "))))
      (.ok (.value (.text (w ++ [.char ' '])))) :=
    gives_question fun _ => rfl
  have hlonger : Gives c
      (objects.question (.extended f.line (.value (.text (w ++ [.char ' '])))))
      (.ok (.value (.text (line ++ (w ++ [.char ' ']))))) := by
    rw [hline]
    exact gives_question fun _ => rfl
  have htakes : Gives c
      (if fits (f.length + Wrap.room w) then return true
        else return !(← objects.question (.truth f.line)))
      (.ok (fits (f.length + Wrap.room w) || line.isEmpty)) := by
    cases fits (f.length + Wrap.room w) with
    | true => exact .pure true
    | false =>
      rw [hline]
      have hempty : (!(Value.text line).truthy) = line.isEmpty := Bool.not_not _
      exact (gives_truth (.text line)).next (hempty ▸ .pure _)
  rw [fill]
  refine .next (gives_count ws) ?_
  rw [if_pos hlt]
  refine .next (gives_word hw) (.next hlength (.next (gives_atMost hfits _) (.next htakes ?_)))
  revert h
  cases fits (f.length + Wrap.room w) || line.isEmpty with
  | true => exact fun h => .next hspaced (.next hlonger h)
  | false => exact id

theorem cut_emits (lines : List (List Handle)) {n dropped : Nat}
    (hdropped : n + dropped = ws.length) :
    Emits c (do
        let count ← objects.question (.length (wordList ws))
        objects.question (.notice (.value (a .maxY)) (count - n))
        return .wrapped
          (← objects.question (.difference (.value y) (.value (a .lineInterval)))) lines)
      (Wrap.cut y (a .lineInterval) (a .maxY) dropped) := by
  have hlast : Gives c (objects.question (.difference (.value y) (.value (a .lineInterval))))
      ((y.sub (a .lineInterval)).map .value) :=
    gives_question fun _ => rfl
  have hcount : ((ws.length : Int) - n).toNat = dropped := by omega
  have hnotice := Emits.notice (a .maxY) (ws.length - n) (Emits.ending hlast lines)
  rw [hcount] at hnotice
  exact .next (gives_count ws) hnotice

theorem moveDown_emits {line : List Wrap.Word} {more : List (List Wrap.Word)}
    {goOn : Handle → Act Store Fault Handle (Returned Handle)}
    (hline : f.line = .value (.text (Wrap.lineText line))) (hy : f.y = .value y)
    (hmore : more ≠ []) (hcount : f.next + Wrap.wordCount more = ws.length)
    (hgoOn : ∀ y, Emits c (goOn (.value y))
      (Wrap.place (a.writeLine c) (a .lineInterval) (a .maxY) y more)) :
    Emits c (objects.moveDown a.handles (wordList ws) f goOn)
      (Wrap.place (a.writeLine c) (a .lineInterval) (a .maxY) y (line :: more)) := by
  have hwrite := gives_lineText (c := c) a y (Wrap.lineText line)
  rw [← hline, ← hy] at hwrite
  have hbelow : Gives c (objects.question (.extended f.y (.value (a .lineInterval))))
      ((y.add (a .lineInterval)).map .value) := by
    rw [hy]
    exact gives_question fun _ => rfl
  rw [Wrap.place, List.isEmpty_eq_false_iff.mpr hmore, if_neg Bool.false_ne_true]
  cases hline : a.writeLine c y (Wrap.lineText line) with
  | error f => exact .noLine (hline ▸ hwrite)
  | ok t =>
    refine .line (hline ▸ hwrite) ?_
    cases hnext : y.add (a .lineInterval) with
    | error f =>
      rw [hnext] at hbelow
      exact .fault hbelow
    | ok next =>
      have hexceeds : Gives c (objects.question (.exceeds (.value next) (.value (a .maxY))))
          (next.exceeds (a .maxY)) :=
        gives_question fun _ => rfl
      rw [hnext] at hbelow
      dsimp only
      refine .next hbelow ?_
      cases hlow : next.exceeds (a .maxY) with
      | error f =>
        rw [hlow] at hexceeds
        exact .fault hexceeds
      | ok low =>
        rw [hlow] at hexceeds
        refine .next hexceeds ?_
        cases low with
        | true => exact cut_emits f.allLines hcount
        | false => exact hgoOn next

theorem lastLine_emits (a : Arguments) (y : Value) (line : Text) (lines : List (List Handle)) :
    Emits c (do
        let _ ← objects.writeLine a.handles (.value y) (.value (.text line))
        return .wrapped (.value y) lines)
      (match a.writeLine c y line with
        | .error f => .fault f
        | .ok t => .cons t { fragments := [], outcome := .ok (.endingY y) }) := by
  have hwrite := gives_lineText (c := c) a y line
  cases hwritten : a.writeLine c y line with
  | error f =>
    rw [hwritten] at hwrite
    exact .noLine hwrite
  | ok t =>
    rw [hwritten] at hwrite
    exact .line hwrite (.ended y lines)

/-- An empty line takes the next word in any case. -/
theorem fill_start {n : Nat} {y : Handle} {lines : List (List Handle)}
    (hfits : (a .wrap).limit = .ok fits) (hw : ws[n]? = some w)
    (h : Emits c (objects.fill a.handles (wordList ws) passes
      ((Filling.start objects y n lines).accept (.value (.text w))
        (.value (.text (Wrap.lineText [w]))) (Wrap.room w))) e) :
    Emits c (objects.fill a.handles (wordList ws) (passes + 1)
      (.start objects y n lines)) e := by
  have hline : Wrap.lineText [w] = [] ++ (w ++ [.char ' ']) := by simp [Wrap.lineText]
  have hlength : (Filling.start objects y n lines).length + Wrap.room w = Wrap.room w :=
    Nat.zero_add _
  have hempty : (Filling.start objects y n lines).line = .value (.text []) := rfl
  refine fill_word hfits hw hempty ?_
  rw [List.isEmpty_nil, Bool.or_true, if_pos rfl, hlength, ← hline]
  exact h

/-- The loop goes on with a line as the lines do that are broken there. -/
theorem fill_emits (hfits : (a .wrap).limit = .ok fits) {line : List Wrap.Word} (hne : line ≠ [])
    (hline : f.line = .value (.text (Wrap.lineText line))) (hy : f.y = .value y)
    (hrest : ws.drop f.next = rest) (hpasses : 2 * rest.length < passes) :
    Emits c (objects.fill a.handles (wordList ws) passes f)
      (Wrap.place (a.writeLine c) (a .lineInterval) (a .maxY) y
        (Wrap.breakLines fits line f.length rest)) := by
  induction rest generalizing f line y passes with
  | nil =>
    obtain _ | passes := passes
    · omega
    have hlast : ws.length ≤ f.next := List.drop_eq_nil_iff.mp hrest
    rw [fill, Wrap.breakLines, Wrap.place]
    refine .next (gives_count ws) ?_
    rw [if_neg (by omega), hline, hy]
    exact lastLine_emits a y _ _
  | cons w rest ih =>
    obtain _ | passes := passes
    · omega
    have hw : ws[f.next]? = some w := by
      rw [← List.head?_drop, hrest, List.head?_cons]
    have hafter : ws.drop (f.next + 1) = rest := by
      rw [← List.drop_drop, hrest, List.drop_one, List.tail_cons]
    have hroom : (Wrap.lineText line).isEmpty = false :=
      List.isEmpty_eq_false_iff.mpr (Wrap.lineText_ne_nil hne)
    refine fill_word hfits hw hline ?_
    rw [hroom, Bool.or_false, Wrap.breakLines]
    rw [List.length_cons] at hpasses
    cases fits (f.length + Wrap.room w) with
    | true =>
      refine ih (by simp) ?_ hy hafter (by omega)
      simp [Filling.accept, Wrap.lineText_concat]
    | false =>
      -- The word that does not fit is taken by the next pass, into an empty line.
      refine moveDown_emits hline hy (Wrap.breakLines_ne_nil _ _ _ _) ?_ fun next => ?_
      · rw [Wrap.wordCount, Wrap.breakLines_flatten, List.singleton_append, ← hrest,
          List.length_drop]
        have hlt : f.next < ws.length := (List.getElem?_eq_some_iff.mp hw).1
        omega
      · obtain _ | passes := passes
        · omega
        exact fill_start hfits hw (ih (List.cons_ne_nil w []) rfl rfl hafter (by omega))

theorem gives_isBlank (s : Text) :
    Gives c (objects.isBlank (.value (.text s))) (.ok (Text.blank s)) := by
  have hstripped : Gives c (objects.question (.stripped (.value (.text s))))
      (.ok (.value (.text (Text.strip s)))) :=
    gives_question fun _ => rfl
  have hblank : (!(Value.text (Text.strip s)).truthy) = Text.blank s := by
    rw [← Text.isEmpty_strip]
    exact Bool.not_not _
  refine hstripped.next ((gives_truth (.text (Text.strip s))).next ?_)
  exact hblank ▸ .pure _

theorem wrapped_text_emits {s : Text} (hvalue : a .value = .text s)
    (hpasses : 2 * (Wrap.words s).length ≤ passes) :
    Emits c (objects.wrapped passes a.handles)
      (Wrap.text (a.writeLine c) (a .wrap) (a .lineInterval) (a .maxY) (a .y) s) := by
  have hblank := gives_isBlank (c := c) s
  have hlength : Gives c (objects.question (.length (.value (.text s)))) (.ok s.length) :=
    gives_question fun _ => rfl
  have hwords : Gives c (objects.question (.words (.value (.text s))))
      (.ok (wordList (Wrap.words s))) :=
    gives_question fun _ => rfl
  have hhandle : a.handles .value = .value (.text s) := congrArg Handle.value hvalue
  rw [wrapped, Wrap.text, hhandle]
  refine .next hblank ?_
  cases Text.blank s with
  | true => exact .ended (a .y) []
  | false =>
    refine .next hlength ?_
    cases hfits : (a .wrap).limit with
    | error f => exact .fault (gives_atMost hfits _)
    | ok fits =>
      have hroom : Gives c (objects.question (.atMost s.length (.value (a .wrap))))
          (.ok (fits s.length)) :=
        gives_atMost hfits _
      refine .next hroom ?_
      rw [if_neg Bool.false_ne_true]
      dsimp only
      cases fits s.length with
      | true => exact lastLine_emits a (a .y) s _
      | false =>
        refine .next hwords ?_
        obtain ⟨w, rest, hws⟩ := List.exists_cons_of_ne_nil (Wrap.words_ne_nil s)
        rw [hws] at hpasses ⊢
        obtain _ | passes := passes
        · simp at hpasses
        rw [List.length_cons] at hpasses
        refine fill_start hfits rfl ?_
        exact fill_emits hfits (List.cons_ne_nil w []) rfl rfl rfl (by omega)

end Wrapping

/-- With arguments that are values, the loop ends, and the operation emits what it emits on a
document. -/
theorem performs (c : Config) (a : Arguments) (op : Operation) :
    ∃ enough, ∀ passes, enough ≤ passes →
      Emits c (objects.operate passes a.handles op) (op.emit c a) := by
  cases hn : op.fragmentCount? with
  | some n => exact ⟨0, fun passes _ => operate_emits passes a hn⟩
  | none =>
    obtain rfl := Operation.eq_wrap_of_fragmentCount? hn
    have hhandle (v : Value) (h : a .value = v) : a.handles .value = .value v :=
      congrArg Handle.value h
    cases hvalue : a .value with
    | text s =>
      refine ⟨2 * (Wrap.words s).length, fun passes hpasses => ?_⟩
      rw [Operation.emit, hvalue]
      exact wrapped_text_emits hvalue hpasses
    | null =>
      have hblank : Gives c (objects.isBlank (a.handles .value)) (.ok true) := by
        rw [hhandle _ hvalue]
        exact .pure true
      refine ⟨0, fun passes _ => ?_⟩
      rw [Operation.emit, hvalue]
      exact .next hblank (.ended (a .y) [])
    | _ =>
      have hblank : Gives c (objects.isBlank (a.handles .value)) (.error .notText) := by
        rw [hhandle _ hvalue]
        exact Gives.fail (gives_question fun _ => rfl)
      refine ⟨0, fun passes _ => ?_⟩
      rw [Operation.emit, hvalue]
      exact .fault hblank

end Store

end ThermalLabel
