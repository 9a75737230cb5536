import ThermalLabel.Label.Wrap
import ThermalLabel.Proofs.Value.Whole

/-!
# Lines of a wrapped text

Which lines a text is divided into, and at which positions they stand, depends on the text and
on four integers only.  Wrapping writes the lines at these positions, in this order, until one of
them cannot be written: `text_eq_mapM` says so for any way of writing a line.
-/
namespace ThermalLabel.Wrap

/-- The texts of the lines of a text that is not limited downwards. -/
def lineTexts (wrap : Int) (s : Text) : List Text :=
  if Text.blank s then []
  else if (s.length : Int) ≤ wrap then [s]
  else (lines (fun n => decide ((n : Int) ≤ wrap)) (words s)).map lineText

/-- The positions of at most `count` lines from `y` downwards, one interval apart.  The first one
is free, the others lie no lower than the lowest position. -/
def positions (interval lowest : Int) : Nat → Value → List Value
  | 0, _ => []
  | count + 1, y =>
    let next := y.whole?.getD 0 + interval
    y :: if lowest < next then [] else positions interval lowest count (.integer next)

theorem whole_of_mem_positions {interval lowest n : Int} {count : Nat} {y p : Value}
    (hy : y.whole? = some n) (h : p ∈ positions interval lowest count y) :
    ∃ m, p.whole? = some m := by
  induction count generalizing y n with
  | zero => simp [positions] at h
  | succ count ih =>
    rw [positions] at h
    rcases List.mem_cons.mp h with rfl | h
    · exact ⟨n, hy⟩
    · split at h
      · simp at h
      · exact ih rfl h

/-- Every position but the first lies between the first one and the lowest. -/
theorem mem_positions {interval lowest : Int} (hi : 0 ≤ interval) {count : Nat} {n : Int}
    {p : Value} (h : p ∈ positions interval lowest count (.integer n)) :
    ∃ m, p = .integer m ∧ n ≤ m ∧ (m = n ∨ m ≤ lowest) := by
  induction count generalizing n with
  | zero => simp [positions] at h
  | succ count ih =>
    simp only [positions, Value.whole?, Option.getD_some] at h
    rcases List.mem_cons.mp h with rfl | h
    · exact ⟨n, rfl, Int.le_refl n, Or.inl rfl⟩
    · by_cases hlow : lowest < n + interval
      · simp [hlow] at h
      · simp only [hlow, if_false] at h
        obtain ⟨m, rfl, hfirst, hlast⟩ := ih h
        exact ⟨m, rfl, by omega, Or.inr (by omega)⟩

theorem mem_lineText {line : List Word} {c : CodePoint} (h : c ∈ lineText line) :
    c = .char ' ' ∨ ∃ w ∈ line, c ∈ w := by
  simp only [lineText, List.mem_flatMap, List.mem_append, List.mem_singleton] at h
  obtain ⟨w, hw, hc | hc⟩ := h
  · exact Or.inr ⟨w, hw, hc⟩
  · exact Or.inl hc

theorem mem_of_mem_words {s : Text} {w : Word} (hw : w ∈ words s) {c : CodePoint} (hc : c ∈ w) :
    c ∈ s := by
  unfold words at hw
  induction s generalizing w with
  | nil =>
    simp only [Text.split, List.mem_singleton] at hw
    simp [hw] at hc
  | cons d rest ih =>
    unfold Text.split at hw
    split at hw
    · rcases List.mem_cons.mp hw with rfl | hw
      · simp at hc
      · exact List.mem_cons_of_mem _ (ih hw hc)
    · split at hw
      · rename_i hsplit
        exact absurd hsplit (Text.split_ne_nil _ _)
      · rename_i piece pieces hsplit
        rcases List.mem_cons.mp hw with rfl | hw
        · rcases List.mem_cons.mp hc with rfl | hc
          · exact List.mem_cons_self
          · exact List.mem_cons_of_mem _ (ih (by simp [hsplit]) hc)
        · exact List.mem_cons_of_mem _ (ih (by simp [hsplit, hw]) hc)

theorem breakLines_flatten (fits : Nat → Bool) (line : List Word) (length : Nat)
    (rest : List Word) : (breakLines fits line length rest).flatten = line ++ rest := by
  induction rest generalizing line length with
  | nil => simp [breakLines]
  | cons w rest ih =>
    unfold breakLines
    split
    · rw [ih]
      simp
    · simp [ih]

/-- Dividing a text into lines keeps its words in order. -/
theorem lines_flatten (fits : Nat → Bool) (ws : List Word) : (lines fits ws).flatten = ws := by
  cases ws with
  | nil => rfl
  | cons w rest => simp [lines, breakLines_flatten]

/-- Every text has a line. -/
theorem lines_words_ne_nil (fits : Nat → Bool) (s : Text) : lines fits (words s) ≠ [] := by
  intro hnil
  have hwords := lines_flatten fits (words s)
  rw [hnil] at hwords
  exact Text.split_ne_nil _ s hwords.symm

theorem mem_of_mem_lineTexts {wrap : Int} {s line : Text} (h : line ∈ lineTexts wrap s)
    {c : CodePoint} (hc : c ∈ line) : c = .char ' ' ∨ c ∈ s := by
  unfold lineTexts at h
  split at h
  · simp at h
  · split at h
    · rw [List.mem_singleton] at h
      subst h
      exact Or.inr hc
    · obtain ⟨ws, hws, rfl⟩ := List.mem_map.mp h
      refine (mem_lineText hc).imp_right ?_
      rintro ⟨w, hw, hcw⟩
      have hmem : w ∈ (lines (fun n => decide ((n : Int) ≤ wrap)) (words s)).flatten :=
        List.mem_flatten.mpr ⟨ws, hws, hw⟩
      rw [lines_flatten] at hmem
      exact mem_of_mem_words hmem hcw

/-- What an emission is when its fragments are the given texts, or when one of them failed. -/
def Writes (e : Emission) : Except Fault (List Text) → Prop
  | .ok texts => e.fragments = texts.map .text ∧ ∃ y, e.outcome = .ok (.endingY y)
  | .error f => e.outcome = .error f

variable {write : Value → Text → Except Fault Text} {wrap interval maxY y : Value}
  {w i lowest n : Int}

theorem place_eq_mapM (hi : interval.whole? = some i) (hl : maxY.whole? = some lowest)
    (hy : y.whole? = some n) (rest : List (List Word)) :
    Writes (place write interval maxY y rest)
      (((positions i lowest rest.length y).zip (rest.map lineText)).mapM
        fun (p, line) => write p line) := by
  induction rest generalizing y n with
  | nil => exact ⟨rfl, y, rfl⟩
  | cons line rest ih =>
    have hnext : (Value.integer (n + i)).whole? = some (n + i) := rfl
    simp only [List.length_cons, positions, hy, Option.getD_some, List.map_cons, List.zip_cons_cons,
      List.mapM_cons, place]
    cases hw : write y (lineText line) with
    | error f => exact rfl
    | ok s =>
      rw [Value.add_whole hy hi]
      dsimp only
      rw [Value.exceeds_whole hnext hl]
      cases rest with
      | nil =>
        by_cases hlow : lowest < n + i <;>
          simp [hlow, Writes, Emission.cons, positions, bind, Except.bind, pure, Except.pure]
      | cons line' rest' =>
        by_cases hlow : lowest < n + i
        · simp [hlow, Writes, Emission.cons, cut, Value.sub_whole hnext hi, Except.map, bind,
            Except.bind, pure, Except.pure]
        · have hrest := ih hnext
          rw [if_neg hlow]
          simp only [List.isEmpty_cons, hlow, decide_false]
          generalize place write interval maxY (.integer (n + i)) (line' :: rest') = e at hrest ⊢
          cases hm : ((positions i lowest (line' :: rest').length (.integer (n + i))).zip
            ((line' :: rest').map lineText)).mapM fun (p, line) => write p line with
          | error f =>
            rw [hm] at hrest
            simpa [Writes, Emission.cons, bind, Except.bind] using hrest
          | ok texts =>
            rw [hm] at hrest
            obtain ⟨hf, last, ho⟩ := hrest
            simp [Writes, Emission.cons, hf, ho, bind, Except.bind, pure, Except.pure]

/-- Wrapping a text writes its lines at their positions; the first line that cannot be written
decides the fault. -/
theorem text_eq_mapM (hw : wrap.whole? = some w) (hi : interval.whole? = some i)
    (hl : maxY.whole? = some lowest) (hy : y.whole? = some n) (s : Text) :
    Writes (text write wrap interval maxY y s)
      (((positions i lowest (lineTexts w s).length y).zip (lineTexts w s)).mapM
        fun (p, line) => write p line) := by
  unfold text lineTexts
  split
  · exact ⟨rfl, y, rfl⟩
  · rw [Value.limit_whole hw]
    dsimp only
    by_cases hfit : (s.length : Int) ≤ w
    · simp only [hfit, decide_true, if_true, List.length_singleton, positions]
      cases hs : write y s <;>
        simp [hs, Writes, Emission.cons, Emission.fault, bind, Except.bind, pure, Except.pure]
    · simp only [hfit, decide_false, if_false, List.length_map]
      exact place_eq_mapM hi hl hy _

end ThermalLabel.Wrap
