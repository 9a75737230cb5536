import Mathlib.Data.List.Basic
import Mathlib.Data.List.Infix
import ThermalLabel.Proofs.Label.Marks

/-!
# Fields of a label

A field opens with the command that places it and closes with the command that ends it, and its data
stands in between.  `fields?` reads the fields off a finished text, with no regard to how it was put
together, and finds none in a text where one field opens inside another or ends without having been
opened.  A text that is put together from whole commands is cut into these commands again, so its
fields can be read off its parts.
-/
namespace ThermalLabel.Text

/-! ### Whole commands -/

/-- A mark and at least the two letters of a code, and no other mark. -/
structure IsCommand (s : Text) : Prop where
  opens : s.opens = true
  unmarked : Unmarked s.tail
  coded : 3 ≤ s.length

instance (s : Text) : Decidable s.IsCommand :=
  decidable_of_iff (s.opens = true ∧ Unmarked s.tail ∧ 3 ≤ s.length)
    ⟨fun h => ⟨h.1, h.2.1, h.2.2⟩, fun h => ⟨h.opens, h.unmarked, h.coded⟩⟩

variable {s t pattern : Text} {pieces : List Text}

theorem IsCommand.append (h : IsCommand s) (ht : t.Unmarked) : IsCommand (s ++ t) := by
  obtain ⟨hopens, hunmarked, hcoded⟩ := h
  cases s with
  | nil => cases hopens
  | cons c rest =>
    refine ⟨hopens, hunmarked.append ht, ?_⟩
    rw [List.length_append]
    omega

theorem opens_flatten (h : ∀ piece ∈ pieces, IsCommand piece) :
    pieces.flatten = [] ∨ opens pieces.flatten = true := by
  cases pieces with
  | nil => exact .inl rfl
  | cons piece rest =>
    right
    exact opens_append (h piece List.mem_cons_self).opens

theorem cut_command_append (hs : s.IsCommand) (ht : t = [] ∨ t.opens = true) :
    cut (s ++ t) = s :: cut t := by
  cases s with
  | nil => cases hs.opens
  | cons c s => exact cut_unmarked_append hs.unmarked ht

/-- Cutting takes apart what was put together from whole commands. -/
theorem cut_flatten (h : ∀ piece ∈ pieces, IsCommand piece) : cut pieces.flatten = pieces := by
  induction pieces with
  | nil => rfl
  | cons piece rest ih =>
    rw [List.forall_mem_cons] at h
    rw [List.flatten_cons, cut_command_append h.1 (opens_flatten h.2), ih h.2]

/-! ### Patterns -/

/-- How often the pattern stands in the text. -/
def occurrences (pattern s : Text) : Nat :=
  s.tails.countP pattern.isPrefixOf

/-- A pattern that starts with a mark is not found where there are none. -/
theorem occurrences_unmarked_append (hpattern : pattern.opens = true) (hs : s.Unmarked) (t : Text) :
    occurrences pattern (s ++ t) = occurrences pattern t := by
  induction s with
  | nil => rfl
  | cons c rest ih =>
    have hmiss : pattern.isPrefixOf (c :: (rest ++ t)) = false := by
      cases pattern with
      | nil => cases hpattern
      | cons d pattern =>
        have hne : d ≠ c := by
          rintro rfl
          have hmark : isMark d = true := hpattern
          rw [hs d List.mem_cons_self] at hmark
          cases hmark
        simp [List.isPrefixOf, hne]
    have hrest := ih fun d hd => hs d (List.mem_cons_of_mem c hd)
    rw [occurrences] at hrest ⊢
    rw [List.cons_append, List.tails_cons, List.countP_cons, hmiss, hrest]
    rfl

/-- A pattern that starts with a mark and has no other reaches no further than one command. -/
theorem isPrefixOf_command_append (hpattern : pattern.IsCommand) (hs : s.IsCommand)
    (ht : t = [] ∨ t.opens = true) : pattern.isPrefixOf (s ++ t) = pattern.isPrefixOf s := by
  rw [Bool.eq_iff_iff, List.isPrefixOf_iff_prefix, List.isPrefixOf_iff_prefix]
  constructor
  · intro h
    rcases List.prefix_or_prefix_of_prefix h (List.prefix_append s t) with hshort | ⟨rest, rfl⟩
    · exact hshort
    · rw [List.prefix_append_right_inj] at h
      cases rest with
      | nil => simp
      | cons c rest =>
        -- The pattern would have the mark of the next command behind its own.
        obtain ⟨others, rfl⟩ := h
        have hmark : isMark c = true := ht.resolve_left (List.cons_ne_nil _ _)
        have hmem : c ∈ (s ++ c :: rest).tail := by
          cases s with
          | nil => cases hs.opens
          | cons d s => simp
        rw [hpattern.unmarked c hmem] at hmark
        cases hmark
  · exact fun h => h.trans (List.prefix_append s t)

/-- Such a pattern is found once in every command that starts with it. -/
theorem occurrences_flatten (hpattern : pattern.IsCommand)
    (h : ∀ piece ∈ pieces, IsCommand piece) :
    occurrences pattern pieces.flatten = pieces.countP pattern.isPrefixOf := by
  induction pieces with
  | nil =>
    cases pattern with
    | nil => cases hpattern.opens
    | cons c pattern => rfl
  | cons piece rest ih =>
    rw [List.forall_mem_cons] at h
    obtain ⟨hpiece, hrest⟩ := h
    have hhere := isPrefixOf_command_append hpattern hpiece (opens_flatten hrest)
    have hlater : occurrences pattern (piece.tail ++ rest.flatten) =
        rest.countP pattern.isPrefixOf := by
      rw [occurrences_unmarked_append hpattern.opens hpiece.unmarked, ih hrest]
    cases piece with
    | nil => cases hpiece.opens
    | cons c s =>
      rw [occurrences] at hlater ⊢
      rw [List.flatten_cons, List.cons_append, List.tails_cons, List.countP_cons,
        ← List.cons_append, hhere, List.countP_cons]
      exact congrArg (· + _) hlater

/-! ### Fields -/

/-- A field as it stands on a label: the parameters of its place, and its data, empty if it has
none. -/
structure PlacedField where
  place : Text
  data : Text
  deriving DecidableEq, Repr

/-- What a command does to a field. -/
inductive FieldStep where
  | opens (place : Text)
  | data (s : Text)
  | closes
  | other

def FieldStep.ofCommand (s : Text) : FieldStep :=
  if s.take 3 = "^FO" then .opens (s.drop 3)
  else if s.take 3 = "^FD" then .data (s.drop 3)
  else if s.take 3 = "^FS" then .closes
  else .other

/-- What becomes of the field that is open, and the field that is complete now, unless the step is
out of turn. -/
def FieldStep.next : FieldStep → Option PlacedField → Option (Option PlacedField × List PlacedField)
  | opens place, none => some (some ⟨place, []⟩, [])
  | data s, some field => some (some { field with data := s }, [])
  | closes, some field => some (none, [field])
  | other, started => some (started, [])
  | _, _ => none

/-- The fields that commands make up, the first of which is open already if one is given. -/
def readFields (started : Option PlacedField) : List Text → Option (List PlacedField)
  | [] => if started.isSome then none else some []
  | piece :: rest => do
    let (started, complete) ← (FieldStep.ofCommand piece).next started
    return complete ++ (← readFields started rest)

/-- The fields of a text, if they stand one behind the other. -/
def fields? (s : Text) : Option (List PlacedField) :=
  readFields none (cut s)

variable {started : Option PlacedField} {fields : List PlacedField}

theorem readFields_cons_eq_some_iff {piece : Text} {rest : List Text} :
    readFields started (piece :: rest) = some fields ↔ ∃ after complete others,
      (FieldStep.ofCommand piece).next started = some (after, complete) ∧
        readFields after rest = some others ∧ fields = complete ++ others := by
  rw [readFields]
  constructor
  · intro h
    obtain ⟨⟨after, complete⟩, hnext, h⟩ := Option.bind_eq_some_iff.mp h
    obtain ⟨others, hothers, h⟩ := Option.bind_eq_some_iff.mp h
    cases h
    exact ⟨after, complete, others, hnext, hothers, rfl⟩
  · rintro ⟨after, complete, others, hnext, hothers, rfl⟩
    simp [hnext, hothers]

/-- What has been read is followed by what the commands behind it make up. -/
theorem readFields_append {others : List Text} {more : List PlacedField}
    (h : readFields started pieces = some fields) (hothers : readFields none others = some more) :
    readFields started (pieces ++ others) = some (fields ++ more) := by
  induction pieces generalizing started fields with
  | nil =>
    cases started with
    | none =>
      cases h
      exact hothers
    | some field => cases h
  | cons piece rest ih =>
    obtain ⟨after, complete, last, hnext, hlast, rfl⟩ := readFields_cons_eq_some_iff.mp h
    rw [List.cons_append, readFields_cons_eq_some_iff]
    exact ⟨after, complete, last ++ more, hnext, ih hlast, List.append_assoc ..⟩

/-! ### Openings and endings -/

/-- Of the given commands those that open or close a field, without what they say of it. -/
def marksOf (pieces : List Text) : List Text :=
  (pieces.map (·.take 3)).filter fun code => code = "^FO" ∨ code = "^FS"

/-- The commands of the text that open or close a field. -/
def fieldMarks (s : Text) : List Text :=
  marksOf (cut s)

def FieldStep.marks : FieldStep → List Text
  | opens _ => ["^FO"]
  | closes => ["^FS"]
  | data _ | other => []

theorem marksOf_cons (piece : Text) (rest : List Text) :
    marksOf (piece :: rest) = (FieldStep.ofCommand piece).marks ++ marksOf rest := by
  have hdata : Text.ofString "^FD" ≠ "^FO" ∧ Text.ofString "^FD" ≠ "^FS" := by decide
  rw [marksOf, List.map_cons, List.filter_cons, FieldStep.ofCommand]
  split_ifs <;> simp_all [FieldStep.marks, marksOf]

/-- The marks of so many fields, one behind the other. -/
def inTurn (count : Nat) : List Text :=
  (List.replicate count (["^FO", "^FS"] : List Text)).flatten

theorem inTurn_add (m n : Nat) : inTurn (m + n) = inTurn m ++ inTurn n := by
  rw [inTurn, List.replicate_add, List.flatten_append]
  rfl

/-- What has opened the field that is open, if one is. -/
def openingMarks : Option PlacedField → List Text
  | none => []
  | some _ => ["^FO"]

theorem FieldStep.marks_of_next {step : FieldStep} {after : Option PlacedField}
    {complete : List PlacedField} (h : step.next started = some (after, complete)) :
    openingMarks started ++ step.marks = inTurn complete.length ++ openingMarks after := by
  cases step <;> cases started <;> cases h <;> rfl

/-- A field that is open already is one of those that are read, and has only its end ahead. -/
theorem marksOf_of_readFields (h : readFields started pieces = some fields) :
    openingMarks started ++ marksOf pieces = inTurn fields.length := by
  induction pieces generalizing started fields with
  | nil =>
    cases started with
    | none =>
      cases h
      rfl
    | some field => cases h
  | cons piece rest ih =>
    obtain ⟨after, complete, others, hnext, hothers, rfl⟩ := readFields_cons_eq_some_iff.mp h
    rw [marksOf_cons, ← List.append_assoc, FieldStep.marks_of_next hnext, List.append_assoc,
      ih hothers, List.length_append, inTurn_add]

/-- Where fields can be read they open and close in turn. -/
theorem fieldMarks_of_fields? {s : Text} (h : fields? s = some fields) :
    fieldMarks s = inTurn fields.length :=
  marksOf_of_readFields h

/-! ### Fragments -/

/-- The text is made of whole commands, which make up the fields. -/
structure Prints (fragment : List Text) (fields : List PlacedField) : Prop where
  commands : ∀ s ∈ fragment, IsCommand s
  fields : readFields none fragment = some fields

namespace Prints

variable {fragment others : List Text} {more : List PlacedField} {separator : Text}

theorem nil : Prints [] [] :=
  ⟨nofun, rfl⟩

theorem append (h : Prints fragment fields) (h' : Prints others more) :
    Prints (fragment ++ others) (fields ++ more) :=
  ⟨List.forall_mem_append.mpr ⟨h.commands, h'.commands⟩, readFields_append h.fields h'.fields⟩

theorem fields?_flatten (h : Prints fragment fields) : fields? fragment.flatten = some fields := by
  rw [fields?, cut_flatten h.commands, h.fields]

end Prints

/-- The commands of a fragment with a separator behind the last one. -/
def endedBy (separator : Text) : List Text → List Text
  | [] => []
  | [last] => [last ++ separator]
  | piece :: next :: rest => piece :: endedBy separator (next :: rest)

variable {fragment : List Text} {separator : Text}

theorem flatten_endedBy (h : fragment ≠ []) :
    (endedBy separator fragment).flatten = fragment.flatten ++ separator := by
  fun_induction endedBy separator fragment with
  | case1 => exact absurd rfl h
  | case2 last => simp
  | case3 piece next rest ih =>
    rw [List.flatten_cons, ih (List.cons_ne_nil _ _), ← List.append_assoc, ← List.flatten_cons]

/-- A command that leaves no field open does the same with a separator behind it. -/
theorem FieldStep.next_of_append (separator : Text) {last : Text} (hlast : last.IsCommand)
    {complete : List PlacedField}
    (h : (FieldStep.ofCommand last).next started = some (none, complete)) :
    (FieldStep.ofCommand (last ++ separator)).next started = some (none, complete) := by
  have htake : (last ++ separator).take 3 = last.take 3 := List.take_append_of_le_length hlast.coded
  unfold FieldStep.ofCommand at h ⊢
  rw [htake]
  split_ifs at h ⊢
  · cases started <;> cases h
  · cases started <;> cases h
  · exact h
  · exact h

theorem isCommand_of_mem_endedBy (hseparator : separator.Unmarked)
    (h : ∀ s ∈ fragment, IsCommand s) : ∀ s ∈ endedBy separator fragment, IsCommand s := by
  fun_induction endedBy separator fragment with
  | case1 => nofun
  | case2 last =>
    exact List.forall_mem_singleton.mpr ((h last List.mem_cons_self).append hseparator)
  | case3 piece next rest ih =>
    rw [List.forall_mem_cons] at h
    exact List.forall_mem_cons.mpr ⟨h.1, ih h.2⟩

theorem readFields_endedBy (hcommands : ∀ s ∈ fragment, IsCommand s)
    (h : readFields started fragment = some fields) :
    readFields started (endedBy separator fragment) = some fields := by
  fun_induction endedBy separator fragment generalizing started fields with
  | case1 => exact h
  | case2 last =>
    obtain ⟨after, complete, others, hnext, hothers, rfl⟩ := readFields_cons_eq_some_iff.mp h
    cases after with
    | some field => cases hothers
    | none =>
      have hlast := FieldStep.next_of_append separator (hcommands last List.mem_cons_self) hnext
      exact readFields_cons_eq_some_iff.mpr ⟨none, complete, others, hlast, hothers, rfl⟩
  | case3 piece next rest ih =>
    rw [List.forall_mem_cons] at hcommands
    obtain ⟨after, complete, others, hnext, hothers, rfl⟩ := readFields_cons_eq_some_iff.mp h
    exact readFields_cons_eq_some_iff.mpr
      ⟨after, complete, others, hnext, ih hcommands.2 hothers, rfl⟩

/-- A separator behind a fragment does not belong to any of its fields. -/
theorem Prints.endedBy (h : Prints fragment fields) (hseparator : separator.Unmarked) :
    Prints (endedBy separator fragment) fields :=
  ⟨isCommand_of_mem_endedBy hseparator h.commands, readFields_endedBy h.commands h.fields⟩

/-- Fragments that are made of whole commands, and the fields that each of them makes up. -/
inductive PrintsAll : List (List Text) → List PlacedField → Prop
  | nil : PrintsAll [] []
  | cons {fragment : List Text} {fields : List PlacedField} {rest : List (List Text)}
      {more : List PlacedField} (first : Prints fragment fields) (others : PrintsAll rest more) :
      PrintsAll (fragment :: rest) (fields ++ more)

namespace PrintsAll

variable {fragments others : List (List Text)} {more : List PlacedField}

theorem append (h : PrintsAll fragments fields) (h' : PrintsAll others more) :
    PrintsAll (fragments ++ others) (fields ++ more) := by
  induction h with
  | nil => exact h'
  | cons first _ ih =>
    rw [List.cons_append, List.append_assoc]
    exact .cons first ih

/-- One behind the other, with a separator behind each, they make up their fields in order. -/
theorem endedBy (h : PrintsAll fragments fields) (hseparator : separator.Unmarked) :
    Prints (fragments.flatMap (endedBy separator)) fields := by
  induction h with
  | nil => exact .nil
  | cons first _ ih => exact (first.endedBy hseparator).append ih

end PrintsAll

/-- Fragments that stand one behind the other, each with the separator behind it. -/
theorem flatten_flatMap_endedBy {fragments : List (List Text)} (h : ∀ f ∈ fragments, f ≠ []) :
    (fragments.flatMap (endedBy separator)).flatten =
      (fragments.map List.flatten).flatMap (· ++ separator) := by
  induction fragments with
  | nil => rfl
  | cons fragment rest ih =>
    rw [List.forall_mem_cons] at h
    rw [List.flatMap_cons, List.flatten_append, flatten_endedBy h.1, ih h.2]
    rfl

end ThermalLabel.Text
