import Mathlib.Data.List.Induction
import ThermalLabel.Log.Channel

/-!
# Loggers below a channel

The channel of a logger hangs on its name alone, whichever other loggers are known: the name of
the channel's logger, or that name followed by parts with a dot in front of each.
-/
namespace ThermalLabel.Log

/-- The name of a logger and parts below it, a dot in front of each. -/
def nameBelow (base : Text) (parts : List Text) : Text :=
  base ++ parts.flatMap fun part => .char '.' :: part

/-- The logger is that of a channel or below it, and no part of its name is empty. -/
def Belongs (c : Channel) (logger : Text) : Prop :=
  ∃ parts, logger = nameBelow (Text.ofString c.logger) parts ∧
    ∀ part ∈ parts, part ≠ [] ∧ .char '.' ∉ part

/-- The name of the logger is that of a channel, or goes on with a dot behind it. -/
def Under (c : Channel) (logger : Text) : Prop :=
  logger = Text.ofString c.logger ∨ Text.ofString c.logger ++ [.char '.'] <+: logger

theorem belongs_logger (c : Channel) : Belongs c (Text.ofString c.logger) :=
  ⟨[], by simp [nameBelow], nofun⟩

theorem logger_inj_of_isPrefixOf : ∀ {c d : Channel},
    Text.ofString c.logger <+: Text.ofString d.logger → c = d := by
  intro c d
  cases c <;> cases d <;> decide

theorem Under.prefix_logger {c : Channel} {logger : Text} (h : Under c logger) :
    Text.ofString c.logger <+: logger := by
  rcases h with rfl | h
  · exact List.prefix_rfl
  · exact (List.prefix_append _ _).trans h

/-- No logger is below two channels. -/
theorem Under.unique {c d : Channel} {logger : Text} (hc : Under c logger) (hd : Under d logger) :
    c = d := by
  rcases List.prefix_or_prefix_of_prefix hc.prefix_logger hd.prefix_logger with h | h
  · exact logger_inj_of_isPrefixOf h
  · exact (logger_inj_of_isPrefixOf h).symm

theorem ofLogger?_eq_some_iff {c : Channel} {logger : Text} :
    Channel.ofLogger? logger = some c ↔ logger = Text.ofString c.logger := by
  constructor
  · intro h
    have hname : (Text.ofString c.logger == logger) = true :=
      List.find?_some (p := fun c : Channel => Text.ofString c.logger == logger) h
    exact (beq_iff_eq.mp hname).symm
  · rintro rfl
    cases c <;> decide

/-! ### One step to the nearest logger above -/

theorem channelAbove_of_logger {known : List Text} {s : Text} {c : Channel}
    (h : Channel.ofLogger? s.reverse = some c) : channelAbove known s = some c := by
  rw [channelAbove]
  split
  · rename_i c' hc'
    rw [h] at hc'
    exact hc'.symm
  · rename_i hnone
    rw [h] at hnone
    cases hnone

theorem channelAbove_of_ne {known : List Text} {s : Text}
    (h : Channel.ofLogger? s.reverse = none) :
    channelAbove known s =
      ((namesAbove s).find? fun p => known.contains p.reverse).bind (channelAbove known) := by
  rw [channelAbove]
  split
  · rename_i c hc
    rw [h] at hc
    cases hc
  · split
    · rename_i hfind
      rw [hfind]
      rfl
    · rename_i p hfind
      change channelAbove known p = _
      rw [hfind]
      rfl

/-! ### Only loggers under a channel reach it -/

theorem exists_of_mem_namesAbove {s p : Text} (h : p ∈ namesAbove s) :
    ∃ t, s = t ++ .char '.' :: p := by
  fun_induction namesAbove s with
  | case1 => cases h
  | case2 c rest ih =>
    rcases List.mem_cons.mp h with rfl | h
    · exact ⟨[], rfl⟩
    · obtain ⟨t, rfl⟩ := ih h
      exact ⟨.char '.' :: c :: t, rfl⟩
  | case3 c rest _ ih =>
    obtain ⟨t, rfl⟩ := ih h
    exact ⟨c :: t, rfl⟩

theorem Under.append {c : Channel} {logger : Text} (h : Under c logger) (rest : Text) :
    Under c (logger ++ .char '.' :: rest) := by
  right
  rcases h with rfl | ⟨more, rfl⟩
  · exact ⟨rest, by simp⟩
  · exact ⟨more ++ .char '.' :: rest, by simp⟩

theorem under_of_channelAbove {known : List Text} {s : Text} {c : Channel}
    (h : channelAbove known s = some c) : Under c s.reverse := by
  induction hlength : s.length using Nat.strongRecOn generalizing s with
  | ind n ih =>
    subst hlength
    cases hlogger : Channel.ofLogger? s.reverse with
    | some c' =>
      rw [channelAbove_of_logger hlogger] at h
      cases h
      exact .inl (ofLogger?_eq_some_iff.mp hlogger)
    | none =>
      rw [channelAbove_of_ne hlogger] at h
      obtain ⟨p, hfind, hp⟩ := Option.bind_eq_some_iff.mp h
      have hmem := List.mem_of_find?_eq_some hfind
      obtain ⟨t, ht⟩ := exists_of_mem_namesAbove hmem
      have hreverse : s.reverse = p.reverse ++ .char '.' :: t.reverse := by
        rw [ht]
        simp
      rw [hreverse]
      exact (ih p.length (length_of_mem_namesAbove s p hmem) hp rfl).append t.reverse

theorem under_of_channelOf {known : List Text} {logger : Text} {c : Channel}
    (h : channelOf known logger = some c) : Under c logger := by
  have hunder := under_of_channelAbove h
  rwa [List.reverse_reverse] at hunder

/-! ### Loggers that belong to a channel reach it -/

theorem namesAbove_append {part : Text} (hpart : .char '.' ∉ part) (s : Text) :
    namesAbove (part ++ s) = namesAbove s := by
  induction part with
  | nil => rfl
  | cons c part ih =>
    have hc : c ≠ .char '.' := fun h => hpart (h ▸ List.mem_cons_self)
    have hrest : CodePoint.char '.' ∉ part := fun h => hpart (List.mem_cons_of_mem c h)
    rw [List.cons_append, namesAbove, ih hrest]
    exact fun _ _ h _ => hc h

/-- The names above one that ends with a part. -/
theorem namesAbove_part {part : Text} (hpart : .char '.' ∉ part) {c : CodePoint} (hc : c ≠ '.')
    (rest : Text) :
    namesAbove (part.reverse ++ .char '.' :: c :: rest) =
      (c :: rest) :: namesAbove (c :: rest) := by
  rw [namesAbove_append (fun h => hpart (List.mem_reverse.mp h)), namesAbove]
  congr 1
  have hsingle : CodePoint.char '.' ∉ [c] := by simpa using hc.symm
  exact (namesAbove_append hsingle rest).symm

/-- A logger one part further down has the same channel, known or not. -/
theorem channelAbove_part {known : List Text}
    (hknown : ∀ c : Channel, Text.ofString c.logger ∈ known) {part : Text}
    (hpart : .char '.' ∉ part) {c : CodePoint} (hc : c ≠ '.') {rest : Text}
    (hlogger : Channel.ofLogger? (part.reverse ++ .char '.' :: c :: rest).reverse = none) :
    channelAbove known (part.reverse ++ .char '.' :: c :: rest) =
      channelAbove known (c :: rest) := by
  rw [channelAbove_of_ne hlogger, namesAbove_part hpart hc]
  by_cases hmem : known.contains (c :: rest).reverse = true
  · simp only [List.find?_cons, hmem]
    rfl
  · have hnone : Channel.ofLogger? (c :: rest).reverse = none := by
      rw [Option.eq_none_iff_forall_ne_some]
      intro d hd
      rw [ofLogger?_eq_some_iff] at hd
      rw [hd] at hmem
      exact hmem (List.contains_iff_mem.mpr (hknown d))
    simp only [List.find?_cons, hmem]
    exact (channelAbove_of_ne hnone).symm

/-- The name of a channel's logger with parts below it is that of no channel. -/
theorem ofLogger?_nameBelow (c : Channel) {parts : List Text} (h : parts ≠ []) :
    Channel.ofLogger? (nameBelow (Text.ofString c.logger) parts) = none := by
  rw [Option.eq_none_iff_forall_ne_some]
  intro d hd
  rw [ofLogger?_eq_some_iff] at hd
  have hcd : c = d := logger_inj_of_isPrefixOf ⟨_, hd⟩
  subst hcd
  obtain ⟨part, rest, rfl⟩ := List.exists_cons_of_ne_nil h
  simp [nameBelow] at hd

theorem reverse_nameBelow_append (base : Text) (parts : List Text) (part : Text) :
    (nameBelow base (parts ++ [part])).reverse =
      part.reverse ++ .char '.' :: (nameBelow base parts).reverse := by
  simp [nameBelow]

/-- A name without empty parts does not end with a dot. -/
theorem reverse_nameBelow_head (c : Channel) {parts : List Text}
    (hparts : ∀ part ∈ parts, part ≠ [] ∧ .char '.' ∉ part) :
    ∃ d rest, (nameBelow (Text.ofString c.logger) parts).reverse = d :: rest ∧
      d ≠ .char '.' := by
  induction parts using List.reverseRecOn with
  | nil =>
    have hbase : ∃ d rest, (Text.ofString c.logger).reverse = d :: rest ∧ d ≠ .char '.' := by
      cases c
      · exact ⟨_, _, rfl, by decide⟩
      · exact ⟨_, _, rfl, by decide⟩
      · exact ⟨_, _, rfl, by decide⟩
    simpa [nameBelow] using hbase
  | append_singleton parts part _ =>
    obtain ⟨hne, hdot⟩ := hparts part (by simp)
    obtain ⟨d, rest, hd⟩ := List.exists_cons_of_ne_nil (List.reverse_ne_nil_iff.mpr hne)
    rw [reverse_nameBelow_append, hd]
    refine ⟨d, _, rfl, ?_⟩
    rintro rfl
    exact hdot (List.mem_reverse.mp (hd ▸ List.mem_cons_self))

theorem channelOf_of_belongs {c : Channel} {logger : Text} (h : Belongs c logger)
    (known : List Text) : channelOf known logger = some c := by
  obtain ⟨parts, rfl, hparts⟩ := h
  have hknown : ∀ d : Channel, Text.ofString d.logger ∈
      (Channel.all.map fun c => Text.ofString c.logger) ++ known := by
    intro d
    apply List.mem_append_left
    cases d <;> decide
  unfold channelOf
  induction parts using List.reverseRecOn with
  | nil =>
    apply channelAbove_of_logger
    rw [List.reverse_reverse, ofLogger?_eq_some_iff]
    simp [nameBelow]
  | append_singleton parts part ih =>
    have hinit : ∀ part ∈ parts, part ≠ [] ∧ .char '.' ∉ part :=
      fun q hq => hparts q (List.mem_append_left _ hq)
    obtain ⟨d, rest, hhead, hd⟩ := reverse_nameBelow_head c hinit
    have hlogger := ofLogger?_nameBelow c (List.append_ne_nil_of_right_ne_nil parts
      (List.cons_ne_nil part []))
    rw [← List.reverse_reverse (nameBelow _ _), reverse_nameBelow_append, hhead] at hlogger
    rw [reverse_nameBelow_append, hhead,
      channelAbove_part hknown (hparts part (by simp)).2 hd hlogger, ← hhead]
    exact ih hinit

end ThermalLabel.Log
