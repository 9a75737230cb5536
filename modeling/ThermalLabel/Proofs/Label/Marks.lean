import Mathlib.Data.List.Forall2
import ThermalLabel.Text.CodePoint

/-!
# Marks and commands

A printer starts a command at every caret and every tilde, whatever stands around it, and takes
the next two letters for the code of the command.  `cut` divides a text in that way, with no
regard to how it was put together.  `Commands` is for texts whose parts are known: the codes of
such texts can be read off their parts, because what is unmarked only lengthens the command before
it.
-/
namespace ThermalLabel.Text

def isMark (c : CodePoint) : Bool :=
  c == .char '^' || c == .char '~'

/-- No command starts in the text. -/
def Unmarked (s : Text) : Prop :=
  ∀ c ∈ s, isMark c = false

instance (s : Text) : Decidable s.Unmarked :=
  inferInstanceAs (Decidable (∀ c ∈ s, isMark c = false))

/-- The text starts with a command. -/
def opens : Text → Bool
  | [] => false
  | c :: _ => isMark c

/-- The text cut before every mark. -/
def cut : Text → List Text
  | [] => []
  | c :: rest =>
    match cut rest with
    | [] => [[c]]
    | piece :: pieces => if opens piece then [c] :: piece :: pieces else (c :: piece) :: pieces

/-- The two letters after the mark of a command; a piece that is no command has none. -/
def code? : Text → Option Text
  | [] => none
  | c :: rest => if isMark c then some (rest.take 2) else none

/-- The codes of the commands in a text; what stands before the first one is passed over. -/
def commandCodes : Text → List Text
  | [] => []
  | c :: rest =>
    if isMark c then (rest.takeWhile fun d => !isMark d).take 2 :: commandCodes rest
    else commandCodes rest

theorem Unmarked.append {s t : Text} (hs : s.Unmarked) (ht : t.Unmarked) :
    Unmarked (s ++ t) := by
  intro c hc
  rcases List.mem_append.mp hc with hc | hc
  · exact hs c hc
  · exact ht c hc

theorem opens_append {s t : Text} (h : s.opens = true) : (s ++ t).opens = true := by
  cases s with
  | nil => cases h
  | cons c rest => exact h

theorem opens_cut {s : Text} (h : s.opens = true) :
    ∃ piece pieces, cut s = piece :: pieces ∧ piece.opens = true := by
  cases s with
  | nil => cases h
  | cons c rest =>
    rw [cut]
    split
    · exact ⟨_, _, rfl, h⟩
    · split
      · exact ⟨_, _, rfl, h⟩
      · exact ⟨_, _, rfl, h⟩

/-- A piece ends where the next command starts. -/
theorem cut_unmarked_append {c : CodePoint} {s t : Text} (hs : s.Unmarked)
    (ht : t = [] ∨ t.opens = true) : cut (c :: (s ++ t)) = (c :: s) :: cut t := by
  induction s generalizing c with
  | nil =>
    rw [List.nil_append, cut]
    rcases ht with rfl | ht
    · rfl
    · obtain ⟨piece, pieces, hcut, hopens⟩ := opens_cut ht
      rw [hcut]
      simp [hopens]
  | cons d rest ih =>
    have hd : isMark d = false := hs d List.mem_cons_self
    have hrest := ih (c := d) fun e he => hs e (List.mem_cons_of_mem _ he)
    rw [List.cons_append, cut, hrest]
    simp [opens, hd]

theorem commandCodes_append {s : Text} (hs : s.Unmarked) (t : Text) :
    commandCodes (s ++ t) = commandCodes t := by
  induction s with
  | nil => rfl
  | cons c rest ih =>
    rw [List.cons_append, commandCodes, hs c List.mem_cons_self]
    exact ih fun d hd => hs d (List.mem_cons_of_mem _ hd)

/-- Every text is a head without marks and a tail that is empty or starts with one. -/
theorem exists_head (s : Text) : ∃ head tail, s = head ++ tail ∧ head.Unmarked ∧
    head = (s.takeWhile fun c => !isMark c) ∧ (tail = [] ∨ tail.opens = true) := by
  induction s with
  | nil => exact ⟨[], [], rfl, by simp [Unmarked], rfl, Or.inl rfl⟩
  | cons c rest ih =>
    cases hc : isMark c with
    | true => exact ⟨[], c :: rest, rfl, by simp [Unmarked], by simp [hc], Or.inr hc⟩
    | false =>
      obtain ⟨head, tail, hsplit, hhead, htake, htail⟩ := ih
      refine ⟨c :: head, tail, by rw [hsplit]; rfl, ?_, by simp [hc, ← htake], htail⟩
      intro d hd
      rcases List.mem_cons.mp hd with rfl | hd
      · exact hc
      · exact hhead d hd

/-- The pieces of a text that starts with a command are its commands. -/
theorem map_code?_cut {s : Text} (h : s = [] ∨ s.opens = true) :
    (cut s).map code? = (commandCodes s).map some := by
  induction hn : s.length using Nat.strongRecOn generalizing s with
  | ind n ih =>
    rcases h with rfl | h
    · rfl
    · cases s with
      | nil => rfl
      | cons c rest =>
        obtain ⟨head, tail, hsplit, hhead, htake, htail⟩ := exists_head rest
        have hlength : tail.length < n := by
          rw [← hn, hsplit, List.length_cons, List.length_append]
          omega
        have hc : isMark c = true := h
        rw [commandCodes, if_pos hc, ← htake, hsplit, cut_unmarked_append hhead htail,
          commandCodes_append hhead]
        simp only [List.map_cons, code?, if_pos hc, ih _ hlength htail rfl]

/-- The text adds commands of the given codes to whatever follows it. -/
def Adds (codesOfText : List Text) (s : Text) : Prop :=
  ∀ rest, commandCodes (s ++ rest) = codesOfText ++ commandCodes rest

theorem Adds.append {cs ds : List Text} {s t : Text} (hs : Adds cs s) (ht : Adds ds t) :
    Adds (cs ++ ds) (s ++ t) := by
  intro rest
  rw [List.append_assoc, hs, ht, List.append_assoc]

theorem Unmarked.adds {s : Text} (h : s.Unmarked) : Adds [] s :=
  commandCodes_append h

/-- The text is made of commands of the given codes. -/
structure Commands (codesOfText : List Text) (s : Text) : Prop where
  opens : s.opens = true
  adds : Adds codesOfText s

theorem Commands.append_unmarked {cs : List Text} {s t : Text} (h : Commands cs s)
    (ht : t.Unmarked) : Commands cs (s ++ t) :=
  ⟨opens_append h.opens, by simpa using h.adds.append ht.adds⟩

/-- Commands with an unmarked separator behind each text are the commands of the texts. -/
theorem flatMap_commands {groups : List (List Text)} {texts : List Text}
    (h : List.Forall₂ Commands groups texts) {separator : Text} (hsep : separator.Unmarked) :
    (cut (texts.flatMap (· ++ separator))).map code? = groups.flatten.map some := by
  suffices hboth : (texts.flatMap (· ++ separator) = [] ∨
      opens (texts.flatMap (· ++ separator)) = true) ∧
      Adds groups.flatten (texts.flatMap (· ++ separator)) by
    have hcodes := hboth.2 []
    rw [List.append_nil, commandCodes, List.append_nil] at hcodes
    rw [map_code?_cut hboth.1, hcodes]
  induction h with
  | nil => exact ⟨Or.inl rfl, fun _ => rfl⟩
  | cons hfirst _ ih =>
    have hcommands := hfirst.append_unmarked hsep
    rw [List.flatMap_cons, List.flatten_cons]
    refine ⟨Or.inr ?_, hcommands.adds.append ih.2⟩
    exact opens_append hcommands.opens

end ThermalLabel.Text
