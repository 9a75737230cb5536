import Mathlib.Data.List.Forall2
import ThermalLabel.Label.Document

/-!
# The history of a label

A label is asked for anything, with any values for arguments, over and over.  Whatever comes of it,
the fragments that it has stay in place, and its settings stay as they are.  A call that returns
adds the number of fragments that belongs to its method, which for a wrapped text is the number of
lines that it wrote; a call that fails adds nothing, and a wrapped text that fails keeps its first
lines.

Values do not change.  Lists that do, and objects of other kinds, are left to
`Proofs/Label/Objects`.
-/
namespace ThermalLabel

/-! ### Lines of a wrapped text, whatever its limit is -/

namespace Wrap

/-- The texts of the lines of a text under a limit of any kind. -/
def linesUnder (limit : Value) (s : Text) : List Text :=
  if Text.blank s then []
  else match limit.limit with
    | .error _ => []
    | .ok fits => if fits s.length then [s] else (lines fits (words s)).map lineText

/-- The fragment is a line, written at some position. -/
def IsLine (write : Value → Text → Except Fault Text) (line : Text) (fragment : Value) : Prop :=
  ∃ y s, write y line = .ok s ∧ fragment = .text s

/-- The emission has one fragment a line, from the first line on.  It stops before the last one only
when it fails, or with a notice when the next one would lie too low. -/
structure LineByLine (write : Value → Text → Except Fault Text) (lines : List Text)
    (e : Emission) : Prop where
  each : List.Forall₂ (IsLine write) (lines.take e.fragments.length) e.fragments
  whole : ∀ o, e.outcome = .ok o → e.notices = [] → e.fragments.length = lines.length
  short : e.notices ≠ [] → 0 < e.fragments.length ∧ e.fragments.length < lines.length

variable {write : Value → Text → Except Fault Text} {y : Value} {line s : Text}
  {rest : List Text} {e : Emission} {f : Fault}

theorem LineByLine.nothing (y : Value) :
    LineByLine write [] { fragments := [], outcome := .ok (.endingY y) } where
  each := .nil
  whole _ _ _ := rfl
  short h := absurd rfl h

theorem LineByLine.fault (lines : List Text) (f : Fault) : LineByLine write lines (.fault f) where
  each := .nil
  whole o ho _ := by cases ho
  short h := absurd rfl h

/-- A line that is written stands before those that follow it. -/
theorem LineByLine.cons (hs : write y line = .ok s) (h : LineByLine write rest e) :
    LineByLine write (line :: rest) (.cons s e) where
  each := .cons ⟨y, s, hs, rfl⟩ h.each
  whole o ho hn := by
    have hrest := h.whole o ho hn
    simpa [Emission.cons] using hrest
  short hn := by
    obtain ⟨-, hlt⟩ := h.short hn
    constructor
    · exact Nat.succ_pos _
    · simpa [Emission.cons] using hlt

/-- The last line that lies high enough is followed by a notice, or by a fault in place of it. -/
theorem LineByLine.last (hs : write y line = .ok s) (hrest : rest ≠ []) (he : e.fragments = [])
    (hn : ∀ o, e.outcome = .ok o → e.notices ≠ []) :
    LineByLine write (line :: rest) (.cons s e) where
  each := by
    simp only [Emission.cons, he]
    exact .cons ⟨y, s, hs, rfl⟩ .nil
  whole o ho hnil := absurd hnil (hn o ho)
  short _ := by
    have hpos : 0 < rest.length := List.length_pos_iff.mpr hrest
    simp only [Emission.cons, he, List.length_cons, List.length_nil]
    omega

theorem place_lineByLine (interval maxY y : Value) (rest : List (List Word)) :
    LineByLine write (rest.map lineText) (place write interval maxY y rest) := by
  induction rest generalizing y with
  | nil => exact LineByLine.nothing y
  | cons line rest ih =>
    rw [place]
    cases hs : write y (lineText line) with
    | error f => exact LineByLine.fault _ f
    | ok s =>
      dsimp only
      cases rest with
      | nil => exact (LineByLine.nothing y).cons hs
      | cons line' rest' =>
        -- What follows this line is decided by the position of the next one.
        have hmore : (line' :: rest').map lineText ≠ [] := by simp
        simp only [List.isEmpty_cons, Bool.false_eq_true, if_false]
        cases y.add interval with
        | error f => exact LineByLine.last hs hmore rfl nofun
        | ok next =>
          dsimp only
          cases next.exceeds maxY with
          | error f => exact LineByLine.last hs hmore rfl nofun
          | ok low =>
            cases low with
            | true => exact LineByLine.last hs hmore rfl fun _ _ => by simp [cut]
            | false => exact (ih next).cons hs

theorem text_lineByLine (limit interval maxY y : Value) (s : Text) :
    LineByLine write (linesUnder limit s) (text write limit interval maxY y s) := by
  unfold linesUnder text
  split
  · exact LineByLine.nothing y
  · cases limit.limit with
    | error f => exact LineByLine.fault _ f
    | ok fits =>
      dsimp only
      split
      · cases hs : write y s with
        | error f => exact LineByLine.fault _ f
        | ok t => exact (LineByLine.nothing y).cons hs
      · exact place_lineByLine interval maxY y _

end Wrap

/-! ### What an operation adds -/

namespace Arguments

/-- The lines of the text that a wrapped text is given; a value that is no text has none. -/
def lines (a : Arguments) : List Text :=
  match a .value with
  | .text s => Wrap.linesUnder (a .wrap) s
  | _ => []

/-- How a line of a wrapped text is written. -/
def writeLine (config : Config) (a : Arguments) : Value → Text → Except Fault Text :=
  textField config (a .orientation) (a .justification) (a .x)

end Arguments

/-- The number of fragments of an operation; that of a wrapped text depends on the text. -/
def Operation.fragmentCount? : Operation → Option Nat
  | .finish => some 2
  | .addVoidMessage => some 9
  | .writeTextAtWithWrap => none
  | _ => some 1

theorem Operation.eq_wrap_of_fragmentCount? {op : Operation} (h : op.fragmentCount? = none) :
    op = .writeTextAtWithWrap := by
  cases op <;> simp_all [fragmentCount?]

theorem emit_wrap_lineByLine (config : Config) (a : Arguments) :
    Wrap.LineByLine (a.writeLine config) a.lines
      (Operation.emit config a .writeTextAtWithWrap) := by
  rw [Operation.emit, Arguments.lines]
  cases a .value with
  | null => exact Wrap.LineByLine.nothing _
  | text s => exact Wrap.text_lineByLine _ _ _ _ s
  | _ => exact Wrap.LineByLine.fault _ _

/-- An operation with a fixed number of fragments adds all of them or none. -/
theorem Operation.emit_all_or_none (config : Config) (a : Arguments) {op : Operation} {n : Nat}
    (hn : op.fragmentCount? = some n) :
    (∀ o, (op.emit config a).outcome = .ok o → (op.emit config a).fragments.length = n) ∧
    (∀ f, (op.emit config a).outcome = .error f → (op.emit config a).fragments = []) := by
  have hdone (fragments : List Value) (hlength : fragments.length = n) :
      (∀ o, (Emission.done fragments).outcome = .ok o →
        (Emission.done fragments).fragments.length = n) ∧
      (∀ f, (Emission.done fragments).outcome = .error f →
        (Emission.done fragments).fragments = []) :=
    ⟨fun _ _ => hlength, nofun⟩
  have hone (r : Except Fault Text) (hlength : 1 = n) :
      (∀ o, (Emission.one r).outcome = .ok o → (Emission.one r).fragments.length = n) ∧
      (∀ f, (Emission.one r).outcome = .error f → (Emission.one r).fragments = []) := by
    cases r with
    | ok s => exact ⟨fun _ _ => hlength, nofun⟩
    | error f => exact ⟨nofun, fun _ _ => rfl⟩
  cases op with
  | writeTextAtWithWrap => cases hn
  | start | finish | raw | reversePrint | endField | addVoidMessage =>
    exact hdone _ (Option.some.inj hn)
  | _ => exact hone _ (Option.some.inj hn)

/-! ### Calls of any kind, one after another -/

/-- A call of something that a label can be asked for. -/
structure Invocation where
  method : Method
  given : List Value := []
  named : Fields := []

/-- What comes back from an operation that was performed. -/
def Reply.ofEmission (e : Emission) : Reply :=
  ⟨e.fragments, e.notices, e.outcome.map .outcome⟩

/-- The number of fragments that a call adds if it returns. -/
def Method.fragmentCount? : Method → Option Nat
  | .operation op => op.fragmentCount?
  | _ => some 0

/-- What a call may add to a label, given how it ends: all of its fragments, or, if it fails, none
of them.  A wrapped text is written line by line. -/
def Invocation.Adds (config : Config) (i : Invocation) (reply : Reply) : Prop :=
  match i.method.fragmentCount? with
  | some n =>
    (∀ answer, reply.answer = .ok answer → reply.added.length = n) ∧
    (∀ f, reply.answer = .error f → reply.added = [])
  | none =>
    match bindCall Operation.writeTextAtWithWrap.fields i.given i.named with
    | .error f => reply = { answer := .error f }
    | .ok a => ∃ e, reply = .ofEmission e ∧ Wrap.LineByLine (a.writeLine config) a.lines e

namespace Document

/-- The label after a call, whether the call has failed or not. -/
def after (d : Document) (i : Invocation) : Document :=
  (d.call i.method i.given i.named).1

def reply (d : Document) (i : Invocation) : Reply :=
  (d.call i.method i.given i.named).2

def afterAll (d : Document) (history : List Invocation) : Document :=
  history.foldl after d

variable {d : Document}

/-- A call adds to the fragments what it replies that it has added, and touches nothing else. -/
theorem after_eq_append (d : Document) (i : Invocation) :
    d.after i = d.append (d.reply i).added := by
  obtain ⟨config, fragments⟩ := d
  unfold after reply call
  split
  · split
    · simp [append]
    · rfl
  · simp [append]

theorem reply_operation (d : Document) (op : Operation) (given : List Value) (named : Fields) :
    d.reply ⟨.operation op, given, named⟩ =
      match bindCall op.fields given named with
      | .error f => { answer := .error f }
      | .ok a => .ofEmission (op.emit d.config a) := by
  simp only [reply, call]
  cases bindCall op.fields given named <;> rfl

theorem reply_adds (d : Document) (i : Invocation) : i.Adds d.config (d.reply i) := by
  obtain ⟨m, given, named⟩ := i
  cases m with
  | operation op =>
    have hreply := reply_operation d op given named
    unfold Invocation.Adds
    cases hn : (Method.operation op).fragmentCount? with
    | none =>
      obtain rfl := Operation.eq_wrap_of_fragmentCount? hn
      rw [hreply]
      dsimp only
      cases bindCall Operation.writeTextAtWithWrap.fields given named with
      | error f => rfl
      | ok a => exact ⟨_, rfl, emit_wrap_lineByLine d.config a⟩
    | some n =>
      rw [hreply]
      cases bindCall op.fields given named with
      | error f => exact ⟨nofun, fun _ _ => rfl⟩
      | ok a =>
        obtain ⟨hall, hnone⟩ := Operation.emit_all_or_none d.config a hn
        dsimp only [Reply.ofEmission]
        cases ho : (op.emit d.config a).outcome with
        | ok o => exact ⟨fun _ _ => hall o ho, nofun⟩
        | error f => exact ⟨nofun, fun _ _ => hnone f ho⟩
  | _ => exact ⟨fun _ _ => rfl, fun _ _ => rfl⟩

theorem afterAll_append (d : Document) (before later : List Invocation) :
    d.afterAll (before ++ later) = (d.afterAll before).afterAll later :=
  List.foldl_append

/-- The settings stay, and what was there stays in front of everything that is added. -/
theorem afterAll_extends (d : Document) (history : List Invocation) :
    (d.afterAll history).config = d.config ∧ d.fragments <+: (d.afterAll history).fragments := by
  induction history generalizing d with
  | nil => exact ⟨rfl, List.prefix_refl _⟩
  | cons i rest ih =>
    obtain ⟨hconfig, hextends⟩ := ih (d.after i)
    rw [after_eq_append] at hconfig hextends
    change ((d.after i).afterAll rest).config = d.config ∧
      d.fragments <+: ((d.after i).afterAll rest).fragments
    rw [after_eq_append]
    constructor
    · exact hconfig
    · exact (List.prefix_append _ _).trans hextends

end Document

theorem renderFragments_append (separator : Text) (first second : List Value) :
    renderFragments separator (first ++ second) = do
      let s ← renderFragments separator first
      return s ++ (← renderFragments separator second) := by
  induction first with
  | nil =>
    simp only [List.nil_append, renderFragments, bind, Except.bind, pure, Except.pure]
    cases renderFragments separator second <;> rfl
  | cons v rest ih =>
    simp only [List.cons_append, renderFragments, ih, bind, Except.bind, pure, Except.pure]
    cases v.toText with
    | error f => rfl
    | ok t =>
      dsimp only
      cases renderFragments separator rest with
      | error f => rfl
      | ok s =>
        dsimp only
        cases renderFragments separator second with
        | error f => rfl
        | ok u => simp

theorem renderFragments_of_texts (separator : Text) {fragments : List Value}
    (h : ∀ v ∈ fragments, ∃ s, v = .text s) :
    ∃ t, renderFragments separator fragments = .ok t := by
  induction fragments with
  | nil => exact ⟨[], rfl⟩
  | cons v rest ih =>
    rw [List.forall_mem_cons] at h
    obtain ⟨⟨s, rfl⟩, hrest⟩ := h
    obtain ⟨t, ht⟩ := ih hrest
    refine ⟨s ++ separator ++ t, ?_⟩
    simp only [renderFragments, ht, Value.toText, bind, Except.bind, pure, Except.pure]

namespace Document

variable {d : Document}

/-- What a label renders to starts with what it rendered to when it had fewer fragments. -/
theorem render_prefix {last : Document} (hconfig : last.config = d.config)
    (hextends : d.fragments <+: last.fragments) {t : Text} (h : last.render = .ok t) :
    ∃ s, d.render = .ok s ∧ s <+: t := by
  obtain ⟨others, hothers⟩ := hextends
  rw [render, hconfig, ← hothers, renderFragments_append] at h
  rw [render]
  cases hs : renderFragments d.config.separator d.fragments with
  | error f =>
    rw [hs] at h
    cases h
  | ok s =>
    cases hu : renderFragments d.config.separator others with
    | error f =>
      simp only [hs, hu, bind, Except.bind] at h
      cases h
    | ok u =>
      simp only [hs, hu, bind, Except.bind, pure, Except.pure, Except.ok.injEq] at h
      exact ⟨s, rfl, u, h⟩

/-- A label only grows.  Of any sequence of calls, each one adds behind what was there: as much as
belongs to its method if it returns, and nothing if it fails, unless it is a wrapped text, which
keeps the lines that it has written.  Nothing that comes later moves or changes a fragment, or
touches the settings, so what a label renders to is never taken back. -/
theorem afterAll_grows (d : Document) (before later : List Invocation) (i : Invocation) :
    ((d.afterAll before).after i).fragments =
      (d.afterAll before).fragments ++ ((d.afterAll before).reply i).added ∧
    i.Adds d.config ((d.afterAll before).reply i) ∧
    ((d.afterAll before).after i).fragments <+: (d.afterAll (before ++ i :: later)).fragments ∧
    (d.afterAll (before ++ i :: later)).config = d.config ∧
    (∀ t, (d.afterAll (before ++ i :: later)).render = .ok t →
      ∃ s, (d.afterAll before).render = .ok s ∧ s <+: t) ∧
    ((∀ v ∈ (d.afterAll (before ++ i :: later)).fragments, ∃ s, v = .text s) →
      ∃ t, (d.afterAll (before ++ i :: later)).render = .ok t) := by
  obtain ⟨hbefore, -⟩ := d.afterAll_extends before
  have hlast : d.afterAll (before ++ i :: later) =
      ((d.afterAll before).after i).afterAll later := by
    rw [afterAll_append]
    rfl
  obtain ⟨hconfig, hlater⟩ := ((d.afterAll before).after i).afterAll_extends later
  have hadded := after_eq_append (d.afterAll before) i
  have hsettings : ((d.afterAll before).after i).config = d.config := by
    rw [hadded]
    exact hbefore
  have hearlier : (d.afterAll before).fragments <+: ((d.afterAll before).after i).fragments := by
    rw [hadded]
    exact List.prefix_append _ _
  rw [hlast]
  refine ⟨?_, ?_, hlater, hconfig.trans hsettings, ?_, ?_⟩
  · rw [hadded]
    rfl
  · rw [← hbefore]
    exact reply_adds _ i
  · intro t ht
    apply render_prefix _ (hearlier.trans hlater) ht
    rw [hconfig, hsettings, hbefore]
  · intro htexts
    exact renderFragments_of_texts _ htexts

end Document

end ThermalLabel
