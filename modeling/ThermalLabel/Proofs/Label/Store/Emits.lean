import ThermalLabel.Proofs.Label.Frames
import ThermalLabel.Proofs.Label.Objects

/-!
# Emissions as calls over objects

A label over objects is asked to do what a document does, with values for arguments.  The questions
that it asks then have the answers that the document works with, and leave everything as it is; so
the same texts are written, in the same order, and the first that cannot be written is the same.
This module is about the operations with one fragment or a fixed list of them.
-/
namespace ThermalLabel

variable {α β : Type} {c : Config}

/-! ### What a document is among objects -/

def Config.settings (c : Config) : Settings Handle where
  dpi := .value c.dpi
  maxWidth := .value c.maxWidth
  suppressSeparator := .value c.suppressSeparator

def Document.label (d : Document) : Label Handle where
  settings := d.config.settings
  fragments := d.fragments.map .value

/-- The objects that stand for the values of the fields. -/
abbrev Arguments.handles (a : Arguments) : Parameter → Handle :=
  fun p => .value (a p)

namespace Act

/-- The act has the result, whatever label with these settings it is done on, and leaves everything
as it is. -/
def Gives (c : Config) (act : Act Store Fault Handle α) (r : Except Fault α) : Prop :=
  ∀ s, s.label.settings = c.settings → act s = (r.mapError .raised, s)

theorem Gives.pure (a : α) : Gives c (pure a) (.ok a) :=
  fun _ _ => rfl

theorem Gives.bind_at {act : Act Store Fault Handle α} {r : Except Fault α}
    {next : α → Act Store Fault Handle β} {r' : α → Except Fault β} (hact : Gives c act r)
    {s : Scene Store Handle} (hs : s.label.settings = c.settings)
    (hnext : ∀ a, r = .ok a → next a s = ((r' a).mapError .raised, s)) :
    (act >>= next) s = ((r >>= r').mapError .raised, s) := by
  rw [bind_apply, hact s hs]
  cases r with
  | error f => rfl
  | ok a => exact hnext a rfl

theorem Gives.bind {act : Act Store Fault Handle α} {r : Except Fault α}
    {next : α → Act Store Fault Handle β} {r' : α → Except Fault β} (hact : Gives c act r)
    (hnext : ∀ a, r = .ok a → Gives c (next a) (r' a)) : Gives c (act >>= next) (r >>= r') :=
  fun s hs => hact.bind_at hs fun a ha => hnext a ha s hs

/-- An act that cannot fail is followed by the next one. -/
theorem Gives.next {act : Act Store Fault Handle α} {a : α} {next : α → Act Store Fault Handle β}
    {r : Except Fault β} (hact : Gives c act (.ok a)) (hnext : Gives c (next a) r) :
    Gives c (act >>= next) r := by
  intro s hs
  rw [bind_apply, hact s hs]
  exact hnext s hs

theorem Gives.fail {act : Act Store Fault Handle α} {f : Fault}
    {next : α → Act Store Fault Handle β} (hact : Gives c act (.error f)) :
    Gives c (act >>= next) (.error f) := by
  intro s hs
  rw [bind_apply, hact s hs]
  rfl

theorem Gives.label (c : Config) {next : Label Handle → Act Store Fault Handle α}
    {r : Except Fault α} (h : ∀ l, l.settings = c.settings → Gives c (next l) r) :
    Gives c (Act.label >>= next) r :=
  fun s hs => h s.label hs s hs

end Act

namespace Store

open Objects Act

theorem gives_question {q : Question Handle} {r : Except Fault q.Reply}
    (h : ∀ s, ask q s = (r, s)) : Gives c (objects.question q) r := by
  intro s _
  rw [question, show objects.ask q s = _ from h s]
  cases r <;> rfl

/-! ### Texts -/

theorem gives_literal (s : String) :
    Gives c (literal s) (Part.write (.literal (Text.ofString s))) :=
  .pure _

theorem gives_text (v : Value) : Gives c (objects.text (.value v)) (Part.write (.value v)) :=
  gives_question fun _ => rfl

theorem gives_token (table : List String) (fallback : String) (v : Value) :
    Gives c (objects.token table fallback (.value v))
      (Part.write (.literal (Text.ofString (Token.pick table fallback v)))) := by
  have hentry : Gives c (objects.question (.entry table (.value v))) (.ok (Token.entry? table v)) :=
    gives_question fun _ => rfl
  have hpick : Token.pick table fallback v = (Token.entry? table v).getD fallback := by
    rw [Token.pick, Token.entry?]
    cases table.zipIdx.find? fun entry => v.isNumber entry.2 <;> rfl
  rw [hpick]
  exact hentry.bind fun _ _ => .pure _

theorem gives_truth (v : Value) : Gives c (objects.question (.truth (.value v))) (.ok v.truthy) :=
  gives_question fun _ => rfl

theorem gives_is (v : Value) (m : Member) :
    Gives c (objects.question (.is (.value v) m)) (v.is m) :=
  gives_question fun _ => rfl

theorem gives_yesNo (v : Value) :
    Gives c (objects.yesNo (.value v)) (Part.write (.literal (Text.ofString (Token.yesNo v)))) := by
  have h : Text.ofString (Token.yesNo v) = if v.truthy then ("Y" : Text) else "N" := by
    rw [Token.yesNo]
    split <;> rfl
  rw [h]
  exact (gives_truth v).bind fun _ _ => .pure _

theorem gives_textPosition (v : Value) :
    Gives c (objects.textPosition (.value v)) (Part.write (.token (Token.textPosition v))) := by
  have h : Part.write (.token (Token.textPosition v)) = do
      return if ← v.is .top then ("Y" : Text) else "N" := by
    rw [Part.write, Token.textPosition]
    cases v.is .top with
    | error f => rfl
    | ok above => cases above <;> rfl
  rw [h]
  exact (gives_is v .top).bind fun _ _ => .pure _

theorem gives_roundness (v : Value) :
    Gives c (objects.question (.whole (.value v))) (Part.write (.token (Token.roundness v))) :=
  gives_question fun _ => rfl

theorem gives_justification (v : Value) :
    Gives c (objects.justification (.value v)) (Token.justification v c.maxWidth) := by
  refine (gives_is v .center).bind fun centred _ => ?_
  cases centred with
  | true =>
    refine .label c fun l hl => ?_
    rw [hl]
    exact (gives_text c.maxWidth).bind fun _ _ => .pure _
  | false => exact gives_token Token.justifications "" v

/-- What stands in a code, behind the letters for the automatic mode. -/
def codeText : Value → Except Fault Text
  | .text s => .ok ("LA," ++ s)
  | _ => .error .wrongType

theorem gives_codeText (v : Value) : Gives c (objects.codeText (.value v)) (codeText v) := by
  have hsum : Gives c (objects.question (.sum (.value (.text "LA,")) (.value v)))
      ((codeText v).map fun s => .value (.text s)) := by
    refine gives_question fun s => ?_
    cases v <;> rfl
  have htext (code : Handle) (hcode : (codeText v).map (fun s => .value (.text s)) = .ok code) :
      Gives c (objects.text code) (codeText v) := by
    cases v with
    | text s =>
      cases hcode
      exact gives_text _
    | _ => cases hcode
  have h := hsum.bind htext
  cases v <;> exact h

theorem gives_fontOrientation (v : Value) :
    Gives c (objects.fontOrientation (.value v))
      (Part.write (.literal (Text.ofString (Token.fontOrientation v)))) := by
  have h : Text.ofString (Token.fontOrientation v) =
      "^AO" ++ Text.ofString (Token.orientation v) := by
    simp [Token.fontOrientation, Text.ofString, Text.ofChars]
  rw [h]
  exact (gives_token Token.orientations "N" v).bind fun _ _ => .pure _

/-- The pieces write the parts of a command. -/
def Spells (c : Config) (pieces : List (Act Store Fault Handle Text)) (parts : List Part) : Prop :=
  Gives c (joined pieces) (command parts)

namespace Spells

variable {pieces more : List (Act Store Fault Handle Text)} {parts others : List Part}

theorem nil : Spells c [] [] :=
  .pure _

theorem cons {piece : Act Store Fault Handle Text} {p : Part} (hpiece : Gives c piece p.write)
    (h : Spells c pieces parts) : Spells c (piece :: pieces) (p :: parts) :=
  hpiece.bind fun _ _ => h.bind fun _ _ => .pure _

theorem append (h : Spells c pieces parts) (hmore : Spells c more others) :
    Spells c (pieces ++ more) (parts ++ others) := by
  unfold Spells
  rw [joined_append, command_append]
  exact Gives.bind h fun _ _ => hmore.bind fun _ _ => .pure _

theorem single {piece : Act Store Fault Handle Text} {p : Part} (hpiece : Gives c piece p.write) :
    Spells c [piece] [p] :=
  .cons hpiece .nil

theorem origin (x y : Value) :
    Spells c (objects.origin (.value x) (.value y)) (ThermalLabel.origin x y) :=
  .cons (gives_literal _) <| .cons (gives_text x) <| .cons (gives_literal _) <|
    .single (gives_text y)

theorem fieldData (v : Value) :
    Spells c (objects.fieldData (.value v)) (ThermalLabel.fieldData v) :=
  .cons (gives_literal _) <| .single (gives_text v)

theorem closing : Spells c Objects.closing ThermalLabel.closing :=
  .single (gives_literal _)

theorem boxField (width height thickness color roundness : Value) :
    Spells c
      (objects.boxField (.value width) (.value height) (.value thickness) (.value color)
        (.value roundness))
      (ThermalLabel.boxField width height thickness color roundness) :=
  .cons (gives_literal _) <| .cons (gives_text width) <| .cons (gives_literal _) <|
    .cons (gives_text height) <| .cons (gives_literal _) <| .cons (gives_text thickness) <|
    .cons (gives_literal _) <| .cons (gives_token _ _ color) <| .cons (gives_literal _) <|
    .single (gives_roundness roundness)

theorem underline (length c1 c2 : Value) :
    Spells c (objects.underline (.value length) (.value c1) (.value c2))
      (ThermalLabel.underline length c1 c2) :=
  .cons (gives_literal _) <| .cons (gives_text length) <| .cons (gives_literal _) <|
    .cons (gives_text c1) <| .cons (gives_literal _) <| .single (gives_text c2)

theorem barcodeField (a : Arguments) :
    Spells c (objects.barcodeField a.handles) (ThermalLabel.barcodeField a) :=
  .cons (gives_literal _) <| .cons (gives_token _ _ _) <| .cons (gives_literal _) <|
    .cons (gives_text _) <| .cons (gives_literal _) <| .cons (gives_yesNo _) <|
    .cons (gives_literal _) <| .cons (gives_textPosition _) <| .cons (gives_literal _) <|
    .cons (gives_yesNo _) <| .cons (gives_literal _) <| .single (gives_token _ _ _)

theorem qrField (data : Value) :
    Spells c [literal "^BQN,2,5^FD", objects.codeText (.value data)]
      (ThermalLabel.qrField data) := by
  have hcommand : command (ThermalLabel.qrField data) =
      command ["^BQN,2,5^FD", .token (codeText data)] := by
    cases data <;> rfl
  rw [Spells, hcommand]
  exact Spells.cons (gives_literal _) (.single (gives_codeText data))

end Spells

theorem gives_textField (orientation justification x y : Value) (s : Text) :
    Gives c
      (objects.textField (.value orientation) (.value justification) (.value x) (.value y)
        (.value (.text s)))
      (textField c orientation justification x y s) := by
  have hescaped : Gives c (objects.question (.escaped (.value (.text s))))
      (.ok (.value (.text (Escape.encode s)))) :=
    gives_question fun _ => rfl
  refine hescaped.next <| (gives_justification justification).bind fun block _ =>
    (gives_fontOrientation orientation).next <|
    (gives_is justification .center).bind fun centred _ => ?_
  have hleft : (if centred = true then objects.own (.integer 0) else .value x) =
      .value (if centred = true then Value.integer 0 else x) := by
    cases centred <;> rfl
  rw [hleft]
  exact Spells.cons (gives_literal _) <| .cons (gives_text _) <| .cons (gives_literal _) <|
    .cons (gives_text y) <| .cons (.pure _) <| .cons (.pure _) <| .cons (gives_literal _) <|
    .cons (gives_text _) <| .single (gives_literal _)

/-! ### Emissions -/

theorem tell_nil (w : Store) : w.tell [] = w := by
  rw [tell, List.append_nil]

/-- What is left of a scene when an emission has come to it. -/
def leave (s : Scene Store Handle) (e : Emission) : Scene Store Handle where
  world := s.world.tell e.notices
  label := s.label.append (e.fragments.map .value)

/-- What a call returns, as an answer. -/
def answerOf (w : Store) : Returned Handle → Answer
  | .label => .outcome .same
  | .wrapped y _ => .outcome (.endingY (w.see y))
  | .text s => .result (.text s)
  | .settings c =>
    .result (Config.toValue ⟨w.see c.dpi, w.see c.maxWidth, w.see c.suppressSeparator⟩)
  | .object v => .result (w.see v)

/-- The act does and answers what the emission says, whatever label with these settings it is done
on. -/
def Emits (c : Config) (act : Act Store Fault Handle (Returned Handle)) (e : Emission) : Prop :=
  ∀ s, s.label.settings = c.settings →
    (act s).1.map (answerOf (act s).2.world) = (e.outcome.map .outcome).mapError .raised ∧
    (act s).2 = leave s e

namespace Emits

variable {e : Emission} {f : Fault} {a : α} {act : Act Store Fault Handle α}
  {rest : α → Act Store Fault Handle (Returned Handle)}

theorem leave_nothing (s : Scene Store Handle) {e : Emission} (hfragments : e.fragments = [])
    (hnotices : e.notices = []) : leave s e = s := by
  rw [leave, hfragments, hnotices, List.map_nil, Label.append_nil, tell_nil]

theorem next (hact : Gives c act (.ok a)) (hrest : Emits c (rest a) e) :
    Emits c (act >>= rest) e := by
  intro s hs
  rw [bind_apply, hact s hs]
  exact hrest s hs

theorem fault (hact : Gives c act (.error f)) : Emits c (act >>= rest) (.fault f) := by
  intro s hs
  rw [bind_apply, hact s hs]
  exact ⟨rfl, (leave_nothing s rfl rfl).symm⟩

theorem ended (y : Value) (lines : List (List Handle)) :
    Emits c (pure (.wrapped (.value y) lines)) { fragments := [], outcome := .ok (.endingY y) } :=
  fun s _ => ⟨rfl, (leave_nothing s rfl rfl).symm⟩

theorem done (fragments : List Value) :
    Emits c (Objects.done (fragments.map .value)) (.done fragments) :=
  fun s _ => ⟨rfl, congrArg (Scene.mk · _) (by simp [Emission.done, tell])⟩

/-- The call ends below its last line. -/
theorem ending {act : Act Store Fault Handle Handle} {y : Except Fault Value}
    (hact : Gives c act (y.map .value)) (lines : List (List Handle)) :
    Emits c (act >>= fun y => pure (.wrapped y lines))
      { fragments := [], outcome := y.map .endingY } := by
  intro s hs
  rw [bind_apply, hact s hs]
  cases y with
  | error f => exact ⟨rfl, (leave_nothing s rfl rfl).symm⟩
  | ok y => exact ⟨rfl, (leave_nothing s rfl rfl).symm⟩

theorem notice (lowest : Value) (dropped : Int) {act : Act Store Fault Handle (Returned Handle)}
    (hact : Emits c act e) :
    Emits c (objects.question (.notice (.value lowest) dropped) >>= fun _ => act)
      { e with notices := ⟨lowest, dropped.toNat⟩ :: e.notices } := by
  intro s hs
  obtain ⟨hanswer, hleft⟩ := hact { s with world := s.world.tell [⟨lowest, dropped.toNat⟩] } hs
  refine ⟨hanswer, hleft.trans ?_⟩
  simp [leave, tell]

/-- A text that can be written is a fragment before what follows. -/
theorem line {text : Act Store Fault Handle Text} {t : Text}
    {rest : Returned Handle → Act Store Fault Handle (Returned Handle)}
    (htext : Gives c text (.ok t)) (hrest : Emits c (rest .label) e) :
    Emits c (objects.one text >>= rest) (.cons t e) := by
  intro s hs
  have hone : objects.one text s =
      (.ok .label, { s with label := s.label.append [.value (.text t)] }) := by
    rw [one, bind_apply, htext s hs]
    rfl
  obtain ⟨hanswer, hleft⟩ := hrest { s with label := s.label.append [.value (.text t)] } hs
  rw [bind_apply, hone]
  refine ⟨hanswer, hleft.trans ?_⟩
  simp [leave, Emission.cons, Label.append_append]

/-- A text that cannot be written is the end. -/
theorem noLine {text : Act Store Fault Handle Text}
    {rest : Returned Handle → Act Store Fault Handle (Returned Handle)}
    (htext : Gives c text (.error f)) : Emits c (objects.one text >>= rest) (.fault f) := by
  rw [Objects.one, bind_assoc]
  exact fault htext

theorem one {text : Act Store Fault Handle Text} {r : Except Fault Text} (htext : Gives c text r) :
    Emits c (objects.one text) (.one r) := by
  rw [← bind_pure (objects.one text)]
  cases r with
  | error f => exact noLine htext
  | ok t =>
    have hend : Emits c (pure .label) (.done []) :=
      fun s _ => ⟨rfl, (leave_nothing s rfl rfl).symm⟩
    exact line htext hend

theorem spelled {pieces : List (Act Store Fault Handle Text)} {parts : List Part}
    (h : Spells c pieces parts) : Emits c (objects.one (joined pieces)) (.one (command parts)) :=
  one h

end Emits

theorem gives_writeLine (a : Arguments) (y v : Value) :
    Emits c (objects.writeLine a.handles (.value y) (.value v))
      (.one do textField c (a .orientation) (a .justification) (a .x) y (← textOf v)) := by
  refine Emits.one ?_
  cases v with
  | text s => exact gives_textField _ _ _ y s
  | _ => exact Gives.fail (gives_question fun _ => rfl)

theorem operate_emits (passes : Nat) (a : Arguments) {op : Operation} {n : Nat}
    (hn : op.fragmentCount? = some n) :
    Emits c (objects.operate passes a.handles op) (op.emit c a) := by
  cases op with
  | writeTextAtWithWrap => cases hn
  | start => exact .done [.text "^XA"]
  | finish => exact .done [.text "~JSN", .text "^XZ"]
  | raw => exact .done [a .value]
  | reversePrint => exact .done [.text "^FR"]
  | endField => exact .done [.text fieldEnd]
  | addVoidMessage => exact .done voidFragments
  | setFont =>
    exact .spelled <| .cons (gives_literal _) <| .cons (gives_text _) <|
      .cons (gives_literal _) <| .single (gives_text _)
  | setFontSize =>
    exact .spelled <| .cons (gives_literal _) <| .cons (gives_text _) <|
      .cons (gives_literal _) <| .cons (gives_text _) <| .cons (gives_literal _) <|
      .single (gives_text _)
  | barcodeFormat =>
    exact .spelled <| .cons (gives_literal _) <| .cons (gives_text _) <|
      .cons (gives_literal _) <| .cons (gives_text _) <| .cons (gives_literal _) <|
      .single (gives_text _)
  | setPosition => exact .spelled (.origin _ _)
  | data | writeText => exact .spelled (.fieldData _)
  | drawBoxAt | drawHorizontalLineAt | drawVerticalLineAt =>
    exact .spelled <| .append (.append (.origin _ _) (.boxField _ _ _ _ _)) .closing
  | drawBox => exact .spelled (.boxField _ _ _ _ _)
  | writeTextAt => exact gives_writeLine a _ _
  | writeUnderline =>
    exact .spelled <| .append (.append (.origin _ _) (.underline _ _ _)) .closing
  | barcode =>
    exact .spelled <| .append
      (.append (.append (.origin _ _) (.barcodeField a)) (.fieldData _)) .closing
  | simpleBarcode =>
    rw [Operation.emit, List.append_assoc (ThermalLabel.origin _ _)]
    exact .spelled <|
      .append (.append (.origin _ _) (.cons (gives_literal _) (.fieldData _))) .closing
  | addQrCodeAt =>
    exact .spelled <|
      .append (.append (.cons (gives_literal _) (.origin _ _)) (.qrField _)) .closing

end Store

end ThermalLabel
