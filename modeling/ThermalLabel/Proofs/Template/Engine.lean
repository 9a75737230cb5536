import Mathlib.Data.List.Forall2
import ThermalLabel.Proofs.Label.Calls
import ThermalLabel.Proofs.Label.Emission
import ThermalLabel.Template.Engine

/-!
# Templates as sequences of calls

A template that sets one name, the one it keeps the label under, does nothing but call operations on
the label.  `Performs` relates such statements to their calls; it carries on from one statement to
the next as long as every other name still stands for what the context gives.
-/
namespace ThermalLabel

namespace Template

/-- The expression has a value wherever it stands, and takes no effect. -/
def Evaluates (scope : Text → Object) (e : Expression) (o : Object) : Prop :=
  ∀ d, evaluate scope e d = .ok (o, d)

section Evaluation

variable {scope : Text → Object} {e first second : Expression} {o o' : Object}

theorem Evaluates.constant (v : Value) : Evaluates scope (.constant v) (.value v) :=
  fun _ => by rw [evaluate]

theorem Evaluates.name {n : Text} (h : scope n = o) : Evaluates scope (.name n) o :=
  fun _ => by rw [evaluate, h]

theorem Evaluates.field {n : Text} (h : Evaluates scope e o) (ho : o.field n = .ok o') :
    Evaluates scope (.field e n) o' := by
  intro d
  rw [evaluate, h d]
  simp [ho, bind, Except.bind, pure, Except.pure]

theorem Evaluates.either (h : Evaluates scope first o) (h' : Evaluates scope second o') :
    Evaluates scope (.either first second) (if o.truthy then o else o') := by
  intro d
  rw [evaluate, h d]
  simp only [bind, Except.bind]
  split
  · rfl
  · exact h' d

theorem evaluateAll_of_forall₂ {es : List Expression} {vs : List Value}
    (h : List.Forall₂ (fun e v => Evaluates scope e (.value v)) es vs) (d : Document) :
    evaluateAll scope es d = .ok (vs.map .value, d) := by
  induction h with
  | nil => rw [evaluateAll]; rfl
  | cons he _ ih =>
    rw [evaluateAll, he d]
    simp [ih, bind, Except.bind, pure, Except.pure]

theorem mapM_value? (vs : List Value) : (vs.map Object.value).mapM Object.value? = some vs := by
  induction vs with
  | nil => rfl
  | cons v rest ih =>
    rw [List.map_cons, List.mapM_cons, ih]
    rfl

/-- A call of an operation performs it, and answers what the operation ends with. -/
theorem evaluate_operation {method : Text} {op : Operation} {es : List Expression}
    {given : List Value} (hlabel : Evaluates scope e .document)
    (hmethod : Object.methodOf? method = some (.operation op))
    (hgiven : List.Forall₂ (fun e v => Evaluates scope e (.value v)) es given)
    (hcount : op.takes given.length = true) (d : Document) :
    evaluate scope (.call (.field e method) es) d =
      let (next, emission) := d.perform op (Call.positional op given).arguments
      emission.outcome.map fun o => (.ofAnswer (.outcome o), next) := by
  have hfunction : Evaluates scope (.field e method) (.method (.operation op)) :=
    hlabel.field (by simp [Object.field, hmethod])
  rw [evaluate, hfunction d]
  simp only [bind, Except.bind, evaluateAll_of_forall₂ hgiven d]
  simp only [Object.call, mapM_value?, Document.call, bindCall_positional hcount, Except.map]
  cases (d.perform op (Call.positional op given).arguments).2.outcome <;> rfl

end Evaluation

/-- No name has been set but the one that the label is kept under. -/
def Untouched (context : Context) (p : Progress) : Prop :=
  ∀ n, n ≠ Text.ofString "z" → p.scope context n = given context n

/-- The label is kept under its name. -/
structure Ready (context : Context) (p : Progress) : Prop where
  label : p.scope context "z" = .document
  untouched : Untouched context p

/-- The statements call operations on the label, print nothing, and leave everything ready. -/
def Reaches (context : Context) (program : List Statement) (p : Progress) (calls : List Call) :
    Prop :=
  match p.document.performAll calls with
  | .ok d => ∃ q, executeAll context program p = .ok q ∧ q.document = d ∧ q.output = p.output ∧
    Ready context q
  | .error f => executeAll context program p = .error f

def Performs (context : Context) (program : List Statement) (calls : List Call) : Prop :=
  ∀ p, Ready context p → Reaches context program p calls

/-- The expression performs the call and gives the label. -/
def Calls (scope : Text → Object) (e : Expression) (call : Call) : Prop :=
  ∀ d, evaluate scope e d =
    let (next, emission) := d.perform call.operation call.arguments
    emission.outcome.map fun _ => (.document, next)

section Calls

variable {scope : Text → Object} {e : Expression} {method : Text} {es : List Expression}
  {given : List Value}

theorem calls_operation {op : Operation} (hlabel : Evaluates scope e .document)
    (hmethod : Object.methodOf? method = some (.operation op)) (hop : op ≠ .writeTextAtWithWrap)
    (hgiven : List.Forall₂ (fun e v => Evaluates scope e (.value v)) es given)
    (hcount : op.takes given.length = true) :
    Calls scope (.call (.field e method) es) (.positional op given) := by
  intro d
  rw [evaluate_operation hlabel hmethod hgiven hcount d]
  change (op.emit d.config _).outcome.map _ = (op.emit d.config _).outcome.map _
  cases ho : (op.emit d.config (Call.positional op given).arguments).outcome with
  | error f => rfl
  | ok o =>
    cases Operation.outcome_same hop ho
    rfl

/-- A wrapped text answers with a position, and the label stands next to it. -/
theorem calls_wrap (hlabel : Evaluates scope e .document)
    (hmethod : Object.methodOf? method = some (.operation .writeTextAtWithWrap))
    (hfit : Operation.Fits .writeTextAtWithWrap (Call.positional .writeTextAtWithWrap given).arguments)
    (hgiven : List.Forall₂ (fun e v => Evaluates scope e (.value v)) es given)
    (hcount : Operation.takes .writeTextAtWithWrap given.length = true) :
    Calls scope (.field (.call (.field e method) es) "builder")
      (.positional .writeTextAtWithWrap given) := by
  intro d
  rw [evaluate, evaluate_operation hlabel hmethod hgiven hcount d]
  change ((Operation.emit d.config _ .writeTextAtWithWrap).outcome.map _ >>= _) =
    (Operation.emit d.config _ .writeTextAtWithWrap).outcome.map _
  cases ho : (Operation.emit d.config (Call.positional .writeTextAtWithWrap given).arguments
      .writeTextAtWithWrap).outcome with
  | error f => rfl
  | ok o =>
    obtain ⟨-, -, -, y, rfl⟩ := emit_wrap_of_ok hfit ho
    rfl

end Calls

section Performing

variable {context : Context} {program rest : List Statement} {calls others : List Call}
  {p : Progress} {e : Expression} {call : Call}

theorem executeAll_append (context : Context) (program rest : List Statement) (p : Progress) :
    executeAll context (program ++ rest) p =
      executeAll context program p >>= executeAll context rest := by
  induction program generalizing p with
  | nil => rw [List.nil_append, executeAll]; rfl
  | cons s program ih =>
    rw [List.cons_append, executeAll, executeAll]
    cases execute context s p with
    | ok q => exact ih q
    | error f => rfl

theorem Performs.nil (context : Context) : Performs context [] [] := by
  intro p hp
  exact ⟨p, by rw [executeAll], rfl, rfl, hp⟩

theorem Reaches.append (h : Reaches context program p calls) (h' : Performs context rest others) :
    Reaches context (program ++ rest) p (calls ++ others) := by
  rw [Reaches] at h ⊢
  rw [Document.performAll_append, executeAll_append]
  cases hcalls : p.document.performAll calls with
  | error f =>
    rw [hcalls] at h
    simp [h, bind, Except.bind]
  | ok d =>
    rw [hcalls] at h
    obtain ⟨q, hq, rfl, houtput, hready⟩ := h
    have hsecond := h' q hready
    rw [Reaches, houtput] at hsecond
    simp only [hq, bind, Except.bind]
    exact hsecond

theorem Performs.append (h : Performs context program calls) (h' : Performs context rest others) :
    Performs context (program ++ rest) (calls ++ others) :=
  fun p hp => (h p hp).append h'

theorem Untouched.assign (hp : Untouched context p) (d : Document) :
    Ready context { p with document := d, assigned := ("z", .document) :: p.assigned } := by
  constructor
  · simp [Progress.scope]
  · intro n hn
    have hlookup : List.lookup n ((Text.ofString "z", Object.document) :: p.assigned) =
        p.assigned.lookup n := by
      rw [List.lookup_cons, beq_false_of_ne hn]
    rw [Progress.scope, hlookup]
    exact hp n hn

/-- Keeping the answer of a call performs the call. -/
theorem reaches_assign (hp : Untouched context p) (h : Calls (p.scope context) e call) :
    Reaches context [.assign "z" e] p [call] := by
  have he := h p.document
  rw [Reaches, executeAll, execute, he, Document.performAll]
  generalize p.document.perform call.operation call.arguments = performed
  obtain ⟨next, emission⟩ := performed
  dsimp only
  cases emission.outcome with
  | error f => simp [Except.map, bind, Except.bind]
  | ok o =>
    refine ⟨{ p with document := next, assigned := ("z", .document) :: p.assigned }, ?_, rfl, rfl,
      hp.assign next⟩
    simp [Except.map, bind, Except.bind, pure, Except.pure, executeAll]

theorem performs_assign (h : ∀ p, Ready context p → Calls (p.scope context) e call) :
    Performs context [.assign "z" e] [call] :=
  fun p hp => reaches_assign hp.untouched (h p hp)

/-- A condition that holds performs the calls of its body, any other performs none. -/
theorem performs_branch {condition : Expression} {o : Object}
    (hcondition : ∀ p, Ready context p → Evaluates (p.scope context) condition o)
    (h : o.truthy = true → Performs context program calls) :
    Performs context [.branch condition program] (if o.truthy then calls else []) := by
  intro p hp
  have heval := hcondition p hp p.document
  rw [Reaches, executeAll, execute, heval]
  simp only [bind, Except.bind]
  cases ho : o.truthy with
  | false => exact ⟨p, by simp [pure, Except.pure, executeAll], rfl, rfl, hp⟩
  | true =>
    have hbody := h ho p hp
    rw [Reaches] at hbody
    simp only [if_true]
    cases hcalls : p.document.performAll calls with
    | error f =>
      rw [hcalls] at hbody
      simp [hbody]
    | ok d =>
      rw [hcalls] at hbody
      obtain ⟨q, hq, hrest⟩ := hbody
      exact ⟨q, by simp [hq, executeAll], hrest⟩

/-- A template that prints nothing but the label gives the label with all calls. -/
theorem run_of_reaches {config : Config}
    (h : Reaches context program { document := ⟨config, []⟩ } calls)
    (hlast : ∀ p, Ready context p → Calls (p.scope context) e call) :
    run (program ++ [.print e]) config context =
      Document.performAll ⟨config, []⟩ (calls ++ [call]) >>= Document.render := by
  rw [Reaches] at h
  rw [run, executeAll_append, Document.performAll_append]
  dsimp only at h
  cases hcalls : Document.performAll ⟨config, []⟩ calls with
  | error f =>
    rw [hcalls] at h
    simp [h, bind, Except.bind, Except.map]
  | ok d =>
    rw [hcalls] at h
    obtain ⟨q, hq, rfl, houtput, hready⟩ := h
    have he := hlast q hready q.document
    simp only [hq, bind, Except.bind]
    rw [executeAll, execute, he, Document.performAll]
    generalize q.document.perform call.operation call.arguments = performed
    obtain ⟨next, emission⟩ := performed
    dsimp only
    cases emission.outcome with
    | error f => simp [Except.map, bind, Except.bind]
    | ok o =>
      simp only [Except.map, bind, Except.bind, Object.text, Document.performAll]
      cases next.render with
      | error f => rfl
      | ok s => simp [pure, Except.pure, executeAll, houtput]

end Performing

end Template

end ThermalLabel
