import ThermalLabel.Http.Service
import ThermalLabel.Proofs.Log.Journal
import ThermalLabel.Proofs.Value.Unbroken

/-!
# Notes in the journal

A note that can be written leaves one line in the file of its channel.  The line says what the note
says, and whose request it is about.  A failure that is told with a lone half leaves none.
-/
namespace ThermalLabel.Http

open Log (Channel Journal)
open Text (Unbroken)

/-- The names under which notes have extras. -/
def noteNames : List Text :=
  ["operations", "length", "template", "erro"]

theorem mem_noteNames :
    Text.ofString "operations" ∈ noteNames ∧ Text.ofString "length" ∈ noteNames ∧
      Text.ofString "template" ∈ noteNames ∧ Text.ofString "erro" ∈ noteNames := by
  decide

/-- A note that can be written. -/
structure Note.Written (note : Note) : Prop where
  message : Unbroken note.message
  extras : ∀ e ∈ note.extras, e.1 ∈ noteNames ∧ e.2.Encodable
  cause : ∀ text, note.cause = some text → Unbroken text

/-- A note that gives no cause. -/
theorem Note.Written.of_extras {note : Note} (hmessage : Unbroken note.message)
    (hextras : ∀ e ∈ note.extras, e.1 ∈ noteNames ∧ e.2.Encodable) (hcause : note.cause = none) :
    note.Written := by
  refine ⟨hmessage, hextras, fun text h => ?_⟩
  rw [hcause] at h
  cases h

theorem Note.Written.names {note : Note} (h : note.Written) : ∀ e ∈ note.extras, e.1 ∈ noteNames :=
  fun e he => (h.extras e he).1

namespace Service

theorem requestFields_names (r : Request) :
    ∀ e ∈ requestFields r, e.1 ∈ ["client_ip", "method", "path"].map Text.ofString := by
  simp [requestFields]

/-- Notes have no extras under the names of the fields of the request. -/
theorem noteFields_eq {note : Note} (h : ∀ e ∈ note.extras, e.1 ∈ noteNames) (r : Request) :
    noteFields note r = note.extras ++ requestFields r := by
  have hdisjoint : ∀ n ∈ noteNames, n ∉ ["client_ip", "method", "path"].map Text.ofString := by
    decide
  rw [noteFields]
  congr 1
  rw [List.filter_eq_self]
  intro e he
  have hnone : (note.extras.any fun e' => e'.1 == e.1) = false := by
    rw [List.any_eq_false]
    intro e' he' heq
    exact hdisjoint e'.1 (h e' he') (beq_iff_eq.mp heq ▸ requestFields_names r e he)
  rw [hnone]
  rfl

theorem noteFields_names {note : Note} (h : ∀ e ∈ note.extras, e.1 ∈ noteNames) (r : Request) :
    ∀ e ∈ noteFields note r,
      e.1 ∈ noteNames ++ ["client_ip", "method", "path"].map Text.ofString := by
  rw [noteFields_eq h]
  intro e he
  rw [List.mem_append] at he ⊢
  exact he.imp (h e) (requestFields_names r e)

theorem noteFields_encodable {note : Note} (h : note.Written) (r : Request) :
    (noteFields note r).Encodable := by
  have hnames : ∀ n ∈ noteNames, Unbroken n := by
    simp [noteNames]
  rw [noteFields_eq h.names]
  refine List.forall_mem_append.mpr ⟨fun e he => ⟨hnames _ (h.names e he), (h.extras e he).2⟩, ?_⟩
  have htext (s : String) : Value.Encodable (.text (Text.ofString s)) :=
    .text (Text.unbroken_ofString s)
  simp [requestFields, htext]

/-- No extra of a note stops its report. -/
theorem noteFields_not_stopped {note : Note} (h : ∀ e ∈ note.extras, e.1 ∈ noteNames)
    (r : Request) : Log.stops note.report (noteFields note r) = false := by
  have hallowed : ∀ n ∈ noteNames ++ ["client_ip", "method", "path"].map Text.ofString,
      n ∉ Log.refusedNames ∧ n ≠ "action" := by decide +kernel
  have hsubject : note.report.subject = "action" ∨ note.report.subject ∈ Log.refusedNames := by
    cases note.report with
    | audit => exact .inl rfl
    | _ => exact .inr List.mem_cons_self
  rw [Log.stops, List.any_eq_false]
  intro e he hstops
  obtain ⟨hrefused, haction⟩ := hallowed e.1 (noteFields_names h r e he)
  rw [Bool.or_eq_true, beq_iff_eq, List.contains_iff_mem] at hstops
  rcases hstops with hname | hname
  · rcases hsubject with hsubject | hsubject
    · exact haction (hname.trans hsubject)
    · exact hrefused (hname ▸ hsubject)
  · exact hrefused hname

/-- The line of a note says what the note says. -/
structure Tells (note : Note) (r : Request) (entry : Fields) : Prop where
  method : entry.get? "method" = some (.text (Text.ofString r.verb))
  path : entry.get? "path" = some (.text (Text.ofString r.path))
  extras : ∀ name ∈ noteNames, entry.get? name = Fields.get? note.extras.reverse name

/-- What a note hands to the logger of its channel. -/
def noteEvent (note : Note) (r : Request) : Log.Event where
  logger := note.report.channel.logger
  level := note.report.level
  message := .text note.message
  extras := noteFields note r
  exception := note.cause

theorem noteEvent_writable {note : Note} (h : note.Written) (r : Request) :
    (noteEvent note r).Writable :=
  ⟨Text.unbroken_ofString _, ⟨note.message, rfl, h.message⟩,
    Log.encodable_detail (noteFields_encodable h r) h.cause⟩

theorem fieldsWith_tells {note : Note} (h : note.Written) (r : Request) :
    Tells note r ((noteEvent note r).fieldsWith note.message) := by
  have hplain : ∀ n ∈ noteNames ++ ["client_ip", "method", "path"].map Text.ofString,
      n ∉ Log.reservedNames ∧ n ∉ Log.coreNames ∧ n ≠ "exception" ∧ n ≠ "stack" := by
    decide +kernel
  have hget (name : Text)
      (hname : name ∈ noteNames ++ ["client_ip", "method", "path"].map Text.ofString) :
      Fields.get? ((noteEvent note r).fieldsWith note.message) name =
        (Fields.get? (requestFields r).reverse name).or (Fields.get? note.extras.reverse name) := by
    obtain ⟨hreserved, hcore, hexception, hstack⟩ := hplain name hname
    have hfirst : name ≠ "level" ∧ name ≠ "logger" ∧ name ≠ "message" := by
      refine ⟨?_, ?_, ?_⟩ <;> rintro rfl <;> exact hcore (by decide)
    rw [Log.Event.fieldsWith, Fields.get?_cons, if_neg hfirst.1, Fields.get?_cons,
      if_neg hfirst.2.1, Fields.get?_cons, if_neg hfirst.2.2,
      Log.get?_detail_of_extra hreserved hcore (fun h => absurd h hexception)
        (fun h => absurd h hstack), noteEvent, noteFields_eq h.names, List.reverse_append,
      Fields.get?_append]
  refine ⟨?_, ?_, fun name hname => ?_⟩
  · rw [hget _ (by decide)]
    rfl
  · rw [hget _ (by decide)]
    rfl
  · rw [hget name (List.mem_append_left _ hname)]
    have hnone : Fields.get? (requestFields r).reverse name = none := by
      apply Fields.get?_eq_none_of_not_mem
      have hdisjoint : ∀ n ∈ noteNames, n ∉ ["path", "method", "client_ip"].map Text.ofString := by
        decide
      simpa [requestFields] using hdisjoint name hname
    rw [hnone, Option.none_or]

/-- A note with a lone half in what it says of a failure has no line. -/
theorem noteEvent_lost {note : Note} (h : ∀ e ∈ note.extras, e.1 ∈ noteNames) {said : Text}
    (hsaid : Fields.get? note.extras.reverse "erro" = some (.text said)) {trace : Text}
    (htrace : note.cause = some trace) (hbroken : ¬ (Unbroken said ∧ Unbroken trace))
    (r : Request) : (noteEvent note r).line? = none := by
  have hmessage : (noteEvent note r).message.toText = .ok note.message := rfl
  have hmem {name : Text} {s : Text}
      (hget : Fields.get? (Log.detail (noteFields note r) note.cause .null) name = some (.text s)) :
      (name, Value.text s) ∈ (noteEvent note r).fieldsWith note.message :=
    .tail _ (.tail _ (.tail _ (Fields.mem_of_get? hget)))
  have herro : Fields.get? (Log.detail (noteFields note r) note.cause .null) "erro" =
      some (.text said) := by
    have hnone : Fields.get? (requestFields r).reverse "erro" = none := by
      apply Fields.get?_eq_none_of_not_mem
      have hother : Text.ofString "erro" ∉ ["path", "method", "client_ip"].map Text.ofString := by
        decide
      simpa [requestFields] using hother
    rw [Log.get?_detail_of_extra (by decide +kernel) (by decide +kernel)
      (fun h => absurd h (by decide)) (fun h => absurd h (by decide)), noteFields_eq h,
      List.reverse_append, Fields.get?_append, hnone, Option.none_or, hsaid]
  have hstorable : Log.storable ((noteEvent note r).fieldsWith note.message) = false := by
    rw [Bool.eq_false_iff]
    intro hstorable
    have hunbroken := Text.isSome_toString?_iff.mp (Bool.and_eq_true_iff.mp hstorable).2
    exact hbroken ⟨Json.unbroken_of_write_object hunbroken (hmem herro),
      Json.unbroken_of_write_object hunbroken (hmem (Log.get?_detail_exception htrace))⟩
  simp only [Log.Event.line?, Log.Event.fields_of_message hmessage, hstorable, Bool.false_eq_true,
    if_false]

variable {console : Bool} {kept : Int} {j : Journal}

/-- A note comes to the file of its channel, with a line or without. -/
theorem record_receives (hj : j.Ready console kept) {note : Note}
    (h : ∀ e ∈ note.extras, e.1 ∈ noteNames) (r : Request) :
    (record r j note).Ready console kept ∧ (record r j note).today = j.today ∧
      Journal.Receives kept j.today note.report.channel (noteEvent note r).line? j.file
        (record r j note).file := by
  have hrecord : record r j note = j.submit (noteEvent note r) := by
    have hreport : j.report note.report (.text note.message) (noteFields note r) note.cause = _ :=
      Journal.report_of_not_stops hj (noteFields_not_stopped h r)
    rw [record, hreport]
    rfl
  have hlevel : note.report.channel.threshold ≤ note.report.level := by
    cases note.report <;> decide
  obtain ⟨hready, htoday⟩ := Journal.submit_ready hj (noteEvent note r)
  rw [hrecord]
  exact ⟨hready, htoday,
    Journal.submit_receives hj (Log.belongs_logger note.report.channel) hlevel⟩

/-- The line of a note that can be written. -/
theorem noteEvent_line {note : Note} (h : note.Written) (r : Request) :
    ∃ entry, Tells note r entry ∧ (noteEvent note r).line? = some entry := by
  obtain ⟨entry, hentry, hline⟩ := (noteEvent_writable h r).line?
  have hmessage : (noteEvent note r).message.toText = .ok note.message := rfl
  rw [Log.Event.fields_of_message hmessage] at hentry
  cases hentry
  exact ⟨_, fieldsWith_tells h r, hline⟩

end Service

end ThermalLabel.Http
