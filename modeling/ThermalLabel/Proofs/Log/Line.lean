import ThermalLabel.Log.Journal
import ThermalLabel.Proofs.Json.Roundtrip
import ThermalLabel.Proofs.Log.Extras

/-!
# Lines of a log

The line of a record is one JSON object without a line break.  It says what the record and the
process say about themselves, whatever names the extras bear; the exception and the stack come
next, and every other extra is there with the value that it was given last.
-/
namespace ThermalLabel.Log

open Json (Faithful)

/-- The fields that every line has. -/
def baseFields (p : Deployment) (r : Record) (time message place : Text) : Fields :=
  [("ts", .text time), ("level", r.level), ("logger", r.logger), ("message", .text message),
    ("where", .text place), ("app", .text p.app), ("version", .text p.version),
    ("env", .text p.stage), ("host", .text p.host), ("pid", .integer p.pid)]

/-- The fields of a line tell a record faithfully. -/
structure Tells (p : Deployment) (r : Record) (time message place : Text) (cause : Option Text)
    (fields : Fields) : Prop where
  base : ∀ entry ∈ baseFields p r time message place, fields.get? entry.1 = some entry.2
  exception : ∀ text, cause = some text → fields.get? "exception" = some (.text text)
  stack : r.stack.truthy = true → fields.get? "stack" = some r.stack
  /-- Of extras with equal names the last one counts, and there are no further fields. -/
  extra : ∀ name, name ∉ coreNames → (name = "exception" → cause = none) →
    (name = "stack" → r.stack.truthy = false) →
    fields.get? name = Fields.get? r.extras.reverse name
  nodup : (fields.map (·.1)).Nodup

theorem names_baseFields (p : Deployment) (r : Record) (time message place : Text) :
    (baseFields p r time message place).map (·.1) = coreNames := rfl

theorem get?_of_mem {fields : Fields} (hnodup : (fields.map (·.1)).Nodup) {entry : Text × Value}
    (h : entry ∈ fields) : fields.get? entry.1 = some entry.2 := by
  induction fields with
  | nil => exact absurd h List.not_mem_nil
  | cons first rest ih =>
    rw [List.map_cons, List.nodup_cons] at hnodup
    rw [Fields.get?_cons]
    rcases List.mem_cons.mp h with rfl | h
    · rw [if_pos rfl]
    · have hne : entry.1 ≠ first.1 := by
        intro heq
        exact hnodup.1 (heq ▸ List.mem_map_of_mem h)
      rw [if_neg hne]
      exact ih hnodup.2 h

/-- Reserved names neither come with the extras nor otherwise. -/
theorem get?_detail_of_reserved {extras : Fields} (hextras : ∀ e ∈ extras, e.1 ∉ reservedNames)
    {name : Text} (hname : name ∈ reservedNames) (cause : Option Text) (stack : Value) :
    (detail extras cause stack).get? name = none := by
  apply Fields.get?_eq_none_of_not_mem
  intro hmem
  obtain ⟨entry, hentry, rfl⟩ := List.mem_map.mp hmem
  rcases mem_detail hentry with h | ⟨text, -, rfl⟩ | ⟨-, rfl⟩
  · exact hextras entry (mem_of_mem_shownExtras h) hname
  · exact absurd hname (by change Text.ofString "exception" ∉ reservedNames; decide)
  · exact absurd hname (by change Text.ofString "stack" ∉ reservedNames; decide)

variable {p : Deployment} {r : Record} {time message place : Text} {cause : Option Text}

theorem nodup_line :
    ((baseFields p r time message place ++ detail r.extras cause r.stack).map (·.1)).Nodup := by
  rw [List.map_append, names_baseFields, List.nodup_append]
  refine ⟨by decide, nodup_detail, ?_⟩
  rintro a ha b hb rfl
  obtain ⟨entry, hentry, rfl⟩ := List.mem_map.mp hb
  exact not_mem_coreNames_of_mem_detail hentry ha

theorem tells_detail (hextras : ∀ e ∈ r.extras, e.1 ∉ reservedNames) :
    Tells p r time message place cause
      (baseFields p r time message place ++ detail r.extras cause r.stack) := by
  have hnames := names_baseFields p r time message place
  have hcore : coreNames.Nodup := by decide
  have hdetail : ∀ name, name ∉ coreNames →
      (baseFields p r time message place ++ detail r.extras cause r.stack).get? name =
        (detail r.extras cause r.stack).get? name := by
    intro name hname
    rw [Fields.get?_append, Fields.get?_eq_none_of_not_mem (hnames ▸ hname), Option.none_or]
  constructor
  · intro entry hentry
    rw [Fields.get?_append, get?_of_mem (hnames ▸ hcore) hentry, Option.some_or]
  · intro text h
    rw [hdetail _ (by decide)]
    exact get?_detail_exception h
  · intro h
    rw [hdetail _ (by decide)]
    exact get?_detail_stack h
  · intro name hname hexception hstack
    rw [hdetail name hname]
    by_cases hreserved : name ∈ reservedNames
    · rw [get?_detail_of_reserved hextras hreserved, Fields.get?_eq_none_of_not_mem]
      intro hmem
      obtain ⟨entry, hentry, rfl⟩ := List.mem_map.mp hmem
      exact hextras entry (List.mem_reverse.mp hentry) hreserved
    · exact get?_detail_of_extra hreserved hname hexception hstack
  · exact nodup_line

/-- The line of a record is its fields as one JSON object, on one line. -/
theorem text_reads (htime : timestamp r.created = .ok time)
    (hmessage : messageText r.message r.values = .ok message) (hplace : r.place = .ok place)
    (hcause : r.cause.text? = .ok cause) (hpid : Number.writable p.pid = true)
    (hlogger : Faithful r.logger) (hlevel : Faithful r.level) (hstack : Faithful r.stack)
    (hextras : ∀ e ∈ r.extras, Faithful e.2) :
    ∃ line, r.text p = .ok line ∧ (∀ c ∈ line, c ≠ '\n' ∧ c ≠ '\r') ∧
      ∃ deepest, ∀ levels, deepest ≤ levels → Json.read levels line =
        .ok (.object (baseFields p r time message place ++ detail r.extras cause r.stack)) := by
  have hfields : r.fields p = .ok (baseFields p r time message place ++
      detail r.extras cause r.stack) := by
    simp only [Record.fields, Record.core, htime, hmessage, hplace, hcause, liftFault, bind,
      Except.bind]
    rfl
  have hfaithful : Faithful (.object (baseFields p r time message place ++
      detail r.extras cause r.stack)) := by
    refine .object ?_ nodup_line
    intro entry hentry
    rcases List.mem_append.mp hentry with hbase | hdetail
    · have hall : ∀ entry ∈ baseFields p r time message place, Faithful entry.2 := by
        simp only [baseFields, List.forall_mem_cons]
        exact ⟨.text _, hlevel, hlogger, .text _, .text _, .text _, .text _, .text _, .text _,
          .integer hpid, by simp⟩
      exact hall entry hbase
    · rcases mem_detail hdetail with h | ⟨text, -, rfl⟩ | ⟨-, rfl⟩
      · exact hextras entry (mem_of_mem_shownExtras h)
      · exact .text text
      · exact hstack
  refine ⟨_, ?_, ?_, Json.read_write hfaithful⟩
  · simp only [Record.text, hfields, bind, Except.bind, Json.writable_of_faithful hfaithful,
      if_true]
    rfl
  · intro c hc
    have hlow := Json.le_of_mem_write hfaithful hc
    constructor
    · rintro rfl
      exact absurd hlow (by decide)
    · rintro rfl
      exact absurd hlow (by decide)

/-- Whatever a record and its extras say, its line is one JSON object on one line that tells them
all. -/
theorem text_tells (p : Deployment) (r : Record) (time message place : Text)
    (cause : Option Text) (htime : timestamp r.created = .ok time)
    (hmessage : messageText r.message r.values = .ok message) (hplace : r.place = .ok place)
    (hcause : r.cause.text? = .ok cause) (hpid : Number.writable p.pid = true)
    (hlogger : Faithful r.logger) (hlevel : Faithful r.level) (hstack : Faithful r.stack)
    (hextras : ∀ e ∈ r.extras, e.1 ∉ reservedNames ∧ Faithful e.2) :
    ∃ line fields, r.text p = .ok line ∧ (∀ c ∈ line, c ≠ '\n' ∧ c ≠ '\r') ∧
      (∃ deepest, ∀ levels, deepest ≤ levels → Json.read levels line = .ok (.object fields)) ∧
      Tells p r time message place cause fields := by
  obtain ⟨line, htext, hone, hread⟩ := text_reads htime hmessage hplace hcause hpid hlogger hlevel
    hstack fun e he => (hextras e he).2
  exact ⟨line, _, htext, hone, hread, tells_detail fun e he => (hextras e he).1⟩

def exampleDeployment : Deployment :=
  { app := "ZplGenerator", version := "dev", stage := "prd", host := "HOST", pid := 1 }

/-- A record whose extras bear names of other parts of the line, and one name twice. -/
def clashingRecord : Record :=
  { logger := .text "zplgen.audit"
    level := .text "INFO"
    message := .text "first\nsecond"
    created := .integer 1700000000
    component := .text "api"
    function := .text "render"
    line := .integer 70
    extras := [("ts", .text "never"), ("note", .integer 1), ("exception", .flag true),
      ("note", .list [.null, .object [("\"", .text "\r")]])]
    cause := .described "ValueError: no"
    stack := .text "Stack" }

theorem text_tells_clashing : ∃ line fields, clashingRecord.text exampleDeployment = .ok line ∧
    (∀ c ∈ line, c ≠ '\n' ∧ c ≠ '\r') ∧
    (∃ deepest, ∀ levels, deepest ≤ levels → Json.read levels line = .ok (.object fields)) ∧
    Tells exampleDeployment clashingRecord "2023-11-14T22:13:20.000+00:00" "first\nsecond"
      "api:render:70" (some "ValueError: no") fields := by
  refine text_tells exampleDeployment clashingRecord _ _ _ _ rfl rfl rfl rfl rfl (.text _) (.text _)
    (.text _) ?_
  have hnote : Faithful (.list [.null, .object [("\"", .text "\r")]]) := by
    refine .list ?_
    simp only [List.forall_mem_cons]
    refine ⟨.null, .object ?_ (by simp), by simp⟩
    simp only [List.forall_mem_cons]
    exact ⟨.text _, by simp⟩
  simp only [clashingRecord, List.forall_mem_cons]
  exact ⟨⟨by decide, .text _⟩, ⟨by decide, .integer rfl⟩, ⟨by decide, .flag _⟩,
    ⟨by decide, hnote⟩, by simp⟩

theorem text_of_not_writable {n : Int} (hn : Number.writable n = false) :
    { clashingRecord with extras := [("note", .integer n)] }.text exampleDeployment =
      .error (.fault .longInteger) := by
  obtain ⟨fields, hfields, hmem⟩ : ∃ fields,
      { clashingRecord with extras := [("note", .integer n)] }.fields exampleDeployment =
        .ok fields ∧ (Text.ofString "note", Value.integer n) ∈ fields := by
    let detail : Fields := [("note", .integer n), ("exception", .text "ValueError: no"),
      ("stack", .text "Stack")]
    exact ⟨baseFields exampleDeployment clashingRecord "2023-11-14T22:13:20.000+00:00"
      "first\nsecond" "api:render:70" ++ detail, rfl, by simp [detail]⟩
  have hwritable := Json.not_writable_of_mem hmem hn
  simp only [Record.text, hfields, bind, Except.bind, hwritable, Bool.false_eq_true, if_false]
  rfl

/-- A name that a report does not refuse but that is never written, and an integer that cannot be
written at all. -/
theorem text_leaves_out :
    (Text.ofString "taskName" ∉ refusedNames ∧ ∃ line fields,
      { clashingRecord with extras := [("taskName", .text "t")] }.text exampleDeployment =
        .ok line ∧
      (∃ deepest, ∀ levels, deepest ≤ levels → Json.read levels line = .ok (.object fields)) ∧
      Fields.get? fields "taskName" = none) ∧
    { clashingRecord with extras := [("note", .integer (10 ^ Number.maxDigits : Nat))] }.text
      exampleDeployment = .error (.fault .longInteger) := by
  constructor
  · obtain ⟨line, htext, -, hread⟩ := text_reads
      (p := exampleDeployment) (r := { clashingRecord with extras := [("taskName", .text "t")] })
      rfl rfl rfl rfl rfl (.text _) (.text _) (.text _)
      (by simpa only [List.forall_mem_singleton] using .text _)
    exact ⟨by decide, line, _, htext, hread, rfl⟩
  · exact text_of_not_writable Number.not_writable_pow

end ThermalLabel.Log
