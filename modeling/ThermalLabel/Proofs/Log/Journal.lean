import ThermalLabel.Log.Journal
import ThermalLabel.Proofs.Json.Encodable
import ThermalLabel.Proofs.Log.Extras
import ThermalLabel.Proofs.Log.File
import ThermalLabel.Proofs.Log.Names
import ThermalLabel.Proofs.Number.Digits

/-!
# The journal over a sequence of actions

Once the journal has been set up, every channel has one file handler, however often it is set up
again.  A record that counts is therefore added once, to the file of the channel that its logger
belongs to.  No action changes what is written, and what is taken away are the oldest dated files,
when a record finds that the day of its file is over.
-/
namespace ThermalLabel.Log

open Text (Unbroken)

/-! ### What can be stored -/

/-- The line of the event has a form in octets. -/
structure Event.Writable (e : Event) : Prop where
  logger : Unbroken e.logger
  message : ∃ m, e.message.toText = .ok m ∧ Unbroken m
  others : (detail e.extras e.exception .null).Encodable

theorem encodable_detail {extras : Fields} {exception : Option Text} (hextras : extras.Encodable)
    (hexception : ∀ text, exception = some text → Unbroken text) :
    (detail extras exception .null).Encodable := by
  intro entry hentry
  rcases mem_detail hentry with h | ⟨text, htext, rfl⟩ | ⟨htruthy, -⟩
  · exact hextras entry (mem_of_mem_shownExtras h)
  · exact ⟨Text.unbroken_ofString _, .text (hexception text htext)⟩
  · cases htruthy

/-- The fields of an event with a given message. -/
def Event.fieldsWith (e : Event) (message : Text) : Fields :=
  ("level", .text (levelName e.level)) :: ("logger", .text e.logger) ::
    ("message", .text message) :: detail e.extras e.exception .null

theorem Event.fields_of_message {e : Event} {message : Text} (h : e.message.toText = .ok message) :
    e.fields = .ok (e.fieldsWith message) := by
  simp only [Event.fields, h, bind, Except.bind]
  rfl

theorem Event.Writable.fields {e : Event} (h : e.Writable) :
    ∃ fields, e.fields = .ok fields ∧ storable fields = true := by
  obtain ⟨m, hm, hunbroken⟩ := h.message
  refine ⟨_, Event.fields_of_message hm, ?_⟩
  have hencodable : (e.fieldsWith m).Encodable := by
    simp only [Event.fieldsWith, Fields.Encodable, List.forall_mem_cons]
    exact ⟨⟨Text.unbroken_ofString _, .text (Text.unbroken_ofString _)⟩,
      ⟨Text.unbroken_ofString _, .text h.logger⟩, ⟨Text.unbroken_ofString _, .text hunbroken⟩,
      h.others⟩
  obtain ⟨result, hresult⟩ := Text.exists_toString? (Json.unbroken_write hencodable.object)
  rw [storable, Json.writable_of_encodable hencodable.object, hresult]
  rfl

theorem Event.line?_eq_some {e : Event} {line : Fields} (h : e.line? = some line) :
    e.fields = .ok line := by
  unfold Event.line? at h
  split at h
  · rename_i fields hfields
    split at h
    · cases h
      exact hfields
    · cases h
  · cases h

theorem Event.Writable.line? {e : Event} (h : e.Writable) :
    ∃ fields, e.fields = .ok fields ∧ e.line? = some fields := by
  obtain ⟨fields, hfields, hstorable⟩ := h.fields
  exact ⟨fields, hfields, by simp only [Event.line?, hfields, hstorable, if_true]⟩

/-- An event with a field that cannot be written has no line. -/
theorem Event.line?_of_not_writable {e : Event} {message : Text}
    (hmessage : e.message.toText = .ok message) {f : Text × Value}
    (hf : f ∈ e.fieldsWith message) (h : Json.writable f.2 = false) : e.line? = none := by
  have hstorable : storable (e.fieldsWith message) = false := by
    rw [storable, Json.not_writable_of_mem hf h, Bool.false_and]
  simp only [Event.line?, Event.fields_of_message hmessage, hstorable, Bool.false_eq_true, if_false]

/-! ### Actions -/

/-- What happens to the journal. -/
inductive Action where
  | setUp (console : Bool) (kept : Int)
  | report (r : Report) (message : Value) (extras : Fields) (exception : Option Text)
  | record (e : Event)
  | wait (days : Nat)

def Action.setUp? : Action → Option (Bool × Int)
  | .setUp console kept => some (console, kept)
  | _ => none

/-- A report is stopped by an extra that bears the name of its subject, or one that is refused. -/
def stops (r : Report) (extras : Fields) : Bool :=
  extras.any fun e => e.1 == r.subject || refusedNames.contains e.1

/-- The event that an action hands to its logger. -/
def Action.event? : Action → Option Event
  | .setUp .. | .wait _ => none
  | .report r message extras exception =>
    if stops r extras then none
    else some { logger := r.channel.logger, level := r.level, message, extras, exception }
  | .record e => some e

/-! ### One file at a time -/

namespace Channel

variable {α : Type}

@[simp] theorem put_self (of : Channel → α) (c : Channel) (a : α) : put of c a c = a :=
  if_pos rfl

theorem put_of_ne (of : Channel → α) {c d : Channel} (a : α) (h : d ≠ c) : put of c a d = of d :=
  if_neg h

/-- Putting back what is there. -/
theorem put_eq_self (of : Channel → α) (c : Channel) : put of c (of c) = of := by
  funext d
  by_cases hd : d = c
  · rw [hd, put_self]
  · exact put_of_ne of _ hd

end Channel

namespace Journal

def perform (j : Journal) : Action → Journal
  | .setUp console kept => j.setUp console kept
  | .report r message extras exception =>
    match j.report r message extras exception with
    | .ok next => next
    | .error _ => j
  | .record e => j.submit e
  | .wait days => j.wait days

def performAll (j : Journal) (actions : List Action) : Journal :=
  actions.foldl perform j

theorem performAll_append (j : Journal) (first second : List Action) :
    j.performAll (first ++ second) = (j.performAll first).performAll second :=
  List.foldl_append

/-- The handlers that the last set-up asked for: whether there is a console, and how many old
files are kept. -/
def lastSetUp (history : List Action) : Option (Bool × Int) :=
  history.foldl (fun last a => a.setUp?.or last) none

/-- The handlers of a channel, with a console or without. -/
def handlersWith (console : Bool) (kept : Int) (since : Day) : List Handler :=
  .file kept since :: if console then [.console] else []

/-- The journal is set up, with a file handler for every channel and perhaps a console.  A handler
knows the day of its file. -/
structure Ready (console : Bool) (kept : Int) (j : Journal) : Prop where
  ready : j.ready = true
  handlers : ∀ c, ∃ since, (j.file c).touched = some since ∧
    j.handlers c = handlersWith console kept since
  ordered : ∀ c, (j.file c).Ordered j.today

/-- The journal of a program that has just begun, in a directory with files of earlier days. -/
structure Fresh (j : Journal) : Prop where
  handlers : ∀ c, j.handlers c = []
  ordered : ∀ c, (j.file c).Ordered j.today

theorem fresh_empty : Fresh {} :=
  ⟨fun _ => rfl, fun _ => .empty _⟩

theorem setUp_ready {j : Journal} (h : ∀ c, (j.file c).Ordered j.today) (console : Bool)
    (kept : Int) : Ready console kept (j.setUp console kept) where
  ready := rfl
  handlers _ := ⟨_, rfl, rfl⟩
  ordered c := (h c).opened

/-! ### What one record does -/

/-- A record, with a line or without, comes to the file of a channel, and no other file changes. -/
def Receives (kept : Int) (today : Day) (c : Channel) (line : Option Fields)
    (before after : Channel → LogFile) : Prop :=
  after = Channel.put before c ((before c).receive kept ((before c).day today) today line)

/-- A record without a line changes nothing on the day of the file. -/
theorem Receives.eq_of_none {kept : Int} {today : Day} {c : Channel}
    {before after : Channel → LogFile} (h : Receives kept today c none before after)
    (hday : (before c).day today = today) : after = before := by
  have hsame : (before c).receive kept ((before c).day today) today none = before c :=
    if_neg (by rw [hday]; exact Nat.lt_irrefl _)
  rw [h, hsame, Channel.put_eq_self]

/-- Without handlers nothing is written. -/
theorem write_of_fresh {j : Journal} {c : Channel} (h : j.handlers c = []) (line : Option Fields) :
    j.write c line = j := by
  have hhandlers := Channel.put_eq_self j.handlers c
  have hfile := Channel.put_eq_self j.file c
  rw [h] at hhandlers
  simp only [write, h, Handler.emitAll, hhandlers, hfile]

variable {console : Bool} {kept : Int} {j : Journal}

/-- The file handler takes a record once, the console leaves no trace. -/
theorem emitAll_handlersWith (console : Bool) (kept : Int) (since today : Day)
    (line : Option Fields) (f : LogFile) :
    Handler.emitAll today line (handlersWith console kept since) f =
      (handlersWith console kept (max since today), f.receive kept since today line) := by
  cases console <;> rfl

theorem write_receives (h : Ready console kept j) (c : Channel) (line : Option Fields) :
    Ready console kept (j.write c line) ∧ (j.write c line).today = j.today ∧
      Receives kept j.today c line j.file (j.write c line).file := by
  obtain ⟨since, htouched, hhandlers⟩ := h.handlers c
  have hday : (j.file c).day j.today = since := by rw [LogFile.day, htouched]; rfl
  have hpast : since ≤ j.today := hday ▸ (h.ordered c).past
  have hwrite : j.write c line =
      { j with
        handlers := Channel.put j.handlers c (handlersWith console kept (max since j.today))
        file := Channel.put j.file c ((j.file c).receive kept since j.today line) } := by
    simp only [write, hhandlers, emitAll_handlersWith]
  rw [hwrite, Receives, hday]
  refine ⟨⟨h.ready, fun d => ?_, fun d => ?_⟩, rfl, rfl⟩
  · by_cases hd : d = c
    · subst hd
      simp only [Channel.put_self]
      exact ⟨_, LogFile.touched_receive htouched hpast line, rfl⟩
    · simp only [Channel.put_of_ne _ _ hd]
      exact h.handlers d
  · by_cases hd : d = c
    · subst hd
      simp only [Channel.put_self]
      exact hday ▸ (h.ordered d).receive line
    · simp only [Channel.put_of_ne _ _ hd]
      exact h.ordered d

theorem Ready.threshold (h : Ready console kept j) (c : Channel) :
    j.threshold c = c.threshold := by
  rw [Journal.threshold, h.ready, if_pos rfl]

/-- The journal knows another logger, which changes nothing else. -/
theorem Ready.known (h : Ready console kept j) (known : List Text) :
    Ready console kept { j with known } :=
  ⟨h.ready, h.handlers, h.ordered⟩

theorem submit_of_channelOf (h : Ready console kept j) {e : Event} {c : Channel}
    (hc : channelOf (j.known ++ [e.logger]) e.logger = some c) (hlevel : c.threshold ≤ e.level) :
    j.submit e = { j with known := j.known ++ [e.logger] }.write c e.line? := by
  simp only [submit, hc, (h.known _).threshold, if_neg (Int.not_lt.mpr hlevel)]

/-- A record whose logger reaches no channel is lost. -/
theorem submit_of_channelOf_none {e : Event}
    (hc : channelOf (j.known ++ [e.logger]) e.logger = none) :
    j.submit e = { j with known := j.known ++ [e.logger] } := by
  simp only [submit, hc]

/-- A record reaches at most one file, that of a channel it is under, if it counts there. -/
theorem submit_cases (h : Ready console kept j) (e : Event) :
    j.submit e = { j with known := j.known ++ [e.logger] } ∨
    ∃ c, Under c e.logger ∧ c.threshold ≤ e.level ∧
      j.submit e = { j with known := j.known ++ [e.logger] }.write c e.line? := by
  cases hc : channelOf (j.known ++ [e.logger]) e.logger with
  | none => exact .inl (submit_of_channelOf_none hc)
  | some c =>
    by_cases hlevel : c.threshold ≤ e.level
    · exact .inr ⟨c, under_of_channelOf hc, hlevel, submit_of_channelOf h hc hlevel⟩
    · left
      simp only [submit, hc, (h.known _).threshold, if_pos (Int.not_le.mp hlevel)]

theorem submit_ready (h : Ready console kept j) (e : Event) :
    Ready console kept (j.submit e) ∧ (j.submit e).today = j.today := by
  rcases submit_cases h e with heq | ⟨c, -, -, heq⟩
  · rw [heq]
    exact ⟨h.known _, rfl⟩
  · obtain ⟨hready, htoday, -⟩ := write_receives (h.known (j.known ++ [e.logger])) c e.line?
    rw [heq]
    exact ⟨hready, htoday⟩

/-- A record that counts for the channel it belongs to comes to its file. -/
theorem submit_receives (h : Ready console kept j) {e : Event} {c : Channel}
    (hlogger : Belongs c e.logger) (hlevel : c.threshold ≤ e.level) :
    Receives kept j.today c e.line? j.file (j.submit e).file := by
  rw [submit_of_channelOf h (channelOf_of_belongs hlogger _) hlevel]
  exact (write_receives (h.known _) c e.line?).2.2

/-! ### Reports -/

/-- A report leaves the journal as it is or hands its event on. -/
theorem perform_report (j : Journal) (r : Report) (message : Value) (extras : Fields)
    (exception : Option Text) :
    j.perform (.report r message extras exception) = j ∨
    j.perform (.report r message extras exception) = j.submit
      { logger := r.channel.logger, level := r.level, message, extras, exception } := by
  simp only [perform, report]
  split
  · rename_i next h
    split at h
    · cases h
    · split at h
      · cases h
        exact .inl rfl
      · split at h
        · cases h
        · cases h
          exact .inr rfl
  · exact .inl rfl

theorem write_file_of_ne (j : Journal) {c d : Channel} (line : Option Fields) (h : d ≠ c) :
    (j.write c line).file d = j.file d :=
  Channel.put_of_ne _ _ h

/-- Only the file of its channel can be reached by a report. -/
theorem perform_report_file_of_ne (j : Journal) {r : Report} {c : Channel} (hc : r.channel ≠ c)
    (message : Value) (extras : Fields) (exception : Option Text) :
    (j.perform (.report r message extras exception)).file c = j.file c := by
  rcases perform_report j r message extras exception with h | h
  · rw [h]
  · rw [h, submit]
    simp only [channelOf_of_belongs (belongs_logger r.channel)]
    split
    · rfl
    · exact write_file_of_ne { j with known := _ } _ hc.symm

/-- A report that is stopped fails. -/
theorem report_of_stops (h : Ready console kept j) {r : Report} {message : Value} {extras : Fields}
    {exception : Option Text} (hstops : stops r extras = true) :
    ∃ error, j.report r message extras exception = .error error := by
  have hlevel : ¬ r.level < j.threshold r.channel := by
    rw [h.threshold]
    cases r <;> decide
  rw [report]
  by_cases hsubject : (extras.any fun e => e.1 == r.subject) = true
  · exact ⟨_, if_pos hsubject⟩
  · rw [if_neg hsubject, if_neg hlevel]
    obtain ⟨e, he, hname⟩ := List.any_eq_true.mp hstops
    have hrefused : refusedNames.contains e.1 = true := by
      rcases Bool.or_eq_true_iff.mp hname with hname | hname
      · exact absurd (List.any_eq_true.mpr ⟨e, he, hname⟩) hsubject
      · exact hname
    cases hfind : extras.find? fun e => refusedNames.contains e.1 with
    | none => exact absurd hrefused (List.find?_eq_none.mp hfind e he)
    | some e => exact ⟨_, rfl⟩

/-- Any other report hands its event on. -/
theorem report_of_not_stops (h : Ready console kept j) {r : Report} {message : Value}
    {extras : Fields} {exception : Option Text} (hstops : stops r extras = false) :
    j.report r message extras exception = .ok (j.submit
      { logger := r.channel.logger, level := r.level, message, extras, exception }) := by
  have hlevel : ¬ r.level < j.threshold r.channel := by
    rw [h.threshold]
    cases r <;> decide
  have hnone := List.any_eq_false.mp hstops
  simp only [Bool.or_eq_true, not_or] at hnone
  have hsubject : ¬ (extras.any fun e => e.1 == r.subject) = true := by
    rw [List.any_eq_true]
    rintro ⟨e, he, hname⟩
    exact (hnone e he).1 hname
  have hrefused : (extras.find? fun e => refusedNames.contains e.1) = none :=
    List.find?_eq_none.mpr fun e he => (hnone e he).2
  rw [report, if_neg hsubject, if_neg hlevel, hrefused]

/-- What a report that is not stopped brings to the file of its channel. -/
theorem report_receives (h : Ready console kept j) {r : Report} {message : Value}
    {extras : Fields} {exception : Option Text} (hstops : stops r extras = false) :
    let e : Event := { logger := r.channel.logger, level := r.level, message, extras, exception }
    Receives kept j.today r.channel e.line? j.file
      (j.perform (.report r message extras exception)).file := by
  have hlevel : r.channel.threshold ≤ r.level := by
    cases r <;> decide
  simp only [perform, report_of_not_stops h hstops]
  exact submit_receives h (belongs_logger r.channel) hlevel

/-- A report whose event has no line is lost on the day of the file. -/
theorem perform_report_of_lost (h : Ready console kept j) {r : Report} {message : Value}
    {extras : Fields} {exception : Option Text} (hstops : stops r extras = false)
    (hday : (j.file r.channel).day j.today = j.today)
    (hlost : Event.line?
      { logger := r.channel.logger, level := r.level, message, extras, exception } = none) :
    (j.perform (.report r message extras exception)).file = j.file := by
  have hreceives : Receives kept j.today r.channel _ j.file
      (j.perform (.report r message extras exception)).file := report_receives h hstops
  rw [hlost] at hreceives
  exact hreceives.eq_of_none hday

/-! ### Any sequence of actions -/

/-- What the last set-up asked for is there; before the first one there is nothing. -/
def Follows (last : Option (Bool × Int)) (j : Journal) : Prop :=
  match last with
  | none => Fresh j
  | some (console, kept) => Ready console kept j

theorem Follows.ordered {last : Option (Bool × Int)} (h : Follows last j) (c : Channel) :
    (j.file c).Ordered j.today := by
  cases last with
  | none => exact Fresh.ordered h c
  | some last => exact Ready.ordered h c

theorem Ready.wait (h : Ready console kept j) (days : Nat) : Ready console kept (j.wait days) :=
  ⟨h.ready, h.handlers, fun c => (h.ordered c).later days⟩

theorem Fresh.wait (h : Fresh j) (days : Nat) : Fresh (j.wait days) :=
  ⟨h.handlers, fun c => (h.ordered c).later days⟩

theorem submit_fresh (h : Fresh j) (e : Event) : Fresh (j.submit e) := by
  have hnext : Fresh { j with known := j.known ++ [e.logger] } := ⟨h.handlers, h.ordered⟩
  unfold submit
  dsimp only
  split
  · exact hnext
  · split
    · exact hnext
    · rename_i c _ _
      rw [write_of_fresh (hnext.handlers c)]
      exact hnext

theorem submit_follows {last : Option (Bool × Int)} (h : Follows last j) (e : Event) :
    Follows last (j.submit e) := by
  cases last with
  | none => exact submit_fresh h e
  | some last => exact (submit_ready h e).1

/-- One action keeps the handlers that were asked for last. -/
theorem perform_follows {last : Option (Bool × Int)} (h : Follows last j) (a : Action) :
    Follows (a.setUp?.or last) (j.perform a) := by
  cases a with
  | setUp console kept => exact setUp_ready h.ordered console kept
  | record e => exact submit_follows h e
  | report r message extras exception =>
    rcases perform_report j r message extras exception with hr | hr
    · rw [hr]
      exact h
    · rw [hr]
      exact submit_follows h _
  | wait days =>
    cases last with
    | none => exact Fresh.wait h days
    | some last => exact Ready.wait h days

theorem performAll_follows {last : Option (Bool × Int)} (h : Follows last j)
    (history : List Action) :
    Follows (history.foldl (fun last a => a.setUp?.or last) last) (j.performAll history) := by
  induction history generalizing last j with
  | nil => exact h
  | cons a history ih => exact ih (perform_follows h a)

/-- After a set-up the handlers are those that the last one asked for. -/
theorem performAll_ready (hj : Fresh j) {history : List Action}
    (h : lastSetUp history = some (console, kept)) : Ready console kept (j.performAll history) := by
  have hstart : Follows none j := hj
  have hfollows := performAll_follows hstart history
  rw [show history.foldl (fun last a => a.setUp?.or last) none = _ from h] at hfollows
  exact hfollows

/-! ### How the files come about -/

/-- How the files after an action come from those before. -/
structure Accounts (kept : Int) (today : Day) (event? : Option Event)
    (before after : Channel → LogFile) : Prop where
  /-- A record that counts for the channel it belongs to is added there, if it can be written. -/
  once : ∀ e c, event? = some e → Belongs c e.logger → c.threshold ≤ e.level → e.Writable →
    ∃ fields, e.fields = .ok fields ∧ Receives kept today c (some fields) before after
  /-- Any record is added at most once, and only to the file of a channel that it is under and
  counts for. -/
  atMost : ∀ e, event? = some e → after = before ∨ ∃ c line, Under c e.logger ∧
    c.threshold ≤ e.level ∧ (∀ fields, line = some fields → e.fields = .ok fields) ∧
    Receives kept today c line before after
  nothing : event? = none → after = before

theorem submit_accounts (h : Ready console kept j) (e : Event) :
    Accounts kept j.today (some e) j.file (j.submit e).file where
  once := by
    rintro _ c ⟨⟩ hlogger hlevel hwritable
    obtain ⟨fields, hfields, hline⟩ := hwritable.line?
    exact ⟨fields, hfields, hline ▸ submit_receives h hlogger hlevel⟩
  atMost := by
    rintro _ ⟨⟩
    rcases submit_cases h e with heq | ⟨c, hunder, hlevel, heq⟩
    · rw [heq]
      exact .inl rfl
    · rw [heq]
      exact .inr ⟨c, e.line?, hunder, hlevel, fun _ => Event.line?_eq_some,
        (write_receives (h.known _) c e.line?).2.2⟩
  nothing := nofun

theorem Accounts.refl (kept : Int) (today : Day) (before : Channel → LogFile) :
    Accounts kept today none before before :=
  ⟨nofun, nofun, fun _ => rfl⟩

/-- One action of a journal that is set up. -/
theorem perform_accounts (h : Ready console kept j) (a : Action) :
    Accounts kept j.today a.event? j.file (j.perform a).file := by
  cases a with
  | setUp console' kept' =>
    have hfile : (j.setUp console' kept').file = j.file := by
      funext c
      obtain ⟨since, htouched, -⟩ := h.handlers c
      exact LogFile.opened_of_touched htouched
    simp only [Action.event?, perform, hfile]
    exact .refl kept j.today j.file
  | wait days => exact .refl kept j.today j.file
  | record e => exact submit_accounts h e
  | report r message extras exception =>
    cases hstops : stops r extras with
    | true =>
      obtain ⟨error, herror⟩ : ∃ error, j.report r message extras exception = .error error :=
        report_of_stops h hstops
      simp only [Action.event?, hstops, if_true, perform, herror]
      exact .refl kept j.today j.file
    | false =>
      simp only [Action.event?, hstops, Bool.false_eq_true, if_false, perform,
        report_of_not_stops h hstops]
      exact submit_accounts h _

/-- A report fails exactly if it is stopped, and then nothing is handed on. -/
theorem report_fails_iff (h : Ready console kept j) (r : Report) (message : Value)
    (extras : Fields) (exception : Option Text) :
    (∃ error, j.report r message extras exception = .error error) ↔
      (Action.report r message extras exception).event? = none := by
  cases hstops : stops r extras with
  | true => simpa [Action.event?, hstops] using report_of_stops h hstops
  | false => simp [Action.event?, hstops, report_of_not_stops h hstops]

/-! ### What is left of the files -/

variable {n : Nat}

theorem Receives.grows {today : Day} {c : Channel} {line : Option Fields}
    {before after : Channel → LogFile} (h : Receives kept today c line before after)
    (hordered : ∀ c, (before c).Ordered today) (hkept : KeepsAtLeast n kept) (d : Channel) :
    LogFile.Grows n (if d = c then line.toList else []) (before d) (after d) := by
  rw [h]
  by_cases hd : d = c
  · subst hd
    rw [Channel.put_self, if_pos rfl]
    exact (hordered d).grows_receive hkept line
  · rw [Channel.put_of_ne _ _ hd, if_neg hd]
    exact .refl n _

/-- Whatever an action does, the lines of a file only grow. -/
theorem perform_grows (h : Ready console kept j) (hkept : KeepsAtLeast n kept) (a : Action)
    (c : Channel) : ∃ gained, LogFile.Grows n gained (j.file c) ((j.perform a).file c) := by
  have haccounts := perform_accounts h a
  cases hevent : a.event? with
  | none =>
    rw [haccounts.nothing hevent]
    exact ⟨[], .refl n _⟩
  | some e =>
    rcases haccounts.atMost e hevent with hsame | ⟨d, line, -, -, -, hreceives⟩
    · rw [hsame]
      exact ⟨[], .refl n _⟩
    · exact ⟨_, hreceives.grows h.ordered hkept c⟩

theorem performAll_grows (h : Ready console kept j) (hkept : KeepsAtLeast n kept)
    {more : List Action}
    (hmore : ∀ a ∈ more, ∀ console kept, a.setUp? = some (console, kept) → KeepsAtLeast n kept)
    (c : Channel) :
    ∃ gained, LogFile.Grows n gained (j.file c) ((j.performAll more).file c) := by
  induction more generalizing console kept j with
  | nil => exact ⟨[], .refl n _⟩
  | cons a more ih =>
    rw [List.forall_mem_cons] at hmore
    have hlast : Follows (some (console, kept)) j := h
    have hfollows := perform_follows hlast a
    obtain ⟨gained, hfirst⟩ := perform_grows h hkept a c
    have hnext : ∃ gained, LogFile.Grows n gained ((j.perform a).file c)
        (((j.perform a).performAll more).file c) := by
      cases hsetUp : a.setUp? with
      | none =>
        rw [hsetUp] at hfollows
        exact ih hfollows hkept hmore.2
      | some asked =>
        rw [hsetUp] at hfollows
        exact ih hfollows (hmore.1 asked.1 asked.2 hsetUp) hmore.2
    obtain ⟨later, hlater⟩ := hnext
    exact ⟨gained ++ later, hfirst.trans hlater⟩

end Journal

end ThermalLabel.Log
