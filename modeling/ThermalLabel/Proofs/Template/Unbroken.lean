import ThermalLabel.Proofs.Label.Unbroken
import ThermalLabel.Template.Directory

/-!
# Templates without lone halves

The text of a template comes from characters, and so does every text in quotes in it that spells
none with a backslash.  Lone halves could then come in by the context alone, so such a template
that is run on a context without them gives a label that has a form in octets.  A template that
spells a lone half itself may give one that has none.
-/
namespace ThermalLabel.Template

open Text (Unbroken)

/-! ### Programs -/

/-- No constant of the expression is a text with a lone half. -/
inductive Expression.Clean : Expression → Prop
  | name (n : Text) : Clean (.name n)
  | constant {v : Value} (h : v.Clean) : Clean (.constant v)
  | field {e : Expression} (h : Clean e) (n : Text) : Clean (.field e n)
  | call {function : Expression} {arguments : List Expression} (h : Clean function)
    (harguments : ∀ e ∈ arguments, Clean e) : Clean (.call function arguments)
  | either {first second : Expression} (h : Clean first) (h' : Clean second) :
    Clean (.either first second)

inductive Statement.Clean : Statement → Prop
  | text {s : Text} (h : Unbroken s) : Clean (.text s)
  | print {e : Expression} (h : e.Clean) : Clean (.print e)
  | assign (n : Text) {e : Expression} (h : e.Clean) : Clean (.assign n e)
  | branch {condition : Expression} {body : List Statement} (h : condition.Clean)
    (hbody : ∀ s ∈ body, Clean s) : Clean (.branch condition body)

/-! ### Cutting -/

/-- Nothing is spelled: there is no backslash. -/
def IsPlain (s : List Char) : Prop :=
  '\\' ∉ s

instance (s : List Char) : Decidable (IsPlain s) :=
  inferInstanceAs (Decidable (¬ _))

theorem IsPlain.of_cons {c : Char} {s : List Char} (h : IsPlain (c :: s)) :
    c ≠ '\\' ∧ IsPlain s :=
  ⟨fun hc => h (hc ▸ List.mem_cons_self), fun hmem => h (List.mem_cons_of_mem c hmem)⟩

theorem IsPlain.append {s t : List Char} (h : IsPlain s) (h' : IsPlain t) : IsPlain (s ++ t) :=
  fun hmem => (List.mem_append.mp hmem).elim h h'

/-- Nothing is spelled in what the engine reads. -/
def Chunk.Plain : Chunk → Prop
  | .text _ => True
  | .print content | .block content => IsPlain content

def Mode.Plain : Mode → Prop
  | .text .. | .comment => True
  | .print _ done | .block _ done => IsPlain done

theorem Chunk.plain_of_cons (first : Chunk) (hfirst : first.Plain) {chunks : List Chunk}
    {found : Option (List Chunk)}
    (ih : ∀ {chunks}, found = some chunks → ∀ chunk ∈ chunks, chunk.Plain)
    (h : (do return first :: (← found)) = some chunks) : ∀ chunk ∈ chunks, chunk.Plain := by
  obtain ⟨others, hothers, h⟩ := Option.bind_eq_some_iff.mp h
  cases h
  exact List.forall_mem_cons.mpr ⟨hfirst, ih hothers⟩

theorem scan_plain {mode : Mode} {source : List Char} (hmode : mode.Plain)
    (hsource : IsPlain source)
    {chunks : List Chunk} (h : scan mode source = some chunks) : ∀ chunk ∈ chunks, chunk.Plain := by
  fun_induction scan mode source generalizing chunks with
  | case1 =>
    cases h
    exact List.forall_mem_singleton.mpr trivial
  | case2 | case9 | case10 | case17 => cases h
  | case3 _ _ rest _ ih =>
    exact Chunk.plain_of_cons (.text _) trivial (ih trivial hsource.of_cons.2.of_cons.2) h
  -- A mark opens: the text before it is complete, and nothing has been read behind it.
  | case4 _ _ rest ih | case5 _ _ rest ih =>
    have hrest : IsPlain rest := hsource.of_cons.2.of_cons.2
    exact Chunk.plain_of_cons (.text _) trivial (ih List.not_mem_nil hrest) h
  | case6 _ _ c rest _ _ _ ih | case11 c rest _ _ _ _ ih => exact ih trivial hsource.of_cons.2 h
  | case7 rest ih => exact ih trivial hsource.of_cons.2.of_cons.2.of_cons.2 h
  | case8 rest _ ih => exact ih trivial hsource.of_cons.2.of_cons.2 h
  -- A mark closes: what stands before it is complete.
  | case12 done rest ih =>
    exact Chunk.plain_of_cons (.block done) hmode
      (ih trivial hsource.of_cons.2.of_cons.2.of_cons.2) h
  | case13 done rest _ ih =>
    exact Chunk.plain_of_cons (.block done) hmode
      (ih trivial hsource.of_cons.2.of_cons.2) h
  | case15 done rest ih =>
    exact Chunk.plain_of_cons (.print done) hmode
      (ih trivial hsource.of_cons.2.of_cons.2) h
  | case14 quoting done c rest _ _ ih | case16 quoting done c rest _ ih =>
    obtain ⟨hc, hrest⟩ := hsource.of_cons
    have hdone : IsPlain (done ++ [c]) := IsPlain.append hmode (by simpa [IsPlain] using hc.symm)
    exact ih hdone hrest h

theorem normalLines_plain {s : List Char} (h : IsPlain s) : IsPlain (normalLines s) := by
  fun_induction normalLines s with
  | case1 => exact h
  | case2 rest ih =>
    exact IsPlain.append (s := ['\n']) (by decide) (ih h.of_cons.2.of_cons.2)
  | case3 rest _ ih => exact IsPlain.append (s := ['\n']) (by decide) (ih h.of_cons.2)
  | case4 c rest _ _ ih =>
    obtain ⟨hc, hrest⟩ := h.of_cons
    exact IsPlain.append (s := [c]) (by simpa [IsPlain] using hc.symm) (ih hrest)

theorem dropLastBreak_plain {s : List Char} (h : IsPlain s) : IsPlain (dropLastBreak s) := by
  unfold dropLastBreak
  split
  · exact fun hmem => h (List.dropLast_subset s hmem)
  · exact h

/-! ### Reading -/

def Symbol.Clean : Symbol → Prop
  | .constant v => v.Clean
  | _ => True

theorem numberOf?_clean {s : List Char} {v : Value} (h : numberOf? s = some v) : v.Clean := by
  unfold numberOf? at h
  split at h
  · split at h
    · cases h
    · cases h
      nofun
  · split at h
    · cases h
      nofun
    · cases h
  · cases h

namespace Partial

/-- A text in quotes has been read character by character so far. -/
def Plain : Partial → Prop
  | quoted _ done spelling => Unbroken done ∧ spelling = .plain
  | _ => True

theorem finish_clean {p : Partial} {found : List Symbol} (h : p.finish = some found) :
    ∀ s ∈ found, s.Clean := by
  cases p with
  | blank =>
    cases h
    nofun
  | word done =>
    cases h
    simp [Symbol.Clean]
  | number done =>
    obtain ⟨v, hv, rfl⟩ := Option.map_eq_some_iff.mp h
    simpa [Symbol.Clean] using numberOf?_clean hv
  | quoted quote done spelling => cases h

theorem start_clean {c : Char} {found : List Symbol} {next : Partial}
    (h : start c = some (found, next)) : (∀ s ∈ found, s.Clean) ∧ next.Plain := by
  unfold start at h
  repeat' split at h
  all_goals
    cases h
    try simp [Symbol.Clean, Plain, Text.unbroken_nil]

theorem step_clean {p next : Partial} (hp : p.Plain) {c : Char} (hc : c ≠ '\\')
    {found : List Symbol} (h : p.step c = some (found, next)) :
    (∀ s ∈ found, s.Clean) ∧ next.Plain := by
  cases p with
  | blank => exact start_clean h
  | word done =>
    rw [step] at h
    split at h
    · cases h
      exact ⟨nofun, trivial⟩
    · obtain ⟨⟨more, after⟩, hstart, h⟩ := Option.bind_eq_some_iff.mp h
      cases h
      obtain ⟨hmore, hafter⟩ := start_clean hstart
      exact ⟨List.forall_mem_cons.mpr ⟨trivial, hmore⟩, hafter⟩
  | number done =>
    rw [step] at h
    split at h
    · cases h
      exact ⟨nofun, trivial⟩
    · obtain ⟨complete, hcomplete, h⟩ := Option.bind_eq_some_iff.mp h
      obtain ⟨⟨more, after⟩, hstart, h⟩ := Option.bind_eq_some_iff.mp h
      cases h
      obtain ⟨hmore, hafter⟩ := start_clean hstart
      exact ⟨List.forall_mem_append.mpr ⟨finish_clean hcomplete, hmore⟩, hafter⟩
  | quoted quote done spelling =>
    obtain ⟨hdone, rfl⟩ := hp
    have hunspelled : Spelling.plain.step c = some ([.char c], .plain) := by
      simp [Spelling.step, Spelling.unspelled, hc]
    simp only [step, Spelling.finish, hunspelled] at h
    split at h
    · cases h
      exact ⟨List.forall_mem_singleton.mpr (Value.clean_text.mpr (by simpa using hdone)), trivial⟩
    · cases h
      exact ⟨nofun, hdone.append (Text.unbroken_ofChars [c]), rfl⟩

end Partial

theorem symbolsFrom_clean {p : Partial} (hp : p.Plain) {content : List Char}
    (hcontent : IsPlain content) {found : List Symbol}
    (h : symbolsFrom p content = some found) : ∀ s ∈ found, s.Clean := by
  induction content generalizing p found with
  | nil => exact Partial.finish_clean h
  | cons c rest ih =>
    obtain ⟨hc, hplain⟩ := hcontent.of_cons
    obtain ⟨⟨first, next⟩, hstep, h⟩ := Option.bind_eq_some_iff.mp h
    obtain ⟨others, hrest, h⟩ := Option.bind_eq_some_iff.mp h
    cases h
    obtain ⟨hfirst, hnext⟩ := Partial.step_clean hp hc hstep
    exact List.forall_mem_append.mpr ⟨hfirst, ih hnext hplain hrest⟩

theorem symbols_clean {content : List Char} (hcontent : IsPlain content) {found : List Symbol}
    (h : symbols content = some found) : ∀ s ∈ found, s.Clean :=
  symbolsFrom_clean (p := .blank) trivial hcontent h

structure OpenCall.Clean (call : OpenCall) : Prop where
  function : call.function.Clean
  arguments : ∀ e ∈ call.arguments, e.Clean
  first : ∀ e, call.first = some e → e.Clean

structure Building.Clean (b : Building) : Prop where
  outer : ∀ call ∈ b.outer, call.Clean
  first : ∀ e, b.first = some e → e.Clean
  operand : ∀ e, b.operand = some e → e.Clean

namespace Building

variable {b next : Building}

theorem Clean.whole_clean (hb : b.Clean) {e : Expression} (h : b.whole = some e) : e.Clean := by
  unfold whole at h
  split at h
  · cases h
  · obtain ⟨operand, hoperand, rfl⟩ := Option.map_eq_some_iff.mp h
    cases hfirst : b.first with
    | none => exact hb.operand operand hoperand
    | some first => exact .either (hb.first first hfirst) (hb.operand operand hoperand)

theorem Clean.withOperand (hb : b.Clean) {e : Expression} (he : e.Clean) (afterDot : Bool) :
    Clean { b with operand := some e, afterDot } :=
  ⟨hb.outer, hb.first, by rintro _ ⟨⟩; exact he⟩

theorem Clean.readWord_clean (hb : b.Clean) {n : Text} (h : b.readWord n = some next) :
    next.Clean := by
  unfold readWord at h
  split at h
  · rename_i e he
    split at h
    · cases h
      exact hb.withOperand (.field (hb.operand e he) n) false
    · split at h
      · obtain ⟨first, hfirst, rfl⟩ := Option.map_eq_some_iff.mp h
        obtain ⟨whole, hwhole, hfirst⟩ := Option.bind_eq_some_iff.mp hfirst
        cases hfirst
        exact ⟨hb.outer, by rintro _ ⟨⟩; exact hb.whole_clean hwhole, nofun⟩
      · cases h
  · split at h
    · cases h
    · cases h
      exact hb.withOperand (.name n) b.afterDot

theorem Clean.readMark_clean (hb : b.Clean) {c : Char} (h : b.readMark c = some next) :
    next.Clean := by
  unfold readMark at h
  split at h
  · split at h
    · cases h
    · cases h
      exact ⟨hb.outer, hb.first, hb.operand⟩
  · rename_i function hoperand
    split at h
    · cases h
    · cases h
      have hopen : OpenCall.Clean { function, first := b.first } :=
        ⟨hb.operand function hoperand, nofun, hb.first⟩
      exact ⟨List.forall_mem_cons.mpr ⟨hopen, hb.outer⟩, nofun, nofun⟩
  · rename_i operand call outer hoperand houter
    obtain ⟨e, he, rfl⟩ := Option.map_eq_some_iff.mp h
    have hall := houter ▸ hb.outer
    rw [List.forall_mem_cons] at hall
    obtain ⟨hcall, hrest⟩ := hall
    have hargument : OpenCall.Clean { call with arguments := call.arguments ++ [e] } :=
      ⟨hcall.function, List.forall_mem_append.mpr
        ⟨hcall.arguments, List.forall_mem_singleton.mpr (hb.whole_clean he)⟩, hcall.first⟩
    exact ⟨List.forall_mem_cons.mpr ⟨hargument, hrest⟩, nofun, nofun⟩
  · rename_i call outer houter
    have hall := houter ▸ hb.outer
    rw [List.forall_mem_cons] at hall
    obtain ⟨hcall, hrest⟩ := hall
    have hclosed {arguments : List Expression} (harguments : ∀ e ∈ arguments, e.Clean) :
        Clean { outer, first := call.first, operand := some (.call call.function arguments) } :=
      ⟨hrest, hcall.first, by rintro _ ⟨⟩; exact .call hcall.function harguments⟩
    split at h
    · cases h
      exact hclosed nofun
    · obtain ⟨arguments, harguments, h⟩ := Option.bind_eq_some_iff.mp h
      cases h
      obtain ⟨e, he, rfl⟩ := Option.map_eq_some_iff.mp harguments
      exact hclosed (List.forall_mem_append.mpr
        ⟨hcall.arguments, List.forall_mem_singleton.mpr (hb.whole_clean he)⟩)
  · cases h

theorem Clean.read_clean (hb : b.Clean) {s : Symbol} (hs : s.Clean) (h : b.read s = some next) :
    next.Clean := by
  cases s with
  | word n => exact hb.readWord_clean h
  | constant v =>
    rw [read] at h
    split at h
    · cases h
      exact hb.withOperand (.constant hs) b.afterDot
    · cases h
  | mark c => exact hb.readMark_clean h

end Building

/-- What holds at the start and is kept by every step holds at the end. -/
theorem foldlM_induction {α β : Type} {f : β → α → Option β} {P : β → Prop} {Q : α → Prop}
    (hstep : ∀ b a next, P b → Q a → f b a = some next → P next) {items : List α}
    (hitems : ∀ a ∈ items, Q a) {b last : β} (hb : P b) (h : items.foldlM f b = some last) :
    P last := by
  induction items generalizing b with
  | nil =>
    cases h
    exact hb
  | cons a rest ih =>
    rw [List.forall_mem_cons] at hitems
    rw [List.foldlM_cons] at h
    obtain ⟨next, hnext, h⟩ := Option.bind_eq_some_iff.mp h
    exact ih hitems.2 (hstep b a next hb hitems.1 hnext) h

theorem expression_clean {found : List Symbol} (hfound : ∀ s ∈ found, s.Clean) {e : Expression}
    (h : expression found = some e) : e.Clean := by
  obtain ⟨b, hb, h⟩ := Option.bind_eq_some_iff.mp h
  have hstart : Building.Clean {} := ⟨by simp, by simp, by simp⟩
  have hclean : b.Clean := foldlM_induction (f := Building.read)
    (fun b s next hb hs => hb.read_clean hs) hfound hstart hb
  split at h
  · exact hclean.whole_clean h
  · cases h

structure Assembly.Clean (a : Assembly) : Prop where
  body : ∀ s ∈ a.body, s.Clean
  outer : ∀ entry ∈ a.outer, (∀ s ∈ entry.1, s.Clean) ∧ entry.2.Clean

namespace Assembly

variable {a next : Assembly}

theorem Clean.add_clean (ha : a.Clean) {s : Statement} (hs : s.Clean) : (a.add s).Clean :=
  ⟨List.forall_mem_append.mpr ⟨ha.body, List.forall_mem_singleton.mpr hs⟩, ha.outer⟩

theorem Clean.readBlock_clean (ha : a.Clean) {found : List Symbol} (hfound : ∀ s ∈ found, s.Clean)
    (h : a.readBlock found = some next) : next.Clean := by
  unfold readBlock at h
  split at h
  · rename_i verb rest
    rw [List.forall_mem_cons] at hfound
    split at h
    · split at h
      · rename_i n value
        split at h
        · cases h
        · obtain ⟨e, he, rfl⟩ := Option.map_eq_some_iff.mp h
          have hvalue : ∀ s ∈ value, s.Clean := fun s hs => hfound.2 s (by simp [hs])
          exact ha.add_clean (.assign n (expression_clean hvalue he))
      · cases h
    · split at h
      · obtain ⟨condition, hcondition, rfl⟩ := Option.map_eq_some_iff.mp h
        exact ⟨nofun, List.forall_mem_cons.mpr
          ⟨⟨ha.body, expression_clean hfound.2 hcondition⟩, ha.outer⟩⟩
      · split at h
        · split at h
          · rename_i before condition outer houter
            cases h
            have hall := houter ▸ ha.outer
            rw [List.forall_mem_cons] at hall
            obtain ⟨⟨hbefore, hcondition⟩, hrest⟩ := hall
            exact ⟨List.forall_mem_append.mpr ⟨hbefore, List.forall_mem_singleton.mpr
              (.branch hcondition ha.body)⟩, hrest⟩
          · cases h
        · cases h
  · cases h

theorem Clean.read_clean (ha : a.Clean) {c : Chunk} (hc : c.Plain) (h : a.read c = some next) :
    next.Clean := by
  unfold read at h
  split at h
  · cases h
    exact ha
  · cases h
    exact ha.add_clean (.text (Text.unbroken_ofChars _))
  · obtain ⟨found, hfound, h⟩ := Option.bind_eq_some_iff.mp h
    obtain ⟨e, he, h⟩ := Option.bind_eq_some_iff.mp h
    cases h
    exact ha.add_clean (.print (expression_clean (symbols_clean hc hfound) he))
  · obtain ⟨found, hfound, h⟩ := Option.bind_eq_some_iff.mp h
    exact ha.readBlock_clean (symbols_clean hc hfound) h

end Assembly

/-- A template that spells nothing holds no text but its own. -/
theorem program?_clean {source : List Char} (hsource : IsPlain source) {program : List Statement}
    (h : program? source = some program) : ∀ s ∈ program, s.Clean := by
  obtain ⟨chunks, hscan, h⟩ := Option.bind_eq_some_iff.mp h
  obtain ⟨a, ha, h⟩ := Option.bind_eq_some_iff.mp h
  have hmode : (Mode.text true []).Plain := trivial
  have hchunks : ∀ chunk ∈ chunks, chunk.Plain :=
    scan_plain hmode (dropLastBreak_plain (normalLines_plain hsource)) hscan
  have hstart : Assembly.Clean {} := ⟨by simp, by simp⟩
  have hclean : a.Clean := foldlM_induction (f := Assembly.read)
    (fun a c next ha hc => ha.read_clean hc) hchunks hstart ha
  split at h
  · cases h
    exact hclean.body
  · cases h

/-! ### Running -/

def Object.Clean : Object → Prop
  | .value v => v.Clean
  | .wrapped y => y.Clean
  | _ => True

namespace Object

variable {o next : Object}

theorem Clean.field_clean (ho : o.Clean) {n : Text} (h : o.field n = .ok next) : next.Clean := by
  cases o with
  | document =>
    cases h
    cases methodOf? n <;> trivial
  | wrapped y =>
    cases h
    split
    · trivial
    · split
      · exact ho
      · trivial
  | enumeration e =>
    cases h
    cases (e.names.find? fun name : String => n == name).bind (Member.ofName? e) with
    | none => trivial
    | some m => exact Value.clean_member m
  | _ => cases h

theorem ofAnswer_clean {answer : Answer} (h : answer.Clean) : (ofAnswer answer).Clean := by
  cases answer with
  | outcome o =>
    cases o with
    | same => trivial
    | endingY y => exact h
  | result v => exact h

theorem values_clean {given : List Object} (hgiven : ∀ o ∈ given, o.Clean) {values : List Value}
    (h : given.mapM value? = some values) : ∀ v ∈ values, v.Clean := by
  induction given generalizing values with
  | nil =>
    cases h
    nofun
  | cons o rest ih =>
    rw [List.forall_mem_cons] at hgiven
    rw [List.mapM_cons] at h
    obtain ⟨v, hv, h⟩ := Option.bind_eq_some_iff.mp h
    obtain ⟨others, hothers, h⟩ := Option.bind_eq_some_iff.mp h
    cases h
    have hclean : v.Clean := by
      cases o with
      | value w =>
        cases hv
        exact hgiven.1
      | _ => cases hv
    exact List.forall_mem_cons.mpr ⟨hclean, ih hgiven.2 hothers⟩

theorem call_clean {given : List Object} (hgiven : ∀ o ∈ given, o.Clean) {d after : Document}
    (hd : d.Clean) (h : o.call given d = .ok (next, after)) : next.Clean ∧ after.Clean := by
  unfold call at h
  split at h
  · rename_i m values hvalues
    have hnamed : ∀ f ∈ ([] : Fields), f.2.Clean := nofun
    obtain ⟨hdocument, hanswer⟩ := hd.call_clean (m := m) (values_clean hgiven hvalues) hnamed
    obtain ⟨answer, ha, h⟩ := exists_of_map_eq_ok h
    cases h
    exact ⟨ofAnswer_clean (hanswer answer ha), hdocument⟩
  · cases h

theorem Clean.text_unbroken (ho : o.Clean) {d : Document} (hd : d.Clean) {s : Text}
    (h : o.text d = .ok s) : Unbroken s := by
  cases o with
  | undefined =>
    cases h
    exact Text.unbroken_nil
  | value v => exact Value.toText_unbroken ho h
  | document => exact hd.render_unbroken h
  | _ => cases h

end Object

section Evaluation

variable {scope : Text → Object}

/-- The expression takes clean labels to clean objects and clean labels. -/
def KeepsClean (scope : Text → Object) (e : Expression) : Prop :=
  ∀ d o next, d.Clean → evaluate scope e d = .ok (o, next) → o.Clean ∧ next.Clean

theorem evaluateAll_clean {es : List Expression} (hes : ∀ e ∈ es, KeepsClean scope e)
    {d next : Document} (hd : d.Clean) {found : List Object}
    (h : evaluateAll scope es d = .ok (found, next)) :
    (∀ o ∈ found, o.Clean) ∧ next.Clean := by
  induction es generalizing d found with
  | nil =>
    rw [evaluateAll] at h
    cases h
    exact ⟨nofun, hd⟩
  | cons e rest ih =>
    rw [List.forall_mem_cons] at hes
    rw [evaluateAll] at h
    obtain ⟨⟨o, middle⟩, he, h⟩ := exists_of_bind_eq_ok h
    obtain ⟨⟨others, after⟩, hrest, h⟩ := exists_of_bind_eq_ok h
    cases h
    obtain ⟨ho, hmiddle⟩ := hes.1 d o middle hd he
    obtain ⟨hothers, hafter⟩ := ih hes.2 hmiddle hrest
    exact ⟨List.forall_mem_cons.mpr ⟨ho, hothers⟩, hafter⟩

theorem evaluate_clean (hscope : ∀ n, (scope n).Clean) {e : Expression} (he : e.Clean) :
    KeepsClean scope e := by
  induction he with
  | name n =>
    intro d o next hd h
    rw [evaluate] at h
    cases h
    exact ⟨hscope n, hd⟩
  | constant hv =>
    intro d o next hd h
    rw [evaluate] at h
    cases h
    exact ⟨hv, hd⟩
  | field he n ih =>
    intro d o next hd h
    rw [evaluate] at h
    obtain ⟨⟨inner, middle⟩, hinner, h⟩ := exists_of_bind_eq_ok h
    obtain ⟨result, hresult, h⟩ := exists_of_bind_eq_ok h
    cases h
    obtain ⟨hclean, hmiddle⟩ := ih d inner next hd hinner
    exact ⟨hclean.field_clean hresult, hmiddle⟩
  | call hfunction harguments ih iharguments =>
    intro d o next hd h
    rw [evaluate] at h
    obtain ⟨⟨function, middle⟩, hf, h⟩ := exists_of_bind_eq_ok h
    obtain ⟨⟨given, after⟩, hgiven, h⟩ := exists_of_bind_eq_ok h
    obtain ⟨-, hmiddle⟩ := ih d function middle hd hf
    obtain ⟨hclean, hafter⟩ := evaluateAll_clean iharguments hmiddle hgiven
    exact Object.call_clean hclean hafter h
  | either hfirst hsecond ih ih' =>
    intro d o next hd h
    rw [evaluate] at h
    obtain ⟨⟨first, middle⟩, hf, h⟩ := exists_of_bind_eq_ok h
    obtain ⟨hclean, hmiddle⟩ := ih d first middle hd hf
    dsimp only at h
    split at h
    · cases h
      exact ⟨hclean, hmiddle⟩
    · exact ih' middle o next hmiddle h

end Evaluation

theorem globals_clean : ∀ entry ∈ globals, entry.2.Clean := by
  rw [globals, List.forall_mem_cons]
  refine ⟨trivial, fun entry hentry => ?_⟩
  obtain ⟨e, -, rfl⟩ := List.mem_map.mp hentry
  trivial

theorem given_clean {context : Context} (hcontext : ∀ f ∈ context, f.2.Clean) (n : Text) :
    (given context n).Clean := by
  unfold given
  split
  · rename_i o ho
    exact globals_clean (n, o) (mem_of_lookup_eq_some ho)
  · cases hget : context.get? n with
    | none => trivial
    | some v => exact hcontext (n, v) (Fields.mem_of_get? hget)

structure Progress.Clean (p : Progress) : Prop where
  document : p.document.Clean
  assigned : ∀ entry ∈ p.assigned, entry.2.Clean
  output : Unbroken p.output

namespace Progress

variable {p q : Progress} {context : Context}

theorem Clean.scope_clean (hp : p.Clean) (hcontext : ∀ f ∈ context, f.2.Clean) (n : Text) :
    (p.scope context n).Clean := by
  unfold scope
  cases hlookup : p.assigned.lookup n with
  | none => exact given_clean hcontext n
  | some o => exact hp.assigned (n, o) (mem_of_lookup_eq_some hlookup)

theorem Clean.withDocument (hp : p.Clean) {d : Document} (hd : d.Clean) :
    Clean { p with document := d } :=
  ⟨hd, hp.assigned, hp.output⟩

end Progress

section Execution

variable {context : Context}

/-- The statement takes clean progress to clean progress. -/
def Keeps (context : Context) (s : Statement) : Prop :=
  ∀ p q, p.Clean → execute context s p = .ok q → q.Clean

theorem executeAll_clean {program : List Statement} (h : ∀ s ∈ program, Keeps context s)
    {p q : Progress} (hp : p.Clean) (hq : executeAll context program p = .ok q) : q.Clean := by
  induction program generalizing p with
  | nil =>
    rw [executeAll] at hq
    cases hq
    exact hp
  | cons s rest ih =>
    rw [List.forall_mem_cons] at h
    rw [executeAll] at hq
    obtain ⟨middle, hmiddle, hq⟩ := exists_of_bind_eq_ok hq
    exact ih h.2 (h.1 p middle hp hmiddle) hq

theorem execute_clean (hcontext : ∀ f ∈ context, f.2.Clean) {s : Statement} (hs : s.Clean) :
    Keeps context s := by
  induction hs with
  | text hs =>
    intro p q hp h
    rw [execute] at h
    cases h
    exact ⟨hp.document, hp.assigned, hp.output.append hs⟩
  | print he =>
    intro p q hp h
    rw [execute] at h
    obtain ⟨⟨o, d⟩, hevaluate, h⟩ := exists_of_bind_eq_ok h
    obtain ⟨text, htext, h⟩ := exists_of_bind_eq_ok h
    cases h
    obtain ⟨ho, hd⟩ := evaluate_clean (hp.scope_clean hcontext) he _ _ _ hp.document hevaluate
    exact ⟨hd, hp.assigned, hp.output.append (ho.text_unbroken hd htext)⟩
  | assign n he =>
    intro p q hp h
    rw [execute] at h
    obtain ⟨⟨o, d⟩, hevaluate, h⟩ := exists_of_bind_eq_ok h
    cases h
    obtain ⟨ho, hd⟩ := evaluate_clean (hp.scope_clean hcontext) he _ _ _ hp.document hevaluate
    exact ⟨hd, List.forall_mem_cons.mpr ⟨ho, hp.assigned⟩, hp.output⟩
  | branch hcondition hbody ih =>
    intro p q hp h
    rw [execute] at h
    obtain ⟨⟨o, d⟩, hevaluate, h⟩ := exists_of_bind_eq_ok h
    obtain ⟨-, hd⟩ :=
      evaluate_clean (hp.scope_clean hcontext) hcondition _ _ _ hp.document hevaluate
    dsimp only at h
    split at h
    · exact executeAll_clean ih (hp.withDocument hd) h
    · cases h
      exact hp.withDocument hd

end Execution

/-- A template that spells nothing gives a text with a form in octets if no value of its context
is a text without one. -/
theorem render_unbroken {t : Storage.Tree} {dir : Storage.Path} {name : String}
    (hplain : ∀ text, find? t dir name = some text → IsPlain text.toList) {config : Config}
    {context : Context} (hwidth : config.maxWidth.Clean) (hcontext : ∀ f ∈ context, f.2.Clean)
    {s : Text} (h : render t dir name config context = .ok s) : Unbroken s := by
  unfold render at h
  split at h
  · cases h
  · rename_i source hsource
    split at h
    · rename_i result hresult
      cases h
      unfold renderText at hresult
      split at hresult
      · rename_i program hprogram
        obtain ⟨last, hlast, rfl⟩ := exists_of_map_eq_ok hresult
        have hstart : Progress.Clean { document := ⟨config, []⟩ } :=
          ⟨⟨hwidth, by simp⟩, by simp, Text.unbroken_nil⟩
        have hprogram := program?_clean (hplain source hsource) hprogram
        have hclean := executeAll_clean (fun s hs => execute_clean hcontext (hprogram s hs))
          hstart hlast
        exact hclean.output
      · cases hresult
    · cases h

/-- A failure of this engine is told in a text with a form in octets. -/
theorem render_told {t : Storage.Tree} {dir : Storage.Path} {name : String} {config : Config}
    {context : Context} {e : RenderError} (h : render t dir name config context = .error e) :
    Unbroken e.message ∧ Unbroken e.trace := by
  unfold render at h
  split at h
  · cases h
    exact ⟨Text.unbroken_nil, Text.unbroken_nil⟩
  · split at h
    · cases h
    · cases h
      exact ⟨Fault.message_unbroken _, Fault.message_unbroken _⟩

end ThermalLabel.Template
