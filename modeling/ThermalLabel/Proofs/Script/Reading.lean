import ThermalLabel.Proofs.Script.Refusal

/-!
# Reading steps

Reading a step either gives the call that the step stands for or refuses the step, and which of
the two happens is decided by `AdmittedStep` alone.
-/
namespace ThermalLabel.Script

/-- `read` is `given` with the choices among the fields read. -/
structure ChoicesRead (fs : List Field) (given read : Fields) : Prop where
  names : read.map (·.1) = given.map (·.1)
  fields : ∀ f ∈ fs, read.get? f.parameter.name =
    (given.get? f.parameter.name).map (settle f.type)
  others : ∀ name : Text, (∀ f ∈ fs, name ≠ Text.ofString f.parameter.name) →
    read.get? name = given.get? name

theorem name_ne_of_nodup {f : Field} {rest : List Field}
    (h : ((f :: rest).map (·.parameter)).Nodup) {g : Field} (hg : g ∈ rest) :
    Text.ofString g.parameter.name ≠ Text.ofString f.parameter.name := by
  rw [Ne, Text.ofString_inj, Parameter.name_inj]
  intro heq
  have hmem : g.parameter ∈ rest.map (·.parameter) := List.mem_map_of_mem hg
  rw [heq] at hmem
  exact (List.nodup_cons.mp h).1 hmem

/-- How reading the choices ends: all of them are read, or the given value is refused. -/
def ReadsChoices (fs : List Field) (given : Fields) (shown : Option Value) (r : Checked Fields) :
    Prop :=
  match shown with
  | none => ∃ read, r = .ok read ∧ ChoicesRead fs given read
  | some v => Refused (some v) r

section ReadingChoices

variable {f : Field} {rest : List Field} {given : Fields} {shown : Option Value}
  {r : Checked Fields}

/-- A field that is absent or no choice changes nothing. -/
theorem ReadsChoices.cons_of_settled (hnodup : ((f :: rest).map (·.parameter)).Nodup)
    (hf : (given.get? f.parameter.name).map (settle f.type) = given.get? f.parameter.name)
    (h : ReadsChoices rest given shown r) : ReadsChoices (f :: rest) given shown r := by
  cases shown with
  | some v => exact h
  | none =>
    obtain ⟨read, hread, hc⟩ := h
    refine ⟨read, hread, hc.names, ?_, fun name hname =>
      hc.others name fun g hg => hname g (List.mem_cons_of_mem _ hg)⟩
    intro g hg
    rcases List.mem_cons.mp hg with rfl | hg
    · rw [hf]
      exact hc.others _ fun g hg => (name_ne_of_nodup hnodup hg).symm
    · exact hc.fields g hg

/-- The fields after a choice do not notice that the choice was read. -/
theorem ReadsChoices.cons_of_chosen {v : Value} (hnodup : ((f :: rest).map (·.parameter)).Nodup)
    (hget : given.get? f.parameter.name = some v)
    (h : ReadsChoices rest (given.map fun entry =>
      if f.parameter.isNamed entry.1 then (entry.1, settle f.type v) else entry) shown r) :
    ReadsChoices (f :: rest) given shown r := by
  have hmap (name : Text) := Fields.get?_map_named f.parameter (fun _ => settle f.type v) given name
  cases shown with
  | some v => exact h
  | none =>
    obtain ⟨read, hread, hc⟩ := h
    refine ⟨read, hread, ?_, ?_, ?_⟩
    · rw [hc.names, List.map_map]
      refine List.map_congr_left fun entry _ => ?_
      dsimp only [Function.comp]
      split <;> rfl
    · intro g hg
      rcases List.mem_cons.mp hg with rfl | hg
      · rw [hc.others _ fun g hg => (name_ne_of_nodup hnodup hg).symm, hmap, hget]
        simp
      · rw [hc.fields g hg, hmap, if_neg]
        rw [Parameter.isNamed_iff]
        exact name_ne_of_nodup hnodup hg
    · intro name hname
      rw [hc.others name fun g hg => hname g (List.mem_cons_of_mem _ hg), hmap, if_neg]
      simpa using hname f List.mem_cons_self

/-- A choice that was read does not matter to the fields after it. -/
theorem firstInadmissible?_of_chosen {v : Value}
    (hnodup : ((f :: rest).map (·.parameter)).Nodup) :
    firstInadmissible? (given.map fun entry =>
      if f.parameter.isNamed entry.1 then (entry.1, v) else entry) (choices rest) =
      firstInadmissible? given (choices rest) := by
  refine firstInadmissible?_congr fun g hg => ?_
  rw [Fields.get?_map_named f.parameter (fun _ => v), if_neg]
  rw [Parameter.isNamed_iff]
  exact name_ne_of_nodup hnodup (List.mem_filter.mp hg).1

theorem settle_of_not_choice {t : FieldType} (h : isChoice t = false) (v : Value) :
    settle t v = v := by
  cases t <;> simp_all [isChoice, settle]

theorem exists_choice {t : FieldType} (h : isChoice t = true) : ∃ e, t = .choice e := by
  cases t <;> simp_all [isChoice]

end ReadingChoices

/-- Reading the choices among the fields stops at the first one that names no member. -/
theorem readChoices_spec {fs : List Field} (hnodup : (fs.map (·.parameter)).Nodup)
    (given : Fields) :
    ReadsChoices fs given (firstInadmissible? given (choices fs)) (readChoices fs given) := by
  induction fs generalizing given with
  | nil => exact ⟨given, rfl, rfl, by simp, fun _ _ => rfl⟩
  | cons f rest ih =>
    have hrest := (List.nodup_cons.mp hnodup).2
    rw [readChoices]
    cases hchoice : isChoice f.type with
    | false =>
      rw [choices, List.filter_cons_of_neg (by simp [hchoice]), ← choices]
      have hih := (ih hrest given).cons_of_settled hnodup
        (by cases given.get? f.parameter.name <;> simp [settle_of_not_choice hchoice])
      split
      · rename_i e v ht _
        simp [ht, isChoice] at hchoice
      · exact hih
    | true =>
      obtain ⟨e, ht⟩ := exists_choice hchoice
      rw [choices, List.filter_cons_of_pos (by simp [hchoice]), ← choices, firstInadmissible?]
      cases hget : given.get? f.parameter.name with
      | none =>
        rw [ht, inadmissible?, hget, Option.filter_none, Option.none_or]
        exact (ih hrest given).cons_of_settled hnodup (by simp [hget])
      | some v =>
        cases hv : admits f.type v with
        | false =>
          rw [inadmissible?_of_not_admits hget hv, Option.some_or, ht]
          rw [ht] at hv
          have hrefused : Refused (some v) (choose e v) := ⟨_, choose_of_not_admits hv⟩
          exact hrefused.bind _
        | true =>
          rw [inadmissible?_of_admits hget hv, Option.none_or, ht]
          obtain ⟨chosen, n, hc, -⟩ := choose_of_admits (ht ▸ hv)
          have hih := ih hrest (given.map fun entry =>
            if f.parameter.isNamed entry.1 then (entry.1, chosen) else entry)
          rw [firstInadmissible?_of_chosen hnodup] at hih
          have hchosen : chosen = settle f.type v := by simp [settle, ht, hc]
          subst hchosen
          simp only [hc, Bind.bind, Except.bind]
          exact hih.cons_of_chosen hnodup hget

/-- Beyond the choices, a field is checked as a script may give it. -/
theorem accepts_settle {t : FieldType} {v : Value} (h : isChoice t = true → admits t v = true) :
    accepts t (settle t v) = admits t v := by
  cases t with
  | choice e => rw [h rfl, accepts]
  | integer => exact isInteger_eq v
  | number => cases v <;> rfl
  | _ => cases v <;> rfl

theorem checkTypes_spec {fs : List Field} (index : Nat) (op : Operation) {given read : Fields}
    (hread : ∀ f ∈ fs, read.get? f.parameter.name =
      (given.get? f.parameter.name).map (settle f.type))
    (hchoices : firstInadmissible? given (choices fs) = none) :
    match firstInadmissible? given fs with
    | none => checkTypes index op read fs = .ok ()
    | some v => Refused (some v) (checkTypes index op read fs) := by
  rw [firstInadmissible?_eq_none] at hchoices
  induction fs with
  | nil => rfl
  | cons f rest ih =>
    have hih := ih (fun g hg => hread g (List.mem_cons_of_mem _ hg)) fun g hg =>
      hchoices g (List.mem_filter.mpr
        ⟨List.mem_cons_of_mem _ (List.mem_filter.mp hg).1, (List.mem_filter.mp hg).2⟩)
    rw [checkTypes, firstInadmissible?, hread f List.mem_cons_self]
    cases hget : given.get? f.parameter.name with
    | none =>
      rw [inadmissible?, hget, Option.filter_none, Option.none_or]
      exact hih
    | some v =>
      have haccepts : accepts f.type (settle f.type v) = admits f.type v :=
        accepts_settle fun hc => hchoices f (List.mem_filter.mpr ⟨List.mem_cons_self, hc⟩) v hget
      simp only [Option.map_some, haccepts]
      cases hv : admits f.type v with
      | true =>
        rw [inadmissible?_of_admits hget hv, Option.none_or, if_pos rfl]
        exact hih
      | false =>
        have hnot : isChoice f.type = false := by
          rw [← Bool.not_eq_true]
          intro hc
          have hadmits := hchoices f (List.mem_filter.mpr ⟨List.mem_cons_self, hc⟩) v hget
          simp [hv] at hadmits
        rw [inadmissible?_of_not_admits hget hv, Option.some_or, if_neg (by simp),
          settle_of_not_choice hnot]
        exact ⟨_, rfl⟩

/-- The given fields, without the entry that names the operation. -/
def givenFields (fields : Fields) : Fields :=
  fields.filter fun entry => entry.1 ≠ Text.ofString "op"

theorem get?_givenFields (fields : Fields) (p : Parameter) :
    (givenFields fields).get? p.name = fields.get? p.name :=
  Fields.get?_filter_ne fields p.name_ne_op

theorem namesMatch_iff {op : Operation} {fields : Fields} :
    NamesMatch op fields ↔
      (∀ f ∈ op.fields, f.required = true → (fields.get? f.parameter.name).isSome = true) ∧
        ∀ entry ∈ givenFields fields, ∃ f ∈ op.fields, entry.1 = Text.ofString f.parameter.name := by
  refine and_congr_right fun _ => ⟨fun h entry hentry => ?_, fun h entry hentry => ?_⟩
  · obtain ⟨hmem, hop⟩ := List.mem_filter.mp hentry
    exact (h entry hmem).resolve_left (of_decide_eq_true hop)
  · by_cases hop : entry.1 = Text.ofString "op"
    · exact Or.inl hop
    · exact Or.inr (h entry (List.mem_filter.mpr ⟨hentry, decide_eq_true hop⟩))

theorem valueFrom_isNone {f : Field} {given : Fields} :
    (f.valueFrom given).isNone = false ↔
      (f.required = true → (given.get? f.parameter.name).isSome = true) := by
  rw [Field.valueFrom, Field.required]
  cases given.get? f.parameter.name <;> cases f.default? <;> simp

theorem checkNames_eq_ok_iff {index : Nat} {op : Operation} {read : Fields} :
    checkNames index op read = .ok () ↔
      (∀ f ∈ op.fields, (f.valueFrom read).isNone = false) ∧
        ∀ entry ∈ read, ∃ f ∈ op.fields, f.parameter.isNamed entry.1 = true := by
  unfold checkNames
  split
  · rename_i f hf
    have hmem := List.mem_of_find?_eq_some hf
    obtain ⟨hnone, -⟩ := List.find?_eq_some_iff_append.mp hf
    refine iff_of_false (fun h => by cases h) fun h => ?_
    simp [h.1 f hmem] at hnone
  · rename_i hcomplete
    rw [List.find?_eq_none] at hcomplete
    have hall : ∀ f ∈ op.fields, (f.valueFrom read).isNone = false := fun f hf =>
      Bool.eq_false_iff.mpr (hcomplete f hf)
    split
    · rename_i name v hentry
      have hmem := List.mem_of_find?_eq_some hentry
      obtain ⟨hunknown, -⟩ := List.find?_eq_some_iff_append.mp hentry
      refine iff_of_false (fun h => by cases h) fun h => ?_
      rw [List.any_eq_true.mpr (h.2 _ hmem)] at hunknown
      exact absurd hunknown (by decide)
    · rename_i hknown
      rw [List.find?_eq_none] at hknown
      refine iff_of_true rfl ⟨hall, fun entry hentry => ?_⟩
      have hany := hknown entry hentry
      rw [Bool.not_eq_true, Bool.not_eq_false'] at hany
      exact List.any_eq_true.mp hany

theorem checkNames_eq_ok_or_refused (index : Nat) (op : Operation) (read : Fields) :
    checkNames index op read = .ok () ∨ Refused none (checkNames index op read) := by
  unfold checkNames
  split
  · exact Or.inr ⟨_, rfl⟩
  · split
    · exact Or.inr ⟨_, rfl⟩
    · exact Or.inl rfl

/-- Reading the choices does not touch the names. -/
theorem checkNames_spec (index : Nat) {op : Operation} {fields read : Fields}
    (hread : ChoicesRead op.fields (givenFields fields) read) :
    if NamesMatch op fields then checkNames index op read = .ok ()
    else Refused none (checkNames index op read) := by
  have hget (f : Field) (hf : f ∈ op.fields) : (read.get? f.parameter.name).isSome =
      (fields.get? f.parameter.name).isSome := by
    rw [hread.fields f hf, Option.isSome_map, get?_givenFields]
  have hnames (P : Text → Prop) :
      (∀ entry ∈ read, P entry.1) ↔ ∀ entry ∈ givenFields fields, P entry.1 := by
    have hmap := congrArg (fun names => ∀ name ∈ names, P name) hread.names
    simpa using hmap
  have hiff : checkNames index op read = .ok () ↔ NamesMatch op fields := by
    rw [checkNames_eq_ok_iff, namesMatch_iff,
      hnames fun name => ∃ f ∈ op.fields, f.parameter.isNamed name = true]
    simp only [Parameter.isNamed_iff]
    refine and_congr_left' (forall₂_congr fun f hf => ?_)
    rw [valueFrom_isNone, hget f hf]
  split
  · exact hiff.mpr ‹_›
  · exact (checkNames_eq_ok_or_refused index op read).resolve_left (mt hiff.mp ‹_›)

theorem firstInadmissible?_givenFields (fs : List Field) (fields : Fields) :
    firstInadmissible? (givenFields fields) fs = firstInadmissible? fields fs :=
  firstInadmissible?_congr fun f _ => get?_givenFields fields f.parameter

theorem lookup_byName {fs : List Field} (hnodup : (fs.map (·.parameter)).Nodup)
    (read : Fields) (p : Parameter) :
    (byName read fs).lookup p = (fs.find? (·.parameter == p)).bind (Field.valueFrom read) := by
  induction fs with
  | nil => rfl
  | cons f rest ih =>
    rw [List.map_cons, List.nodup_cons] at hnodup
    have hih := ih hnodup.2
    unfold byName at hih ⊢
    by_cases hp : f.parameter = p
    · subst hp
      cases hv : f.valueFrom read with
      | some v => simp [hv]
      | none =>
        have habsent : rest.find? (·.parameter == f.parameter) = none := by
          rw [List.find?_eq_none]
          intro g hg heq
          have hmem : g.parameter ∈ rest.map (·.parameter) := List.mem_map_of_mem hg
          exact hnodup.1 (beq_iff_eq.mp heq ▸ hmem)
        simp [hv, hih, habsent]
    · have hne : p ≠ f.parameter := Ne.symm hp
      cases hv : f.valueFrom read with
      | none => simp [hv, hih, hp]
      | some v => simp [hv, hih, hp, List.lookup_cons, beq_false_of_ne hne]

/-- The arguments of a step whose choices have been read. -/
theorem ofList_byName {op : Operation} {fields read : Fields}
    (hread : ChoicesRead op.fields (givenFields fields) read) :
    Arguments.ofList (byName read op.fields) = argumentsOf op fields := by
  funext p
  rw [Arguments.ofList, lookup_byName op.parameters_nodup, argumentsOf]
  cases hfind : op.fields.find? (·.parameter == p) with
  | none => rfl
  | some f =>
    have hf := List.mem_of_find?_eq_some hfind
    simp only [Option.bind_some, Field.valueFrom, hread.fields f hf, get?_givenFields]

theorem admitted_iff {op : Operation} {fields : Fields} :
    Admitted op fields ↔ NamesMatch op fields ∧ firstInadmissible? fields op.fields = none := by
  rw [firstInadmissible?_eq_none]
  exact ⟨fun h => ⟨⟨h.complete, h.known⟩, h.typed⟩, fun h => ⟨h.1.1, h.1.2, h.2⟩⟩

theorem firstInadmissible?_choices {fs : List Field} {fields : Fields}
    (h : firstInadmissible? fields fs = none) : firstInadmissible? fields (choices fs) = none := by
  rw [firstInadmissible?_eq_none] at h ⊢
  exact fun f hf => h f (List.mem_filter.mp hf).1

/-- How the fields of a step are bound: to the arguments that they give, or not at all. -/
theorem bindStep_spec (index : Nat) (op : Operation) (fields : Fields) :
    if Admitted op fields then
      bindStep index op (givenFields fields) = .ok ⟨op, argumentsOf op fields⟩
    else Refused (refused? op fields) (bindStep index op (givenFields fields)) := by
  have hchoices := readChoices_spec op.parameters_nodup (givenFields fields)
  rw [firstInadmissible?_givenFields] at hchoices
  rw [bindStep]
  cases hshown : firstInadmissible? fields (choices op.fields) with
  | some v =>
    rw [hshown] at hchoices
    rw [if_neg, refused?, hshown, Option.some_or]
    · have hrefused : Refused (some v) (readChoices op.fields (givenFields fields)) := hchoices
      exact hrefused.bind _
    · intro h
      have hnone := firstInadmissible?_choices (admitted_iff.mp h).2
      simp [hshown] at hnone
  | none =>
    rw [hshown] at hchoices
    obtain ⟨read, hok, hread⟩ := hchoices
    rw [hok, refused?, hshown, Option.none_or]
    have hnames := checkNames_spec index hread
    have htypes := checkTypes_spec index op hread.fields
      (by rw [firstInadmissible?_givenFields, hshown])
    rw [firstInadmissible?_givenFields] at htypes
    simp only [admitted_iff]
    by_cases hmatch : NamesMatch op fields
    · rw [if_pos hmatch] at hnames
      rw [if_pos hmatch, ← ofList_byName hread]
      simp only [hmatch, true_and, Bind.bind, Except.bind, hnames]
      cases hfirst : firstInadmissible? fields op.fields with
      | none =>
        rw [hfirst] at htypes
        rw [if_pos rfl, htypes]
        rfl
      | some v =>
        rw [hfirst] at htypes
        rw [if_neg (by simp)]
        exact Refused.bind htypes _
    · rw [if_neg hmatch] at hnames
      rw [if_neg hmatch, if_neg (fun h => hmatch h.1)]
      exact Refused.bind hnames _

theorem operationOf_spec (index : Nat) (fields : Fields) :
    match operation? fields with
    | some op => operationOf index fields = .ok op
    | none => Refused (some ((fields.get? "op").getD .null)) (operationOf index fields) := by
  unfold operation? operationOf
  cases hop : fields.get? "op" with
  | none => exact ⟨_, rfl⟩
  | some v =>
    cases v with
    | text name =>
      dsimp only [Option.getD_some]
      cases Operation.ofName? name with
      | none => exact ⟨_, rfl⟩
      | some op => rfl
    | _ => exact ⟨_, rfl⟩

/-- An admitted step is read as the call that it stands for. -/
theorem readStep_of_callOf? (index : Nat) {step : Value} {call : Call}
    (h : callOf? step = some call) : readStep index step = .ok call := by
  obtain ⟨fields, op, rfl, hop, ha, rfl⟩ := callOf?_eq_some_iff.mp h
  have hoperation := operationOf_spec index fields
  have hbind := bindStep_spec index op fields
  rw [hop] at hoperation
  rw [if_pos ha] at hbind
  rw [readStep, hoperation]
  exact hbind

/-- Every other step is refused. -/
theorem readStep_of_not_admitted (index : Nat) {step : Value} (h : callOf? step = none) :
    Refused (shown? step) (readStep index step) := by
  cases step with
  | object fields =>
    have hoperation := operationOf_spec index fields
    rw [readStep, shown?]
    cases hop : operation? fields with
    | none =>
      rw [hop] at hoperation
      exact Refused.bind hoperation _
    | some op =>
      have hbind := bindStep_spec index op fields
      have hnot : ¬ Admitted op fields := by
        intro ha
        simp [callOf?, hop, ha] at h
      rw [if_neg hnot] at hbind
      rw [hop] at hoperation
      rw [hoperation]
      exact hbind
  | _ => exact ⟨_, rfl⟩

theorem readStep_eq_ok_iff {index : Nat} {step : Value} {call : Call} :
    readStep index step = .ok call ↔ callOf? step = some call := by
  refine ⟨fun hread => ?_, readStep_of_callOf? index⟩
  cases h : callOf? step with
  | none =>
    obtain ⟨failure, hfailure⟩ := (readStep_of_not_admitted index h).isError
    rw [hfailure] at hread
    cases hread
  | some other =>
    rw [readStep_of_callOf? index h] at hread
    rw [Except.ok.inj hread]

end ThermalLabel.Script
