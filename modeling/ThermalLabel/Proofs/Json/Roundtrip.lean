import ThermalLabel.Proofs.Json.Encodable
import ThermalLabel.Proofs.Json.Leaves

/-!
# Values in JSON, written and read back

Reading inverts writing for the values that JSON has a notation of its own for.  The induction
follows the value; the text behind it must not run on where a number ends, and every level of
lists and objects takes two calls of the reader.
-/
namespace ThermalLabel.Json

/-- Values that are written as what they are: no doubles, decimals or members of enumerations,
integers that can be written, and no key twice in an object. -/
inductive Faithful : Value → Prop
  | null : Faithful .null
  | flag (b : Bool) : Faithful (.flag b)
  | integer {n : Int} (h : Number.writable n = true) : Faithful (.integer n)
  | text (s : Text) : Faithful (.text s)
  | list {items : List Value} (h : ∀ v ∈ items, Faithful v) : Faithful (.list items)
  | object {fields : Fields} (h : ∀ f ∈ fields, Faithful f.2)
      (hkeys : (fields.map (·.1)).Nodup) : Faithful (.object fields)

theorem readValue_leaf {fuel levels : Nat} {c : CodePoint} {s : Text} (hlist : c ≠ '[')
    (hobject : c ≠ '\x7b') :
    readValue (fuel + 1) levels (c :: s) = orMalformed (readLeaf (c :: s)) := by
  rw [readValue]
  · exact fun _ h _ => hlist (List.cons.inj h).1
  · exact fun _ h _ => hobject (List.cons.inj h).1
  · exact fun _ _ h _ => hlist (List.cons.inj h).1
  · exact fun _ _ h _ => hobject (List.cons.inj h).1

/-! ### Lists and objects -/

/-- What a value begins with is no white space and closes nothing. -/
def Opens (s : Text) : Prop :=
  ∃ c rest, s = c :: rest ∧ isSpace c = false ∧ c ≠ ']' ∧ c ≠ '\x7d'

theorem skipSpace_opens {s : Text} (h : Opens s) (rest : Text) :
    skipSpace (s ++ rest) = s ++ rest := by
  obtain ⟨c, tail, rfl, hspace, -, -⟩ := h
  simp [skipSpace, hspace]

/-- A list whose items begin here is read item by item. -/
theorem readValue_list {fuel levels : Nat} {s : Text} (h : Opens s) :
    readValue (fuel + 1) (levels + 1) (.char '[' :: s) =
      (readItems fuel levels s).map fun (items, rest) => (.list items, rest) := by
  have hskip := skipSpace_opens h []
  rw [List.append_nil] at hskip
  obtain ⟨c, tail, rfl, -, hbracket, -⟩ := h
  rw [readValue, hskip]
  split
  · rename_i heq
    exact absurd (List.cons.inj heq).1 hbracket
  · rfl

/-- An object whose fields begin here is read field by field. -/
theorem readValue_object {fuel levels : Nat} {s : Text} (h : Opens s) :
    readValue (fuel + 1) (levels + 1) (.char '\x7b' :: s) =
      (readFields fuel levels [] s).map fun (fields, rest) => (.object fields, rest) := by
  have hskip := skipSpace_opens h []
  rw [List.append_nil] at hskip
  obtain ⟨c, tail, rfl, -, -, hbrace⟩ := h
  rw [readValue, hskip]
  split
  · rename_i heq
    exact absurd (List.cons.inj heq).1 hbrace
  · rfl

theorem skipSpace_ends {s : Text} (h : Ends s) : skipSpace s = s := by
  cases s with
  | nil => rfl
  | cons c s => rcases h c rfl with rfl | rfl | rfl <;> rfl

theorem opens_writeText (s : Text) : Opens (writeText s) :=
  ⟨'"', _, rfl, by decide, by decide, by decide⟩

theorem opens_integer (n : Int) : Opens (write (.integer n)) := by
  obtain ⟨d, ds, hds, hd⟩ := integerText_head n
  have hother := @ne_of_isDigit_or d hd
  refine ⟨.char d, Text.ofChars ds, ?_, ?_, hother rfl (by decide), hother rfl (by decide)⟩
  · rw [write, hds]
    rfl
  · simp only [isSpace, Bool.or_eq_false_iff, beq_eq_false_iff_ne]
    exact ⟨⟨⟨hother rfl (by decide), hother rfl (by decide)⟩, hother rfl (by decide)⟩,
      hother rfl (by decide)⟩

theorem opens_write {v : Value} (hv : Faithful v) : Opens (write v) := by
  cases hv with
  | null => exact ⟨'n', _, rfl, by decide, by decide, by decide⟩
  | flag b =>
    cases b with
    | true => exact ⟨'t', _, rfl, by decide, by decide, by decide⟩
    | false => exact ⟨'f', _, rfl, by decide, by decide, by decide⟩
  | integer h => exact opens_integer _
  | text s => exact opens_writeText s
  | list h => exact ⟨'[', _, rfl, by decide, by decide, by decide⟩
  | object h hkeys => exact ⟨'\x7b', _, rfl, by decide, by decide, by decide⟩

/-- With so many levels, and fuel for its length, the value is read back. -/
def ReadsBack (deepest : Nat) (v : Value) : Prop :=
  ∀ (levels fuel : Nat) (rest : Text), deepest ≤ levels → 2 * (write v).length < fuel →
    Ends rest → readValue fuel levels (write v ++ rest) = .ok (v, rest)

theorem ReadsBack.mono {deepest deeper : Nat} {v : Value} (h : ReadsBack deepest v)
    (hle : deepest ≤ deeper) : ReadsBack deeper v :=
  fun levels fuel rest hlevels hfuel hends =>
    h levels fuel rest (Nat.le_trans hle hlevels) hfuel hends

/-- One number of levels does for all values of a list. -/
theorem exists_readsBack {items : List Value} (h : ∀ v ∈ items, ∃ deepest, ReadsBack deepest v) :
    ∃ deepest, ∀ v ∈ items, ReadsBack deepest v := by
  induction items with
  | nil => exact ⟨0, by simp⟩
  | cons v items ih =>
    obtain ⟨first, hfirst⟩ := h v List.mem_cons_self
    obtain ⟨others, hothers⟩ := ih fun w hw => h w (List.mem_cons_of_mem v hw)
    refine ⟨max first others, ?_⟩
    intro w hw
    rcases List.mem_cons.mp hw with rfl | hw
    · exact hfirst.mono (Nat.le_max_left _ _)
    · exact (hothers w hw).mono (Nat.le_max_right _ _)

theorem Opens.append {s : Text} (h : Opens s) (t : Text) : Opens (s ++ t) := by
  obtain ⟨c, rest, rfl, hspace, hbracket, hbrace⟩ := h
  exact ⟨c, rest ++ t, rfl, hspace, hbracket, hbrace⟩

theorem opens_writeItems {v : Value} (hv : Faithful v) (items : List Value) :
    Opens (writeItems (v :: items)) := by
  cases items with
  | nil => exact opens_write hv
  | cons w items => exact ((opens_write hv).append _).append _

theorem readItems_writeItems {deepest : Nat} {v : Value} {items : List Value}
    (hfaithful : ∀ w ∈ v :: items, Faithful w) (hread : ∀ w ∈ v :: items, ReadsBack deepest w)
    {levels fuel : Nat} (hlevels : deepest ≤ levels)
    (hfuel : 2 * (writeItems (v :: items)).length + 1 < fuel) (rest : Text) :
    readItems fuel levels (writeItems (v :: items) ++ .char ']' :: rest) =
      .ok (v :: items, rest) := by
  obtain ⟨fuel, rfl⟩ : ∃ n, fuel = n + 1 := ⟨fuel - 1, by omega⟩
  induction items generalizing v fuel with
  | nil =>
    have hends : Ends (.char ']' :: rest) := by simp [Ends]
    have hlength : (writeItems [v]).length = (write v).length := rfl
    have hvalue := hread v List.mem_cons_self levels fuel _ hlevels (by omega) hends
    have hskip := skipSpace_ends hends
    simp only [writeItems, readItems, hvalue, hskip, bind, Except.bind]
    rfl
  | cons w items ih =>
    have hlength : (writeItems (v :: w :: items)).length =
        (write v).length + 2 + (writeItems (w :: items)).length := by
      simp only [writeItems, List.length_append]
      rfl
    obtain ⟨fuel, rfl⟩ : ∃ n, fuel = n + 1 := ⟨fuel - 1, by omega⟩
    have hends :
        Ends (.char ',' :: .char ' ' :: (writeItems (w :: items) ++ .char ']' :: rest)) := by
      simp [Ends]
    have hvalue := hread v List.mem_cons_self levels (fuel + 1) _ hlevels (by omega) hends
    have hitems := ih (fun x hx => hfaithful x (List.mem_cons_of_mem v hx))
      (fun x hx => hread x (List.mem_cons_of_mem v hx)) fuel (by omega)
    have hcomma := skipSpace_ends hends
    have hblank : skipSpace (.char ' ' :: (writeItems (w :: items) ++ .char ']' :: rest)) =
        writeItems (w :: items) ++ .char ']' :: rest :=
      skipSpace_opens (opens_writeItems (hfaithful w (by simp)) items) _
    have htext : writeItems (v :: w :: items) ++ .char ']' :: rest =
        write v ++ .char ',' :: .char ' ' :: (writeItems (w :: items) ++ .char ']' :: rest) := by
      simp [writeItems, Text.ofString, Text.ofChars]
    rw [htext, readItems, hvalue]
    simp only [bind, Except.bind, hcomma, hblank, hitems]
    rfl

theorem readKey_writeText (key : Text) {s : Text} (hs : skipSpace s = s) :
    readKey (writeText key ++ .char ':' :: .char ' ' :: s) = some (key, s) := by
  have hchars := readChars_escaped key (.char ':' :: .char ' ' :: s)
  have hblank : skipSpace (.char ' ' :: s) = s := hs
  have hcolon : skipSpace (.char ':' :: .char ' ' :: s) = .char ':' :: .char ' ' :: s := rfl
  simp [writeText, readKey, hchars, hcolon, hblank]

theorem opens_writeFields (f : Text × Value) (fields : Fields) :
    Opens (writeFields (f :: fields)) := by
  cases fields with
  | nil => exact ((opens_writeText f.1).append _).append _
  | cons g fields => exact ((((opens_writeText f.1).append _).append _).append _).append _

theorem set_of_not_mem {done : Fields} {key : Text} (h : key ∉ done.map (·.1)) (v : Value) :
    done.set key v = done ++ [(key, v)] := by
  have hany : done.any (·.1 == key) = false := by
    rw [List.any_eq_false]
    intro f hf heq
    exact h (List.mem_map.mpr ⟨f, hf, beq_iff_eq.mp heq⟩)
  rw [Fields.set, hany]
  rfl

theorem fresh_of_nodup {done fields : Fields} {key : Text} {v : Value}
    (h : ((done ++ (key, v) :: fields).map (·.1)).Nodup) : key ∉ done.map (·.1) := by
  rw [List.map_append, List.map_cons] at h
  intro hmem
  exact (List.nodup_append.mp h).2.2 key hmem key List.mem_cons_self rfl

section Steps

variable {levels fuel : Nat} {done : Fields} {key : Text} {v : Value} {s : Text}

/-- The last field is put behind those that were read. -/
theorem readFields_last (hfresh : key ∉ done.map (·.1)) (hv : Faithful v)
    (hvalue : readValue fuel levels (write v ++ .char '\x7d' :: s) = .ok (v, .char '\x7d' :: s)) :
    readFields (fuel + 1) levels done
        (writeText key ++ .char ':' :: .char ' ' :: (write v ++ .char '\x7d' :: s)) =
      .ok (done ++ [(key, v)], s) := by
  have hkey := readKey_writeText key (skipSpace_opens (opens_write hv) (.char '\x7d' :: s))
  have hends : Ends (.char '\x7d' :: s) := by simp [Ends]
  rw [readFields, hkey]
  simp only [orMalformed, bind, Except.bind, hvalue, skipSpace_ends hends, set_of_not_mem hfresh]
  rfl

/-- So is a field with others behind it, which are read next. -/
theorem readFields_more (hfresh : key ∉ done.map (·.1)) (hv : Faithful v)
    (hblank : skipSpace (.char ' ' :: s) = s)
    (hvalue : readValue fuel levels (write v ++ .char ',' :: .char ' ' :: s) =
      .ok (v, .char ',' :: .char ' ' :: s)) :
    readFields (fuel + 1) levels done
        (writeText key ++ .char ':' :: .char ' ' :: (write v ++ .char ',' :: .char ' ' :: s)) =
      readFields fuel levels (done ++ [(key, v)]) s := by
  have hkey := readKey_writeText key
    (skipSpace_opens (opens_write hv) (.char ',' :: .char ' ' :: s))
  have hends : Ends (.char ',' :: .char ' ' :: s) := by simp [Ends]
  rw [readFields, hkey]
  simp only [orMalformed, bind, Except.bind, hvalue, skipSpace_ends hends, hblank,
    set_of_not_mem hfresh]

end Steps

theorem readFields_writeFields {deepest : Nat} {f : Text × Value} {fields : Fields}
    (hfaithful : ∀ g ∈ f :: fields, Faithful g.2)
    (hread : ∀ g ∈ f :: fields, ReadsBack deepest g.2) {done : Fields}
    (hkeys : ((done ++ f :: fields).map (·.1)).Nodup)
    {levels fuel : Nat} (hlevels : deepest ≤ levels)
    (hfuel : 2 * (writeFields (f :: fields)).length + 1 < fuel) (rest : Text) :
    readFields fuel levels done (writeFields (f :: fields) ++ .char '\x7d' :: rest) =
      .ok (done ++ f :: fields, rest) := by
  obtain ⟨fuel, rfl⟩ : ∃ n, fuel = n + 1 := ⟨fuel - 1, by omega⟩
  induction fields generalizing f fuel done with
  | nil =>
    obtain ⟨key, v⟩ := f
    have hlength : (writeFields [(key, v)]).length =
        (writeText key).length + 2 + (write v).length := by
      simp only [writeFields, List.length_append]
      rfl
    have hends : Ends (.char '\x7d' :: rest) := by simp [Ends]
    have hv : ReadsBack deepest v := hread (key, v) List.mem_cons_self
    have hvalue := hv levels fuel _ hlevels (by omega) hends
    have htext : writeFields [(key, v)] ++ .char '\x7d' :: rest =
        writeText key ++ .char ':' :: .char ' ' :: (write v ++ .char '\x7d' :: rest) := by
      simp [writeFields, Text.ofString, Text.ofChars]
    rw [htext]
    exact readFields_last (fresh_of_nodup hkeys) (hfaithful (key, v) List.mem_cons_self) hvalue
  | cons g fields ih =>
    obtain ⟨key, v⟩ := f
    have hlength : (writeFields ((key, v) :: g :: fields)).length =
        (writeText key).length + 2 + (write v).length + 2 + (writeFields (g :: fields)).length := by
      simp only [writeFields, List.length_append]
      rfl
    obtain ⟨fuel, rfl⟩ : ∃ n, fuel = n + 1 := ⟨fuel - 1, by omega⟩
    have hends :
        Ends (.char ',' :: .char ' ' :: (writeFields (g :: fields) ++ .char '\x7d' :: rest)) := by
      simp [Ends]
    have hv : ReadsBack deepest v := hread (key, v) List.mem_cons_self
    have hvalue := hv levels (fuel + 1) _ hlevels (by omega) hends
    have hblank : skipSpace (.char ' ' :: (writeFields (g :: fields) ++ .char '\x7d' :: rest)) =
        writeFields (g :: fields) ++ .char '\x7d' :: rest :=
      skipSpace_opens (opens_writeFields g fields) _
    have hdone : ((done ++ [(key, v)] ++ g :: fields).map (·.1)).Nodup := by
      simpa using hkeys
    have hrest := ih
      (fun x hx => hfaithful x (List.mem_cons_of_mem _ hx))
      (fun x hx => hread x (List.mem_cons_of_mem _ hx)) hdone fuel (by omega)
    have htext : writeFields ((key, v) :: g :: fields) ++ .char '\x7d' :: rest =
        writeText key ++ .char ':' :: .char ' ' :: (write v ++
          .char ',' :: .char ' ' :: (writeFields (g :: fields) ++ .char '\x7d' :: rest)) := by
      simp [writeFields, Text.ofString, Text.ofChars]
    rw [htext, readFields_more (fresh_of_nodup hkeys) (hfaithful (key, v) List.mem_cons_self)
      hblank hvalue, hrest, List.append_assoc, List.singleton_append]

/-! ### Whole values -/

theorem writable_of_faithful {v : Value} (h : Faithful v) : writable v = true := by
  induction h with
  | integer h => exact h
  | list h ih => exact writableItems_iff.mpr ih
  | object h hkeys ih => exact writableFields_iff.mpr ih
  | _ => rfl

theorem readsBack_of_readLeaf {v : Value} {c : CodePoint} {s : Text} (hwrite : write v = c :: s)
    (hlist : c ≠ '[') (hobject : c ≠ '\x7b')
    (hleaf : ∀ rest, Ends rest → readLeaf (write v ++ rest) = some (v, rest)) :
    ReadsBack 0 v := by
  intro levels fuel rest _ hfuel hends
  obtain ⟨fuel, rfl⟩ : ∃ n, fuel = n + 1 := ⟨fuel - 1, by omega⟩
  have hread := hleaf rest hends
  rw [hwrite, List.cons_append] at hread ⊢
  rw [readValue_leaf hlist hobject, hread]
  rfl

theorem readsBack_list {deepest : Nat} {items : List Value} (h : ∀ v ∈ items, Faithful v)
    (hread : ∀ v ∈ items, ReadsBack deepest v) : ReadsBack (deepest + 1) (.list items) := by
  intro levels fuel rest hlevels hfuel _
  obtain ⟨levels, rfl⟩ : ∃ n, levels = n + 1 := ⟨levels - 1, by omega⟩
  obtain ⟨fuel, rfl⟩ : ∃ n, fuel = n + 1 := ⟨fuel - 1, by omega⟩
  have htext : write (.list items) ++ rest =
      .char '[' :: (writeItems items ++ .char ']' :: rest) := by
    simp [write, Text.ofString, Text.ofChars]
  have hlength : (write (.list items)).length = (writeItems items).length + 2 := by
    simp [write, Text.ofString, Text.ofChars]
  rw [htext]
  cases items with
  | nil =>
    have hskip : skipSpace (writeItems [] ++ .char ']' :: rest) = .char ']' :: rest := rfl
    simp only [readValue, hskip]
  | cons v items =>
    have hitems : readItems fuel levels (writeItems (v :: items) ++ .char ']' :: rest) =
        .ok (v :: items, rest) := readItems_writeItems h hread (by omega) (by omega) rest
    rw [readValue_list ((opens_writeItems (h v List.mem_cons_self) items).append _), hitems]
    rfl

theorem readsBack_object {deepest : Nat} {fields : Fields} (h : ∀ f ∈ fields, Faithful f.2)
    (hkeys : (fields.map (·.1)).Nodup) (hread : ∀ f ∈ fields, ReadsBack deepest f.2) :
    ReadsBack (deepest + 1) (.object fields) := by
  intro levels fuel rest hlevels hfuel _
  obtain ⟨levels, rfl⟩ : ∃ n, levels = n + 1 := ⟨levels - 1, by omega⟩
  obtain ⟨fuel, rfl⟩ : ∃ n, fuel = n + 1 := ⟨fuel - 1, by omega⟩
  have htext : write (.object fields) ++ rest =
      .char '\x7b' :: (writeFields fields ++ .char '\x7d' :: rest) := by
    simp [write, Text.ofString, Text.ofChars]
  have hlength : (write (.object fields)).length = (writeFields fields).length + 2 := by
    simp [write, Text.ofString, Text.ofChars]
  rw [htext]
  cases fields with
  | nil =>
    have hskip : skipSpace (writeFields [] ++ .char '\x7d' :: rest) = .char '\x7d' :: rest := rfl
    simp only [readValue, hskip]
  | cons f fields =>
    have hfields : readFields fuel levels [] (writeFields (f :: fields) ++ .char '\x7d' :: rest) =
        .ok (f :: fields, rest) :=
      readFields_writeFields h hread (by simpa using hkeys) (by omega) (by omega) rest
    rw [readValue_object ((opens_writeFields f fields).append _), hfields]
    rfl

theorem exists_readsBack_of_faithful {v : Value} (h : Faithful v) :
    ∃ deepest, ReadsBack deepest v := by
  induction h with
  | null =>
    exact ⟨0, readsBack_of_readLeaf rfl (by decide) (by decide) fun _ _ => rfl⟩
  | flag b =>
    cases b with
    | true => exact ⟨0, readsBack_of_readLeaf rfl (by decide) (by decide) fun _ _ => rfl⟩
    | false => exact ⟨0, readsBack_of_readLeaf rfl (by decide) (by decide) fun _ _ => rfl⟩
  | @integer n h =>
    obtain ⟨d, ds, hds, hd⟩ := integerText_head n
    have hwrite : write (.integer n) = .char d :: Text.ofChars ds := by
      rw [write, hds]
      rfl
    refine ⟨0, readsBack_of_readLeaf hwrite (ne_of_isDigit_or hd rfl (by decide))
      (ne_of_isDigit_or hd rfl (by decide)) fun rest hrest => ?_⟩
    rw [write]
    exact readLeaf_integer h hrest
  | text s =>
    exact ⟨0, readsBack_of_readLeaf rfl (by decide) (by decide) fun rest _ => readLeaf_text s rest⟩
  | list h ih =>
    obtain ⟨deepest, hread⟩ := exists_readsBack ih
    exact ⟨deepest + 1, readsBack_list h hread⟩
  | @object fields h hkeys ih =>
    have hvalues : ∀ v ∈ fields.map (·.2), ∃ deepest, ReadsBack deepest v := by
      intro v hv
      obtain ⟨f, hf, rfl⟩ := List.mem_map.mp hv
      exact ih f hf
    obtain ⟨deepest, hread⟩ := exists_readsBack hvalues
    exact ⟨deepest + 1, readsBack_object h hkeys fun f hf => hread f.2 (List.mem_map_of_mem hf)⟩

/-- What is written for a value is read as the value, as long as enough levels are allowed. -/
theorem read_write {v : Value} (h : Faithful v) :
    ∃ deepest, ∀ levels, deepest ≤ levels → read levels (write v) = .ok v := by
  obtain ⟨deepest, hread⟩ := exists_readsBack_of_faithful h
  refine ⟨deepest, fun levels hlevels => ?_⟩
  have hskip := skipSpace_opens (opens_write h) []
  rw [List.append_nil] at hskip
  have hvalue := hread levels (2 * (write v).length + 1) [] hlevels (by omega) ends_nil
  rw [List.append_nil] at hvalue
  simp only [read, hskip, hvalue, bind, Except.bind]
  rfl

/-! ### One line -/

theorem le_of_mem_integer {n : Int} {c : CodePoint} (hc : c ∈ write (.integer n)) :
    32 ≤ c.toNat := by
  rw [write] at hc
  obtain ⟨d, hd, rfl⟩ := List.mem_map.mp hc
  have hdigit : d.isDigit = true ∨ d = '-' := by
    unfold Number.integerText at hd
    split at hd
    · rcases List.mem_cons.mp hd with rfl | hd
      · exact .inr rfl
      · exact .inl (Number.isDigit_of_mem_digits hd)
    · exact .inl (Number.isDigit_of_mem_digits hd)
  change 32 ≤ d.toNat
  rcases hdigit with hdigit | rfl
  · have hrange := Number.toNat_of_isDigit hdigit
    omega
  · decide

theorem mem_writeItems {items : List Value} {c : CodePoint} (hc : c ∈ writeItems items) :
    c = ',' ∨ c = ' ' ∨ ∃ v ∈ items, c ∈ write v := by
  induction items with
  | nil => cases hc
  | cons v items ih =>
    cases items with
    | nil => exact .inr (.inr ⟨v, List.mem_cons_self, hc⟩)
    | cons w items =>
      simp only [writeItems, List.mem_append] at hc
      rcases hc with (hc | hc) | hc
      · exact .inr (.inr ⟨v, List.mem_cons_self, hc⟩)
      · have hsep : c = ',' ∨ c = ' ' := by
          simpa [Text.ofString, Text.ofChars] using hc
        exact hsep.imp_right .inl
      · refine (ih hc).imp_right (Or.imp_right ?_)
        rintro ⟨x, hx, hc⟩
        exact ⟨x, List.mem_cons_of_mem v hx, hc⟩

theorem mem_writeFields {fields : Fields} {c : CodePoint} (hc : c ∈ writeFields fields) :
    c = ',' ∨ c = ' ' ∨ c = ':' ∨ ∃ f ∈ fields, c ∈ writeText f.1 ∨ c ∈ write f.2 := by
  have hsep : ∀ {c : CodePoint}, c ∈ Text.ofString ": " → c = ' ' ∨ c = ':' := by
    intro c hc
    have hcases : c = ':' ∨ c = ' ' := by simpa [Text.ofString, Text.ofChars] using hc
    exact hcases.symm
  induction fields with
  | nil => cases hc
  | cons f fields ih =>
    cases fields with
    | nil =>
      simp only [writeFields, List.mem_append] at hc
      rcases hc with (hc | hc) | hc
      · exact .inr (.inr (.inr ⟨f, List.mem_cons_self, .inl hc⟩))
      · exact .inr ((hsep hc).imp_right .inl)
      · exact .inr (.inr (.inr ⟨f, List.mem_cons_self, .inr hc⟩))
    | cons g fields =>
      simp only [writeFields, List.mem_append] at hc
      rcases hc with (((hc | hc) | hc) | hc) | hc
      · exact .inr (.inr (.inr ⟨f, List.mem_cons_self, .inl hc⟩))
      · exact .inr ((hsep hc).imp_right .inl)
      · exact .inr (.inr (.inr ⟨f, List.mem_cons_self, .inr hc⟩))
      · have hcomma : c = ',' ∨ c = ' ' := by
          simpa [Text.ofString, Text.ofChars] using hc
        exact hcomma.imp_right .inl
      · refine (ih hc).imp_right (Or.imp_right (Or.imp_right ?_))
        rintro ⟨x, hx, hc⟩
        exact ⟨x, List.mem_cons_of_mem f hx, hc⟩

/-- Nothing that is written is a control, a line break least of all. -/
theorem le_of_mem_write {v : Value} (h : Faithful v) {c : CodePoint} (hc : c ∈ write v) :
    32 ≤ c.toNat := by
  have hmark : ∀ d : Char, 32 ≤ d.toNat → ∀ c ∈ [CodePoint.char d], 32 ≤ c.toNat :=
    fun d hd => List.forall_mem_singleton.mpr hd
  induction h with
  | null => revert c; decide
  | flag b => cases b <;> revert c <;> decide
  | integer h => exact le_of_mem_integer hc
  | text s => exact le_of_mem_writeText hc
  | @list items h ih =>
    simp only [write, List.mem_append] at hc
    rcases hc with (hc | hc) | hc
    · exact hmark '[' (by decide) c hc
    · rcases mem_writeItems hc with rfl | rfl | ⟨v, hv, hc⟩
      · decide
      · decide
      · exact ih v hv hc
    · exact hmark ']' (by decide) c hc
  | @object fields h hkeys ih =>
    simp only [write, List.mem_append] at hc
    rcases hc with (hc | hc) | hc
    · exact hmark '\x7b' (by decide) c hc
    · rcases mem_writeFields hc with rfl | rfl | rfl | ⟨f, hf, hc | hc⟩
      · decide
      · decide
      · decide
      · exact le_of_mem_writeText hc
      · exact ih f hf hc
    · exact hmark '\x7d' (by decide) c hc

end ThermalLabel.Json
