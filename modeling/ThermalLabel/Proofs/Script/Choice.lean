import Mathlib.Data.List.Nodup
import Mathlib.Logic.Relation
import ThermalLabel.Proofs.Label.Naming
import ThermalLabel.Script.Choice

/-!
# Spellings of a choice

A text is accepted for a choice exactly if it has the plain name of a member, and no two members of
an enumeration share their plain name.  The plain name does not see underscores, hyphens and the
case of ASCII letters, so that changing these does not change which member a text names.
-/
namespace ThermalLabel.Script

/-- The plain names of an enumeration are all different. -/
theorem plainNames_nodup (e : Enumeration) :
    (e.names.map fun name : String => plainName name).Nodup := by
  cases e <;> decide +kernel

/-- At most one member has a plain name. -/
theorem eq_of_plainName {m m' : Member} (he : m.enumeration = m'.enumeration)
    (h : plainName m.name = plainName m'.name) : m = m' := by
  obtain ⟨e, i, hi⟩ := m
  obtain ⟨e', j, hj⟩ := m'
  obtain rfl : e = e' := he
  have hindex := (plainNames_nodup e).get_inj_iff (i := ⟨i, by simpa using hi⟩)
    (j := ⟨j, by simpa using hj⟩) |>.mp (by simpa [Member.name] using h)
  exact Member.eq_of_number rfl (Fin.mk.inj hindex)

/-- A text names the one member that has its plain name. -/
theorem findName?_eq_some_iff {e : Enumeration} {s : Text} {m : Member} :
    findName? e s = some m ↔ m.enumeration = e ∧ plainName m.name = plainName s := by
  have hsound {m : Member} (h : findName? e s = some m) :
      m.enumeration = e ∧ plainName m.name = plainName s := by
    obtain ⟨name, hfind, hm⟩ := Option.bind_eq_some_iff.mp h
    obtain ⟨he, hname⟩ := Member.ofName?_eq_some hm
    exact ⟨he, by simpa [hname] using List.find?_some hfind⟩
  refine ⟨hsound, ?_⟩
  rintro ⟨rfl, hplain⟩
  obtain ⟨m', hm'⟩ : ∃ m', findName? m.enumeration s = some m' := by
    cases hfind : m.enumeration.names.find? fun known : String =>
        plainName known == plainName s with
    | none =>
      have hname : m.name ∈ m.enumeration.names := List.get_mem _ _
      exact absurd hplain (by simpa using List.find?_eq_none.mp hfind m.name hname)
    | some name =>
      obtain ⟨m', hm'⟩ := Member.exists_ofName? (List.mem_of_find?_eq_some hfind)
      exact ⟨m', by rw [findName?, hfind, Option.bind_some, hm']⟩
  obtain ⟨he, hplain'⟩ := hsound hm'
  rw [hm', eq_of_plainName he (hplain'.trans hplain.symm)]

/-- One change to a text that does not change what it spells: an underscore or a hyphen more or less,
or another case for an ASCII letter. -/
inductive Respelling : Text → Text → Prop
  | insert (before after : Text) {mark : Char} (h : mark = '_' ∨ mark = '-') :
      Respelling (before ++ after) (before ++ .char mark :: after)
  | delete (before after : Text) {mark : Char} (h : mark = '_' ∨ mark = '-') :
      Respelling (before ++ .char mark :: after) (before ++ after)
  | recase (before after : Text) {c d : Char} (h : c.toLower = d.toLower) :
      Respelling (before ++ .char c :: after) (before ++ .char d :: after)

theorem plainName_append (s t : Text) : plainName (s ++ t) = plainName s ++ plainName t := by
  rw [plainName, List.filter_append, Text.lower_append]
  rfl

theorem plainName_cons (c : CodePoint) (s : Text) : plainName (c :: s) = plainName [c] ++ plainName s :=
  plainName_append [c] s

theorem plainName_toLower (c : Char) : plainName [.char c.toLower] = plainName [.char c] := by
  by_cases hupper : 65 ≤ c.toNat ∧ c.toNat ≤ 90
  · have hletters : ∀ k : Fin 26, plainName [.char (Char.ofNat (65 + k)).toLower] =
        plainName [.char (Char.ofNat (65 + k))] := by decide +kernel
    have hletter := hletters ⟨c.toNat - 65, by omega⟩
    rwa [Nat.add_sub_cancel' hupper.1, Char.ofNat_toNat] at hletter
  · have hlower : c.toLower = c := by
      unfold Char.toLower
      rw [dif_neg]
      simpa [UInt32.le_iff_toNat_le] using hupper
    rw [hlower]

theorem plainName_of_respelling {s t : Text} (h : Respelling s t) : plainName t = plainName s := by
  have hmark {mark : Char} (h : mark = '_' ∨ mark = '-') : plainName [.char mark] = [] := by
    rcases h with rfl | rfl <;> rfl
  cases h with
  | insert before after h =>
    rw [plainName_append, plainName_cons, hmark h, List.nil_append, plainName_append]
  | delete before after h =>
    rw [plainName_append, plainName_append, plainName_cons, hmark h, List.nil_append]
  | @recase before after c d h =>
    rw [plainName_append, plainName_append, plainName_cons, plainName_cons (.char c),
      ← plainName_toLower d, ← h, plainName_toLower]

end ThermalLabel.Script
