import Mathlib.Data.List.Infix
import Mathlib.Data.List.Nodup
import ThermalLabel.Storage.Tree

/-!
# Changes of file trees

Setting a path changes what stands there and nothing else.  Making a directory adds directories on
the way to it and leaves everything that exists as it is; a file on the way is all that can stop it.
-/
namespace ThermalLabel.Storage.Tree

variable {t : Tree} {p q done : Path}

@[simp] theorem get?_nil (t : Tree) : t.get? [] = some .directory := rfl

theorem get?_of_ne_nil (t : Tree) (h : p ≠ []) : t.get? p = t.entries.lookup p := if_neg h

theorem lookup_cons_eq (e : Path × Node) (rest : List (Path × Node)) (q : Path) :
    (e :: rest).lookup q = if q = e.1 then some e.2 else rest.lookup q := by
  rw [List.lookup_cons]
  by_cases h : q = e.1
  · simp [h]
  · rw [if_neg h, beq_false_of_ne h]

theorem lookup_replaced (entries : List (Path × Node)) (p : Path) (n : Node) (q : Path) :
    (entries.map fun e => if e.1 == p then (p, n) else e).lookup q =
      if q = p then (entries.lookup p).map fun _ => n else entries.lookup q := by
  induction entries with
  | nil => simp
  | cons e rest ih =>
    rw [List.map_cons, lookup_cons_eq, ih, lookup_cons_eq, lookup_cons_eq]
    by_cases he : e.1 = p
    · by_cases hq : q = p <;> simp [he, hq]
    · by_cases hq : q = p
      · simp [he, hq, Ne.symm he]
      · simp [he, hq]

theorem isSome_lookup (entries : List (Path × Node)) (p : Path) :
    (entries.lookup p).isSome = entries.any (·.1 == p) := by
  induction entries with
  | nil => rfl
  | cons e rest ih =>
    rw [lookup_cons_eq, List.any_cons, ← ih]
    by_cases he : e.1 = p
    · simp [he]
    · simp [he, Ne.symm he]

/-- A path that is set has the new node, every other one what it had. -/
theorem get?_set (t : Tree) (hp : p ≠ []) (n : Node) (q : Path) :
    (t.set p n).get? q = if q = p then some n else t.get? q := by
  by_cases hq : q = []
  · subst hq
    rw [if_neg (Ne.symm hp), get?_nil, get?_nil]
  · rw [get?_of_ne_nil _ hq, get?_of_ne_nil _ hq, set, ← isSome_lookup]
    split
    · rename_i hsome
      obtain ⟨m, hm⟩ := Option.isSome_iff_exists.mp hsome
      rw [lookup_replaced, hm, Option.map_some]
    · rename_i hnone
      rw [Option.not_isSome_iff_eq_none] at hnone
      rw [List.lookup_append, lookup_cons_eq, List.lookup_nil]
      by_cases heq : q = p
      · simp [heq, hnone]
      · simp [heq]

/-! ### Names in a directory -/

/-- What a path names in a directory, if it leads to an entry of it. -/
def nameIn (dir p : Path) : Option String :=
  p.getLast?.bind fun name => if p.dropLast = dir then some name else none

theorem nameIn_eq_some_iff {dir : Path} {name : String} :
    nameIn dir p = some name ↔ p = dir ++ [name] := by
  rcases List.eq_nil_or_concat p with rfl | ⟨before, last, rfl⟩
  · simp [nameIn]
  · rw [List.concat_eq_append]
    simp [nameIn, and_comm]

theorem names_eq (t : Tree) (dir : Path) :
    t.names dir = (t.entries.map (·.1)).filterMap (nameIn dir) := by
  rw [names, List.filterMap_map]
  refine List.filterMap_congr fun e _ => ?_
  cases h : e.1.getLast? <;> simp [nameIn, h]

/-- What `names` lists is what stands in the directory itself. -/
theorem mem_names {dir : Path} {name : String} :
    name ∈ t.names dir ↔ (t.get? (dir ++ [name])).isSome = true := by
  rw [names_eq, List.mem_filterMap, get?_of_ne_nil _ (by simp), isSome_lookup, List.any_eq_true]
  simp only [nameIn_eq_some_iff, exists_eq_right, List.mem_map, beq_iff_eq]

/-! ### Making directories -/

/-- No file stands on the way to the path. -/
def Passable (t : Tree) (p : Path) : Prop :=
  ∀ q, q <+: p → ∀ text, t.get? q ≠ some (.file text)

theorem Passable.get? (h : t.Passable p) (hq : q <+: p) :
    t.get? q = none ∨ t.get? q = some .directory := by
  cases hget : t.get? q with
  | none => exact Or.inl rfl
  | some n =>
    cases n with
    | directory => exact Or.inr rfl
    | file text => exact absurd hget (h q hq text)

/-- A path on the way from one directory to another is the first one or below the next one. -/
theorem between_cons {name : String} {rest : Path} :
    done <+: q ∧ q <+: done ++ name :: rest ↔
      q = done ∨ done ++ [name] <+: q ∧ q <+: done ++ [name] ++ rest := by
  constructor
  · rintro ⟨⟨tail, rfl⟩, hq⟩
    cases tail with
    | nil => exact Or.inl (List.append_nil done)
    | cons first tail =>
      rw [List.prefix_append_right_inj, List.cons_prefix_cons] at hq
      obtain ⟨rfl, tail', rfl⟩ := hq
      exact Or.inr ⟨⟨tail, by simp⟩, ⟨tail', by simp⟩⟩
  · rintro (rfl | ⟨hhere, hq⟩)
    · exact ⟨List.prefix_rfl, List.prefix_append _ _⟩
    · exact ⟨(List.prefix_append _ _).trans hhere, by simpa using hq⟩

theorem makeBelow_of_passable (hdone : t.get? done = some .directory) {path : Path}
    (h : ∀ q, done <+: q ∧ q <+: done ++ path → ∀ text, t.get? q ≠ some (.file text)) :
    ∃ u, t.makeBelow done path = .ok u ∧ ∀ q, u.get? q =
      (t.get? q).or (if done <+: q ∧ q <+: done ++ path then some .directory else none) := by
  induction path generalizing t done with
  | nil =>
    refine ⟨t, rfl, fun q => ?_⟩
    split
    · rename_i hq
      obtain rfl : q = done := (hq.2.trans (by simp)).eq_of_length_le hq.1.length_le
      simp [hdone]
    · simp
  | cons name rest ih =>
    have hhere : done ++ [name] ≠ [] := by simp
    simp only [between_cons] at h
    rw [makeBelow]
    cases hget : t.get? (done ++ [name]) with
    | none =>
      have hset (q : Path) := get?_set t hhere .directory q
      have hmade : (t.set (done ++ [name]) .directory).get? (done ++ [name]) = some .directory := by
        rw [hset, if_pos rfl]
      obtain ⟨u, hu, hspec⟩ := ih hmade fun q hq text => by
        rw [hset]
        split
        · simp
        · exact h q (Or.inr hq) text
      refine ⟨u, hu, fun q => ?_⟩
      rw [hspec, hset, if_congr between_cons rfl rfl]
      by_cases hq : q = done ++ [name]
      · simp [hq, hget]
      · by_cases hd : q = done
        · simp [hd, hdone]
        · simp [hq, hd]
    | some n =>
      cases n with
      | directory =>
        obtain ⟨u, hu, hspec⟩ := ih hget fun q hq => h q (Or.inr hq)
        refine ⟨u, hu, fun q => ?_⟩
        rw [hspec, if_congr between_cons rfl rfl]
        by_cases hd : q = done
        · simp [hd, hdone]
        · simp [hd]
      | file text =>
        exact absurd hget (h _ (Or.inr ⟨List.prefix_rfl, List.prefix_append _ _⟩) text)

theorem makeBelow_of_file (hdone : t.get? done = some .directory) {path : Path} {text : String}
    (hq : done <+: q ∧ q <+: done ++ path) (hfile : t.get? q = some (.file text)) :
    ∃ e, t.makeBelow done path = .error e := by
  induction path generalizing t done with
  | nil =>
    obtain rfl : q = done := (hq.2.trans (by simp)).eq_of_length_le hq.1.length_le
    rw [hdone] at hfile
    cases hfile
  | cons name rest ih =>
    have hhere : done ++ [name] ≠ [] := by simp
    rw [between_cons] at hq
    rcases hq with rfl | hq
    · rw [hdone] at hfile
      cases hfile
    · rw [makeBelow]
      cases hget : t.get? (done ++ [name]) with
      | none =>
        have hmade : (t.set (done ++ [name]) .directory).get? (done ++ [name]) =
            some .directory := by
          rw [get?_set _ hhere, if_pos rfl]
        refine ih hmade hq ?_
        rw [get?_set _ hhere, if_neg, hfile]
        rintro rfl
        rw [hget] at hfile
        cases hfile
      | some n =>
        cases n with
        | directory => exact ih hget hq hfile
        | file text => exact ⟨_, rfl⟩

/-- What is missing on the way to the directory is made, and all else stays. -/
theorem makeDirectory_of_passable (h : t.Passable p) :
    ∃ u, t.makeDirectory p = .ok u ∧
      ∀ q, u.get? q = (t.get? q).or (if q <+: p then some .directory else none) := by
  have hbelow (q : Path) (hq : [] <+: q ∧ q <+: [] ++ p) (text : String) :
      t.get? q ≠ some (.file text) := h q hq.2 text
  obtain ⟨u, hu, hspec⟩ := makeBelow_of_passable (get?_nil t) hbelow
  exact ⟨u, hu, by simpa using hspec⟩

theorem makeDirectory_of_not_passable (h : ¬ t.Passable p) :
    ∃ e, t.makeDirectory p = .error e := by
  simp only [Passable, not_forall, not_not] at h
  obtain ⟨q, hq, text, hfile⟩ := h
  exact makeBelow_of_file rfl ⟨List.nil_prefix, hq⟩ hfile

/-- A directory that exists, with all directories on the way to it, is not made again. -/
theorem makeDirectory_of_directories (h : ∀ q, q <+: p → t.get? q = some .directory) :
    t.makeDirectory p = .ok t := by
  have hbelow (path done : Path) (hp : done ++ path = p) : t.makeBelow done path = .ok t := by
    induction path generalizing done with
    | nil => rfl
    | cons name rest ih =>
      have hget : t.get? (done ++ [name]) = some .directory := h _ ⟨rest, by simp [← hp]⟩
      rw [makeBelow]
      simp only [hget]
      exact ih (done ++ [name]) (by simp [← hp])
  exact hbelow p [] rfl

/-! ### Trees without repetitions -/

/-- Every path of the tree stands in it once. -/
def Distinct (t : Tree) : Prop :=
  (t.entries.map (·.1)).Nodup

instance (t : Tree) : Decidable t.Distinct :=
  inferInstanceAs (Decidable (List.Nodup _))

theorem Distinct.set (h : t.Distinct) (p : Path) (n : Node) : (t.set p n).Distinct := by
  unfold Distinct at h ⊢
  rw [Tree.set]
  split
  · have hpaths : (t.entries.map fun e => if e.1 == p then (p, n) else e).map (·.1) =
        t.entries.map (·.1) := by
      rw [List.map_map]
      refine List.map_congr_left fun e _ => ?_
      by_cases he : e.1 = p <;> simp [he]
    rwa [hpaths]
  · rename_i hnone
    have hp : p ∉ t.entries.map (·.1) := by
      rw [List.mem_map]
      rintro ⟨e, he, rfl⟩
      exact hnone (List.any_eq_true.mpr ⟨e, he, beq_self_eq_true _⟩)
    rw [List.map_append, List.map_cons, List.map_nil, ← List.concat_eq_append]
    exact h.concat hp

theorem Distinct.makeBelow (h : t.Distinct) {path : Path} {u : Tree}
    (hu : t.makeBelow done path = .ok u) : u.Distinct := by
  induction path generalizing t done with
  | nil =>
    cases hu
    exact h
  | cons name rest ih =>
    rw [Tree.makeBelow] at hu
    split at hu
    · exact ih (h.set _ _) hu
    · exact ih h hu
    · cases hu

/-- A directory lists each of its names once. -/
theorem Distinct.nodup_names (h : t.Distinct) (dir : Path) : (t.names dir).Nodup := by
  rw [names_eq]
  refine List.Nodup.filterMap (fun p q name hp hq => ?_) h
  rw [nameIn_eq_some_iff.mp hp, nameIn_eq_some_iff.mp hq]

end ThermalLabel.Storage.Tree
