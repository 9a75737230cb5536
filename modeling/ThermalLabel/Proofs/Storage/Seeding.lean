import ThermalLabel.Proofs.Storage.Tree
import ThermalLabel.Storage.Layout

/-!
# Seeding the data directory

Setting up a data directory only ever adds to the tree: the directories that are missing on the way
to it, and the packaged templates for whose names nothing stands in the template directory.
Whatever existed stays, even when a file in the way ends the run.  So a template keeps the text of
whoever wrote it first, as long as its owner leaves it alone, and a second run in a row finds
nothing left to do.
-/
namespace ThermalLabel.Storage

variable {t u made : Tree} {root dir q : Path} {packaged : Option Tree} {n : Node}

/-- Everything that stands in a tree stands in the other one too. -/
def Keeps (t u : Tree) : Prop :=
  ∀ q n, t.get? q = some n → u.get? q = some n

theorem Keeps.refl (t : Tree) : Keeps t t := fun _ _ h => h

theorem Keeps.trans {v : Tree} (h : Keeps t u) (h' : Keeps u v) : Keeps t v :=
  fun q n hq => h' q n (h q n hq)

theorem Keeps.of_or {added : Path → Option Node} (h : ∀ q, u.get? q = (t.get? q).or (added q)) :
    Keeps t u := by
  intro q n hq
  rw [h, hq, Option.some_or]

/-! ### Directories -/

theorem passable_of_directories {added : Path → Prop} [DecidablePred added]
    (h : ∀ q, u.get? q = (t.get? q).or (if added q then some .directory else none)) (p : Path) :
    u.Passable p ↔ t.Passable p := by
  refine forall₂_congr fun q _ => forall_congr' fun text => not_congr ?_
  rw [h]
  cases t.get? q with
  | some n => simp
  | none => by_cases ha : added q <;> simp [ha]

/-- Without files in the way all directories are made. -/
theorem makeAll_of_passable {dirs : List Path} (h : ∀ p ∈ dirs, t.Passable p) :
    ∃ made, makeAll t dirs = (made, .ok ()) ∧ ∀ q, made.get? q =
      (t.get? q).or (if ∃ p ∈ dirs, q <+: p then some .directory else none) := by
  induction dirs generalizing t with
  | nil => exact ⟨t, rfl, by simp⟩
  | cons p rest ih =>
    rw [List.forall_mem_cons] at h
    obtain ⟨next, hnext, hspec⟩ := Tree.makeDirectory_of_passable h.1
    obtain ⟨made, hmade, hrest⟩ := ih fun p hp => (passable_of_directories hspec p).mpr (h.2 p hp)
    refine ⟨made, by rw [makeAll, hnext]; exact hmade, fun q => ?_⟩
    rw [hrest, hspec, Option.or_assoc]
    by_cases hq : q <+: p <;> simp [hq]

/-- A file in the way ends the making of directories; those made before it stay. -/
theorem makeAll_of_not_passable {dirs : List Path} (h : ¬ ∀ p ∈ dirs, t.Passable p) :
    ∃ made e, makeAll t dirs = (made, .error e) ∧ Keeps t made := by
  induction dirs generalizing t with
  | nil => exact absurd (by simp) h
  | cons p rest ih =>
    by_cases hp : t.Passable p
    · obtain ⟨next, hnext, hspec⟩ := Tree.makeDirectory_of_passable hp
      obtain ⟨made, e, hmade, hkeeps⟩ := ih (t := next) fun hrest =>
        h (List.forall_mem_cons.mpr
          ⟨hp, fun p hp => (passable_of_directories hspec p).mp (hrest p hp)⟩)
      exact ⟨made, e, by rw [makeAll, hnext]; exact hmade, (Keeps.of_or hspec).trans hkeeps⟩
    · obtain ⟨e, he⟩ := Tree.makeDirectory_of_not_passable hp
      exact ⟨t, e, by rw [makeAll, he], .refl t⟩

theorem makeAll_keeps (t : Tree) (dirs : List Path) : Keeps t (makeAll t dirs).1 := by
  by_cases h : ∀ p ∈ dirs, t.Passable p
  · obtain ⟨made, hmade, hspec⟩ := makeAll_of_passable h
    rw [hmade]
    exact .of_or hspec
  · obtain ⟨made, e, hmade, hkeeps⟩ := makeAll_of_not_passable h
    rw [hmade]
    exact hkeeps

theorem makeAll_of_directories {dirs : List Path}
    (h : ∀ p ∈ dirs, ∀ q, q <+: p → t.get? q = some .directory) :
    makeAll t dirs = (t, .ok ()) := by
  induction dirs with
  | nil => rfl
  | cons p rest ih =>
    rw [List.forall_mem_cons] at h
    rw [makeAll, Tree.makeDirectory_of_directories h.1]
    exact ih h.2

theorem makeAll_again {dirs : List Path} {r : Except TreeError Unit}
    (h : makeAll t dirs = (made, r)) : makeAll made dirs = (made, r) := by
  induction dirs generalizing t with
  | nil =>
    cases h
    rfl
  | cons p rest ih =>
    by_cases hp : t.Passable p
    · obtain ⟨next, hnext, hspec⟩ := Tree.makeDirectory_of_passable hp
      have hrest : makeAll next rest = (made, r) := by rwa [makeAll, hnext] at h
      have hkeeps : Keeps next made := by
        have hall := makeAll_keeps next rest
        rwa [hrest] at hall
      -- All that the first directory needs has been made by now.
      have hdirectories (q : Path) (hq : q <+: p) : made.get? q = some .directory := by
        refine hkeeps q _ ?_
        rw [hspec, if_pos hq]
        rcases hp.get? hq with hnone | hdirectory
        · rw [hnone, Option.none_or]
        · rw [hdirectory, Option.some_or]
      rw [makeAll, Tree.makeDirectory_of_directories hdirectories]
      exact ih hrest
    · obtain ⟨e, he⟩ := Tree.makeDirectory_of_not_passable hp
      rw [makeAll, he] at h
      cases h
      rw [makeAll, he]

/-! ### Templates -/

/-- What a package offers for a path: the text of one of its own files. -/
def offered (source : Tree) (dir q : Path) (name : String) : Option Node :=
  if q = dir ++ [name] then
    match source.get? [name] with
    | some (.file text) => some (.file text)
    | _ => none
  else none

theorem offered_eq_some_iff {source : Tree} {name : String} :
    offered source dir q name = some n ↔
      q = dir ++ [name] ∧ ∃ text, source.get? [name] = some (.file text) ∧ n = .file text := by
  unfold offered
  split
  · rename_i hq
    split
    · rename_i text htext
      simp [hq, htext, eq_comm]
    · rename_i hnone
      refine iff_of_false (by simp) ?_
      rintro ⟨-, text, htext, -⟩
      exact hnone text htext
  · rename_i hq
    simp [hq]

theorem get?_seed (source t : Tree) (dir : Path) (name : String) (q : Path) :
    (seed source dir t name).get? q = (t.get? q).or (offered source dir q name) := by
  have hne : dir ++ [name] ≠ [] := by simp
  unfold seed offered
  split
  · rename_i text hfile hnone
    rw [Tree.get?_set t hne, hfile]
    by_cases hq : q = dir ++ [name]
    · simp [hq, hnone]
    · simp [hq]
  · rename_i hnot
    by_cases hq : q = dir ++ [name]
    · subst hq
      cases hget : t.get? (dir ++ [name]) with
      | some n => rw [Option.some_or]
      | none =>
        rw [if_pos rfl, Option.none_or]
        split
        · rename_i text hfile
          exact absurd hget (hnot text hfile)
        · rfl
    · simp [hq]

theorem get?_foldl_seed (source t : Tree) (dir : Path) (names : List String) (q : Path) :
    (names.foldl (seed source dir) t).get? q =
      (t.get? q).or (names.findSome? (offered source dir q)) := by
  induction names generalizing t with
  | nil => simp
  | cons name rest ih =>
    rw [List.foldl_cons, ih, get?_seed, Option.or_assoc, List.findSome?_cons]
    cases offered source dir q name <;> simp

/-- At most one name leads to a path, so the order of the names does not matter. -/
theorem findSome?_offered {source : Tree} {names : List String} :
    names.findSome? (offered source dir q) = some n ↔
      ∃ name ∈ names, offered source dir q name = some n := by
  refine ⟨List.exists_of_findSome?_eq_some, ?_⟩
  rintro ⟨name, hname, hoffered⟩
  cases hfound : names.findSome? (offered source dir q) with
  | none =>
    rw [List.findSome?_eq_none_iff.mp hfound name hname] at hoffered
    cases hoffered
  | some m =>
    obtain ⟨other, -, hother⟩ := List.exists_of_findSome?_eq_some hfound
    obtain ⟨hq, text, htext, rfl⟩ := offered_eq_some_iff.mp hoffered
    obtain ⟨hq', text', htext', rfl⟩ := offered_eq_some_iff.mp hother
    obtain rfl : name = other := by simpa [hq] using hq'
    rw [htext] at htext'
    cases htext'
    rfl

/-- The templates of a package, each added where nothing stands. -/
theorem get?_seedAll (source t : Tree) (dir q : Path) :
    ∃ added, (seedAll source dir t).get? q = (t.get? q).or added ∧
      ∀ n, added = some n ↔ ∃ name text, Template.isTemplateName name = true ∧
        source.get? [name] = some (.file text) ∧ q = dir ++ [name] ∧ n = .file text := by
  refine ⟨_, get?_foldl_seed source t dir _ q, fun n => ?_⟩
  rw [findSome?_offered]
  constructor
  · rintro ⟨name, hname, hoffered⟩
    obtain ⟨hq, text, htext, hn⟩ := offered_eq_some_iff.mp hoffered
    exact ⟨name, text, (List.mem_filter.mp hname).2, htext, hq, hn⟩
  · rintro ⟨name, text, hname, htext, hq, hn⟩
    have hmem : name ∈ source.names [] := by
      rw [Tree.mem_names, List.nil_append, htext]
      rfl
    exact ⟨name, List.mem_filter.mpr ⟨hmem, hname⟩, offered_eq_some_iff.mpr ⟨hq, text, htext, hn⟩⟩

theorem seedAll_keeps (source t : Tree) (dir : Path) : Keeps t (seedAll source dir t) :=
  .of_or fun q => get?_foldl_seed source t dir _ q

theorem foldl_seed_of_forall {source : Tree} {names : List String}
    (h : ∀ name ∈ names, seed source dir t name = t) : names.foldl (seed source dir) t = t := by
  induction names with
  | nil => rfl
  | cons name rest ih =>
    rw [List.forall_mem_cons] at h
    rw [List.foldl_cons, h.1]
    exact ih h.2

/-- Templates that have been added are not added again. -/
theorem seedAll_again (source t : Tree) (dir : Path) :
    seedAll source dir (seedAll source dir t) = seedAll source dir t := by
  refine foldl_seed_of_forall fun name hname => ?_
  rw [seed]
  split
  · rename_i text hfile hnone
    have hget : (seedAll source dir t).get? (dir ++ [name]) = _ :=
      get?_foldl_seed source t dir _ (dir ++ [name])
    rw [hnone, findSome?_offered.mpr
      ⟨name, hname, offered_eq_some_iff.mpr ⟨rfl, text, hfile, rfl⟩⟩] at hget
    cases h : t.get? (dir ++ [name]) <;> simp [h] at hget
  · rfl

/-! ### Runs -/

/-- The directories of a data directory. -/
def dirsAt (root : Path) : List Path :=
  dataDirs.map fun dir => root ++ dir.2

/-- What a run puts where nothing stands: a directory on the way to the data directories, or a
template of the package itself in the template directory. -/
inductive Adds (root : Path) (packaged : Option Tree) : Path → Node → Prop
  | directory {p q : Path} (hp : p ∈ dirsAt root) (hq : q <+: p) : Adds root packaged q .directory
  | template {source : Tree} {name text : String} (hpackaged : packaged = some source)
      (hname : Template.isTemplateName name = true)
      (htext : source.get? [name] = some (.file text)) :
      Adds root packaged (root ++ templatesDir ++ [name]) (.file text)

theorem setUpAt_of_error {e : TreeError} (h : makeAll t (dirsAt root) = (made, .error e)) :
    setUpAt root packaged t = (made, .error e) := by
  unfold setUpAt
  rw [dirsAt] at h
  rw [h]

theorem setUpAt_of_ok (h : makeAll t (dirsAt root) = (made, .ok ())) :
    setUpAt root packaged t =
      (packaged.elim made fun source => seedAll source (root ++ templatesDir) made, .ok ()) := by
  unfold setUpAt
  rw [dirsAt] at h
  rw [h]
  cases packaged <;> rfl

theorem setUpAt_keeps (root : Path) (packaged : Option Tree) (t : Tree) :
    Keeps t (setUpAt root packaged t).1 := by
  have hkeeps := makeAll_keeps t (dirsAt root)
  rcases hmade : makeAll t (dirsAt root) with ⟨made, e | _⟩
  · rw [hmade] at hkeeps
    rwa [setUpAt_of_error hmade]
  · rw [hmade] at hkeeps
    rw [setUpAt_of_ok hmade]
    cases packaged with
    | none => exact hkeeps
    | some source => exact hkeeps.trans (seedAll_keeps _ _ _)

/-- Files on the way to its directories are all that a run can fail for. -/
theorem setUpAt_ok_iff :
    (setUpAt root packaged t).2 = .ok () ↔ ∀ p ∈ dirsAt root, t.Passable p := by
  constructor
  · intro h
    by_contra hnot
    obtain ⟨made, e, hmade, -⟩ := makeAll_of_not_passable hnot
    rw [setUpAt_of_error hmade] at h
    cases h
  · intro h
    obtain ⟨made, hmade, -⟩ := makeAll_of_passable h
    rw [setUpAt_of_ok hmade]

theorem length_of_prefix_dirsAt {p : Path} (hp : p ∈ dirsAt root) (hq : q <+: p) :
    q.length ≤ root.length + 1 := by
  have hlength : p.length ≤ root.length + 1 := by
    simp only [dirsAt, dataDirs, templatesDir, logsDir, List.map_cons, List.map_nil,
      List.append_nil, List.mem_cons, List.not_mem_nil, or_false] at hp
    rcases hp with rfl | rfl | rfl <;> simp
  exact hq.length_le.trans hlength

theorem adds_iff : Adds root packaged q n ↔
    (∃ p ∈ dirsAt root, q <+: p) ∧ n = .directory ∨
      ∃ source name text, packaged = some source ∧ Template.isTemplateName name = true ∧
        source.get? [name] = some (.file text) ∧ q = root ++ templatesDir ++ [name] ∧
        n = .file text := by
  constructor
  · rintro (⟨hp, hq⟩ | ⟨hpackaged, hname, htext⟩)
    · exact Or.inl ⟨⟨_, hp, hq⟩, rfl⟩
    · exact Or.inr ⟨_, _, _, hpackaged, hname, htext, rfl, rfl⟩
  · rintro (⟨⟨p, hp, hq⟩, rfl⟩ | ⟨source, name, text, hpackaged, hname, htext, rfl, rfl⟩)
    · exact .directory hp hq
    · exact .template hpackaged hname htext

/-- After the directories come the templates, if there is a package at all. -/
theorem get?_setUpAt_of_made (packaged : Option Tree)
    (h : makeAll t (dirsAt root) = (made, .ok ())) (q : Path) :
    ∃ added, (setUpAt root packaged t).1.get? q = (made.get? q).or added ∧
      ∀ n, added = some n ↔ ∃ source name text, packaged = some source ∧
        Template.isTemplateName name = true ∧ source.get? [name] = some (.file text) ∧
        q = root ++ templatesDir ++ [name] ∧ n = .file text := by
  rw [setUpAt_of_ok h]
  cases packaged with
  | none => exact ⟨none, by simp, by simp⟩
  | some source => simpa using get?_seedAll source made (root ++ templatesDir) q

/-- What a successful run leaves: all that stood before, and what it adds. -/
theorem get?_setUpAt (h : (setUpAt root packaged t).2 = .ok ()) (q : Path) (n : Node) :
    (setUpAt root packaged t).1.get? q = some n ↔
      t.get? q = some n ∨ t.get? q = none ∧ Adds root packaged q n := by
  obtain ⟨made, hmade, hspec⟩ := makeAll_of_passable (setUpAt_ok_iff.mp h)
  obtain ⟨added, hadded, hiff⟩ := get?_setUpAt_of_made packaged hmade q
  rw [hadded, hspec, adds_iff, ← hiff]
  cases hget : t.get? q with
  | some m => simp
  | none =>
    by_cases hdir : ∃ p ∈ dirsAt root, q <+: p
    · -- A template is one step deeper than any data directory.
      have hnot : ¬ added = some n := by
        rw [hiff]
        rintro ⟨source, name, text, -, -, -, rfl, -⟩
        obtain ⟨p, hp, hq⟩ := hdir
        have hlength := length_of_prefix_dirsAt hp hq
        simp [templatesDir] at hlength
      simp [hdir, hnot, eq_comm]
    · simp [hdir]

/-- A successful run leaves the data directories with all directories on the way to them. -/
theorem directory_of_setUpAt (h : (setUpAt root packaged t).2 = .ok ()) {p : Path}
    (hp : p ∈ dirsAt root) (hq : q <+: p) :
    (setUpAt root packaged t).1.get? q = some .directory := by
  rw [get?_setUpAt h]
  rcases (setUpAt_ok_iff.mp h p hp).get? hq with hnone | hdirectory
  · exact Or.inr ⟨hnone, .directory hp hq⟩
  · exact Or.inl hdirectory

/-- A second run on what the first one left changes nothing and ends like it. -/
theorem setUpAt_again (root : Path) (packaged : Option Tree) (t : Tree) :
    setUpAt root packaged (setUpAt root packaged t).1 = setUpAt root packaged t := by
  rcases hmade : makeAll t (dirsAt root) with ⟨made, e | _⟩
  · rw [setUpAt_of_error hmade]
    exact setUpAt_of_error (makeAll_again hmade)
  · have hrun : setUpAt root packaged t = _ := setUpAt_of_ok hmade
    have hagain := makeAll_of_directories (t := (setUpAt root packaged t).1) fun p hp q hq =>
      directory_of_setUpAt (by rw [hrun]) hp hq
    rw [setUpAt_of_ok hagain, hrun]
    cases packaged with
    | none => rfl
    | some source => simp only [Option.elim_some, seedAll_again]

/-! ### Repetitions -/

theorem makeAll_distinct (h : t.Distinct) (dirs : List Path) : (makeAll t dirs).1.Distinct := by
  induction dirs generalizing t with
  | nil => exact h
  | cons p rest ih =>
    rw [makeAll]
    split
    · rename_i next hnext
      exact ih (h.makeBelow hnext)
    · exact h

theorem seedAll_distinct (source : Tree) (dir : Path) (h : t.Distinct) :
    (seedAll source dir t).Distinct := by
  have hseed (t : Tree) (h : t.Distinct) (name : String) : (seed source dir t name).Distinct := by
    rw [seed]
    split
    · exact h.set _ _
    · exact h
  unfold seedAll
  generalize (source.names []).filter Template.isTemplateName = names
  induction names generalizing t with
  | nil => exact h
  | cons name rest ih => exact ih (hseed t h name)

/-- A run puts nothing in a tree twice. -/
theorem setUpAt_distinct (root : Path) (packaged : Option Tree) (h : t.Distinct) :
    (setUpAt root packaged t).1.Distinct := by
  have hmade := makeAll_distinct h (dirsAt root)
  rcases hrun : makeAll t (dirsAt root) with ⟨made, e | _⟩
  · rw [hrun] at hmade
    rwa [setUpAt_of_error hrun]
  · rw [hrun] at hmade
    rw [setUpAt_of_ok hrun]
    cases packaged with
    | none => exact hmade
    | some source => exact seedAll_distinct source _ hmade

/-! ### Histories -/

/-- The trees that runs with any packages, and changes by their owner that leave one path alone,
can lead to. -/
inductive Undisturbed (root q : Path) (t : Tree) : Tree → Prop
  | start : Undisturbed root q t t
  | run {u : Tree} (packaged : Option Tree) (h : Undisturbed root q t u) :
      Undisturbed root q t (setUpAt root packaged u).1
  | edit {u v : Tree} (h : Undisturbed root q t u) (hq : v.get? q = u.get? q) :
      Undisturbed root q t v

/-- What stands at a path stays for as long as its owner leaves it alone. -/
theorem Undisturbed.get? (h : Undisturbed root q t u) (hq : t.get? q = some n) :
    u.get? q = some n := by
  induction h with
  | start => exact hq
  | run packaged _ ih => exact setUpAt_keeps root packaged _ q n ih
  | edit _ hedit ih => rw [hedit, ih]

/-- Setting up a data directory harms nothing that exists and is settled after one run.  Any run
keeps all that stands; a successful one makes the data directories and adds just what `Adds` says
where nothing stands; a template keeps the text of its first writer, its owner or a package; and
a second run in a row does nothing. -/
theorem setUpAt_settles (root : Path) (packaged : Option Tree) (t : Tree) :
    (∀ q n, t.get? q = some n → (setUpAt root packaged t).1.get? q = some n) ∧
    ((setUpAt root packaged t).2 = .ok () ↔ ∀ p ∈ dirsAt root, t.Passable p) ∧
    ((setUpAt root packaged t).2 = .ok () →
      (∀ p ∈ dirsAt root, (setUpAt root packaged t).1.get? p = some .directory) ∧
      ∀ q n, (setUpAt root packaged t).1.get? q = some n ↔
        t.get? q = some n ∨ t.get? q = none ∧ Adds root packaged q n) ∧
    (∀ q n u, t.get? q = some n → Undisturbed root q t u → u.get? q = some n) ∧
    (∀ q n u, (setUpAt root packaged t).2 = .ok () → t.get? q = none → Adds root packaged q n →
      Undisturbed root q (setUpAt root packaged t).1 u → u.get? q = some n) ∧
    setUpAt root packaged (setUpAt root packaged t).1 = setUpAt root packaged t := by
  refine ⟨setUpAt_keeps root packaged t, setUpAt_ok_iff, fun hok => ⟨?_, get?_setUpAt hok⟩,
    fun q n u hq h => h.get? hq, ?_, setUpAt_again root packaged t⟩
  · intro p hp
    exact directory_of_setUpAt hok hp List.prefix_rfl
  · intro q n u hok hnone hadds h
    exact h.get? ((get?_setUpAt hok q n).mpr (Or.inr ⟨hnone, hadds⟩))

/-- A template that its owner edited, next to a new one, a directory and a file of another kind
in the package, and a later package with other texts. -/
theorem setUpAt_settles_edited :
    let own : Tree := ⟨[(["data"], .directory), (["data", "zpl_templates"], .directory),
      (["data", "zpl_templates", "a.zpl.j2"], .file "edited")]⟩
    let first : Tree := ⟨[(["a.zpl.j2"], .file "A"), (["b.zpl.j2"], .file "B"),
      (["c.zpl.j2"], .directory), (["notes.txt"], .file "x")]⟩
    let second : Tree := ⟨[(["a.zpl.j2"], .file "A2"), (["b.zpl.j2"], .file "B2")]⟩
    let once := (setUpAt ["data"] (some first) own).1
    let twice := (setUpAt ["data"] (some second) once).1
    once.get? ["data", "logs"] = some .directory ∧
    once.get? ["data", "zpl_templates", "c.zpl.j2"] = none ∧
    twice.get? ["data", "zpl_templates", "a.zpl.j2"] = some (.file "edited") ∧
    twice.get? ["data", "zpl_templates", "b.zpl.j2"] = some (.file "B") := by
  intro own first second once twice
  obtain ⟨-, hok, hadded, howned, hpackaged, -⟩ := setUpAt_settles ["data"] (some first) own
  have hrun : (setUpAt ["data"] (some first) own).2 = .ok () := by decide +kernel
  have hhistory (q : Path) : Undisturbed ["data"] q once twice := .run (some second) .start
  refine ⟨(hadded hrun).1 _ (by decide), ?_, howned _ _ _ (by decide +kernel) ?_, ?_⟩
  · decide +kernel
  · exact .run (some second) (.run (some first) .start)
  · have hadds : Adds ["data"] (some first) ["data", "zpl_templates", "b.zpl.j2"] (.file "B") :=
      .template rfl (by decide +kernel) (by decide +kernel)
    exact hpackaged _ _ _ hrun (by decide +kernel) hadds (hhistory _)

end ThermalLabel.Storage
