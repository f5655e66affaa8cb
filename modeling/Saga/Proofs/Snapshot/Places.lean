import Saga.Proofs.Sequences
import Saga.Snapshot

/-!
# Where a snapshot is kept

A tree of files grows when what stood in it still stands and its directories are still directories
(`Grows`). Whatever a path leads to it leads to in every tree that grew from there, so a directory
that was made for a path need not be made again (`makeParents_again`), a file is read back where it
was written (`read_of_placeOfFile`), and the sidecar of a snapshot stands in another place of the
same directory (`placeOfFile_sidecarPath_ne`).
-/

namespace Saga

/-! ## Names -/

namespace Path

/-- What a text without slashes adds to another it adds to its last piece, if that text does not end
with a slash. -/
lemma splitOn_append {l : List Char} (hne : l ≠ []) (hlast : l.getLast? ≠ some '/') :
    ∃ first last, last ≠ [] ∧
      ∀ t, '/' ∉ t → (l ++ t).splitOn '/' = first ++ [last ++ t] := by
  induction l with
  | nil => exact absurd rfl hne
  | cons c l ih =>
    by_cases hl : l = []
    · subst hl
      have hc : c ≠ '/' := fun h => hlast (by rw [h]; rfl)
      refine ⟨[], [c], by simp, fun t ht => List.splitOn_eq_singleton ?_⟩
      simp [hc.symm, ht]
    · have hlast' : l.getLast? ≠ some '/' := by
        rwa [List.getLast?_cons_of_ne_nil hl] at hlast
      obtain ⟨first, last, hlastNe, hsplit⟩ := ih hl hlast'
      by_cases hc : c = '/'
      · refine ⟨[] :: first, last, hlastNe, fun t ht => ?_⟩
        rw [List.cons_append, List.splitOn_cons_eq_if_modifyHead, if_pos (by simp [hc]),
          hsplit t ht]
        rfl
      · cases first with
        | nil =>
          refine ⟨[], c :: last, by simp, fun t ht => ?_⟩
          rw [List.cons_append, List.splitOn_cons_eq_if_modifyHead, if_neg (by simp [hc]),
            hsplit t ht]
          rfl
        | cons piece first =>
          refine ⟨(c :: piece) :: first, last, hlastNe, fun t ht => ?_⟩
          rw [List.cons_append, List.splitOn_cons_eq_if_modifyHead, if_neg (by simp [hc]),
            hsplit t ht]
          rfl

/-- The names of a text that goes on without a slash. -/
lemma names_append {text more : String} (hne : text ≠ "") (hlast : text.toList.getLast? ≠ some '/')
    (hmore : '/' ∉ more.toList) :
    ∃ names name, (pieces text).filter (fun n => n ≠ "") = names ++ [name] ∧
      (pieces (text ++ more)).filter (fun n => n ≠ "") = names ++ [name ++ more] := by
  obtain ⟨first, last, hlastNe, hsplit⟩ := splitOn_append (by simpa using hne) hlast
  have htext := hsplit [] (by simp)
  have hboth := hsplit more.toList hmore
  rw [List.append_nil, List.append_nil] at htext
  refine ⟨(first.map String.ofList).filter fun n => n ≠ "", String.ofList last, ?_, ?_⟩
  · simp [pieces, htext, List.filter_append, hlastNe]
  · simp [pieces, hboth, List.filter_append, hlastNe]

/-- A path has the names between the slashes of its text, and ends with a slash if its text does. -/
lemma ofText_eq_ok {text : String} {p : Path} (h : ofText text = .ok p) :
    text ≠ "" ∧ p.names = (pieces text).filter (fun n => n ≠ "") ∧
      p.slash = (text.toList.getLast? = some '/' : Bool) := by
  unfold ofText at h
  split at h
  · cases h
  · next hempty =>
    split at h
    · cases h
    · cases h
      refine ⟨?_, rfl, rfl⟩
      rintro rfl
      exact hempty rfl

end Path

namespace Files
open Except (bind_eq_ok_iff)

/-! ## Trees that grow -/

/-- Whether a tree holds all that another holds, its directories as directories. -/
structure Grows (files later : Files) : Prop where
  workingDirectory : later.workingDirectory = files.workingDirectory
  stands : ∀ {place}, (files.node? place).isSome → (later.node? place).isSome
  directory : ∀ {place}, files.node? place = some .directory → later.node? place = some .directory

/-- After a put a node stands in its place, and the other places have what they had. -/
lemma node?_put {files : Files} {place : List String} (hplace : place ≠ []) (n : FileNode)
    (other : List String) :
    (files.put place n).node? other = if place = other then some n else files.node? other := by
  unfold node? put
  rw [Keyed.get?_insert]
  by_cases hother : other = []
  · simp [hother, hplace]
  · simp [hother]

/-- The root is a directory, so what is none has a name. -/
lemma ne_nil_of_node? {files : Files} {place : List String}
    (h : files.node? place ≠ some .directory) : place ≠ [] := by
  rintro rfl
  exact h rfl

variable {files later : Files} {path : String} {place : List String} {p : Path}

/-- A place is accepted as a directory just if it is one. -/
lemma requireDirectory_eq_ok_iff :
    files.requireDirectory place = .ok () ↔ files.node? place = some .directory := by
  unfold requireDirectory
  split <;> simp_all

/-- The name that leads to a place below a directory is its last one. -/
lemma child_eq_ok {name : String} {next : List String} (h : files.child place name = .ok next)
    (hdots : Path.isDots name = false) :
    files.node? place = some .directory ∧ next = place ++ [name] := by
  obtain ⟨_, hdir, h⟩ := bind_eq_ok_iff.1 h
  simp only [Path.isDots, Bool.or_eq_false_iff, decide_eq_false_iff_not] at hdots
  rw [if_neg hdots.1, if_neg hdots.2] at h
  split at h
  · cases h
  · cases h
    exact ⟨requireDirectory_eq_ok_iff.1 hdir, rfl⟩

/-- A walk takes its first step to something that is there, and goes on from it. -/
lemma walk_cons_eq_ok_iff {name : String} {names last : List String} :
    files.walk place (name :: names) = .ok last ↔
      ∃ next, files.child place name = .ok next ∧ (files.node? next).isSome = true ∧
        files.walk next names = .ok last := by
  rw [walk, bind_eq_ok_iff]
  apply exists_congr
  intro next
  cases files.node? next with
  | none => exact and_congr_right fun _ => ⟨nofun, nofun⟩
  | some n => exact and_congr_right fun _ => ⟨fun h => ⟨rfl, h⟩, fun h => h.2⟩

/-- A walk along two parts is one along the first and then along the second. -/
lemma walk_append_eq_ok_iff {names more last : List String} :
    files.walk place (names ++ more) = .ok last ↔
      ∃ next, files.walk place names = .ok next ∧ files.walk next more = .ok last := by
  induction names generalizing place with
  | nil => exact ⟨fun h => ⟨place, rfl, h⟩, fun ⟨_, hplace, h⟩ => Except.ok.inj hplace ▸ h⟩
  | cons name names ih =>
    simp only [List.cons_append, walk_cons_eq_ok_iff, ih]
    constructor
    · rintro ⟨next, hchild, hnode, between, hwalk, hmore⟩
      exact ⟨between, ⟨next, hchild, hnode, hwalk⟩, hmore⟩
    · rintro ⟨between, ⟨next, hchild, hnode, hwalk⟩, hmore⟩
      exact ⟨next, hchild, hnode, between, hwalk, hmore⟩

/-- A path is found at the end of its walk, which is a directory if the path ends with a slash. -/
lemma find_eq_ok_iff :
    files.find p = .ok place ↔ files.walk (files.start p) p.names = .ok place ∧
      (p.slash = true → files.node? place = some .directory) := by
  rw [find, bind_eq_ok_iff]
  constructor
  · rintro ⟨found, hwalk, h⟩
    split at h
    · obtain ⟨_, hdir, h⟩ := bind_eq_ok_iff.1 h
      cases h
      exact ⟨hwalk, fun _ => requireDirectory_eq_ok_iff.1 hdir⟩
    · next hslash =>
      cases h
      exact ⟨hwalk, fun h => absurd h hslash⟩
  · rintro ⟨hwalk, hslash⟩
    refine ⟨place, hwalk, ?_⟩
    split
    · next h => rw [requireDirectory_eq_ok_iff.2 (hslash h)]; rfl
    · rfl

/-- The place for a path is under its last name in the directory at the end of the others. -/
lemma placeFor_eq_ok_iff :
    files.placeFor p = .ok place ↔
      ∃ names name dir, p.names = names ++ [name] ∧ files.walk (files.start p) names = .ok dir ∧
        files.child dir name = .ok place ∧ Path.isDots name = false := by
  unfold placeFor
  cases hlast : p.names.getLast? with
  | none =>
    rw [List.getLast?_eq_none_iff] at hlast
    simp [hlast]
  | some name =>
    obtain ⟨names, hnames⟩ := List.getLast?_eq_some_iff.1 hlast
    have hdrop : p.names.dropLast = names := by rw [hnames, List.dropLast_concat]
    simp only [hdrop, bind_eq_ok_iff]
    constructor
    · rintro ⟨dir, hwalk, next, hchild, h⟩
      cases hdots : Path.isDots name with
      | true =>
        rw [hdots] at h
        cases h
      | false =>
        rw [hdots] at h
        cases h
        exact ⟨names, name, dir, hnames, hwalk, hchild, hdots⟩
    · rintro ⟨names', name', dir, hnames', hwalk, hchild, hdots⟩
      obtain ⟨rfl, heq⟩ := List.append_inj' (hnames.symm.trans hnames') rfl
      cases heq
      exact ⟨dir, hwalk, place, hchild, by rw [hdots]; rfl⟩

namespace Grows

/-- Files that grow and grow again have grown. -/
lemma trans {last : Files} (h : Grows files later) (h' : Grows later last) : Grows files last :=
  ⟨h'.workingDirectory.trans h.workingDirectory, fun hp => h'.stands (h.stands hp),
    fun hp => h'.directory (h.directory hp)⟩

/-- Something new in place of what is no directory. -/
lemma put (hplace : files.node? place ≠ some .directory) (n : FileNode) :
    Grows files (files.put place n) := by
  have hne := ne_nil_of_node? hplace
  refine ⟨rfl, fun {other} hother => ?_, fun {other} hother => ?_⟩
  · rw [node?_put hne]
    split
    · rfl
    · exact hother
  · rw [node?_put hne]
    split
    · next heq => exact absurd hother (heq ▸ hplace)
    · exact hother

/-- A step that could be taken can be taken in grown files. -/
lemma child (h : Grows files later) {name : String} {next : List String}
    (hchild : files.child place name = .ok next) : later.child place name = .ok next := by
  obtain ⟨_, hdir, hnext⟩ := bind_eq_ok_iff.1 hchild
  have hlater := h.directory (requireDirectory_eq_ok_iff.1 hdir)
  exact bind_eq_ok_iff.2 ⟨(), requireDirectory_eq_ok_iff.2 hlater, hnext⟩

/-- A walk that could be taken can be taken in grown files. -/
lemma walk (h : Grows files later) {names : List String} {last : List String}
    (hwalk : files.walk place names = .ok last) : later.walk place names = .ok last := by
  induction names generalizing place with
  | nil => exact hwalk
  | cons name names ih =>
    obtain ⟨next, hchild, hnode, hrest⟩ := walk_cons_eq_ok_iff.1 hwalk
    exact walk_cons_eq_ok_iff.2 ⟨next, h.child hchild, h.stands hnode, ih hrest⟩

/-- Paths start from where they did in grown files. -/
lemma start (h : Grows files later) (p : Path) : later.start p = files.start p := by
  unfold Files.start
  rw [h.workingDirectory]

/-- A path has its place in grown files where it had it. -/
lemma placeFor (h : Grows files later) (hplace : files.placeFor p = .ok place) :
    later.placeFor p = .ok place := by
  obtain ⟨names, name, dir, hnames, hwalk, hchild, hdots⟩ := placeFor_eq_ok_iff.1 hplace
  refine placeFor_eq_ok_iff.2 ⟨names, name, dir, hnames, ?_, h.child hchild, hdots⟩
  rw [h.start]
  exact h.walk hwalk

/-- A path is found in grown files where it was found. -/
lemma find (h : Grows files later) (hfind : files.find p = .ok place) :
    later.find p = .ok place := by
  obtain ⟨hwalk, hslash⟩ := find_eq_ok_iff.1 hfind
  refine find_eq_ok_iff.2 ⟨?_, fun hp => h.directory (hslash hp)⟩
  rw [h.start]
  exact h.walk hwalk

end Grows

/-! ## Directories -/

/-- There is a directory at a path just if the path is found and leads to one. -/
lemma hasDirectory_iff :
    files.hasDirectory path = true ↔
      ∃ p place, Path.ofText path = .ok p ∧ files.find p = .ok place ∧
        files.node? place = some .directory := by
  unfold hasDirectory
  cases hp : Path.ofText path with
  | error fault =>
    show false = true ↔ _
    simp
  | ok p =>
    have hbind : (Except.ok p).bind files.find = files.find p := rfl
    cases hfind : files.find p with
    | error fault => simp [hbind, hfind]
    | ok place => simp [hbind, hfind]

/-- A directory is still there in grown files. -/
lemma Grows.hasDirectory (h : Grows files later) (hdir : files.hasDirectory path = true) :
    later.hasDirectory path = true := by
  obtain ⟨p, place, hp, hfind, hnode⟩ := hasDirectory_iff.1 hdir
  exact hasDirectory_iff.2 ⟨p, place, hp, h.find hfind, h.directory hnode⟩

/-- What stands at the place that a path has for something new is found at the path. -/
lemma find_of_placeFor {n : FileNode} (h : files.placeFor p = .ok place)
    (hnode : files.node? place = some n) (hslash : p.slash = true → n = .directory) :
    files.find p = .ok place := by
  obtain ⟨names, name, dir, hnames, hwalk, hchild, -⟩ := placeFor_eq_ok_iff.1 h
  refine find_eq_ok_iff.2 ⟨?_, fun h => by rw [hnode, hslash h]⟩
  rw [hnames, walk_append_eq_ok_iff]
  refine ⟨dir, hwalk, walk_cons_eq_ok_iff.2 ⟨place, hchild, ?_, rfl⟩⟩
  rw [hnode]
  rfl

/-- Putting a node in a place succeeds if there is the place, and else changes nothing. -/
lemma putAt_run (place : Files → Except PathFault (List String)) (n : FileNode) (files : Files) :
    putAt place n files =
      match place files with
      | .ok place => .ok () (files.put place n)
      | .error fault => .error fault files := by
  show (match place files with
    | .ok place => set (files.put place n)
    | .error fault => throw fault : FileRun Unit) files = _
  cases place files <;> rfl

/-- What is found at a path is the place for something new, or it keeps that from coming. -/
lemma placeFor_of_find (h : files.find p = .ok place) :
    files.placeFor p = .ok place ∨ files.placeFor p = .error .occupied := by
  unfold placeFor
  cases hlast : p.names.getLast? with
  | none => exact .inr rfl
  | some name =>
    obtain ⟨names, hnames⟩ := List.getLast?_eq_some_iff.1 hlast
    obtain ⟨hwalk, -⟩ := find_eq_ok_iff.1 h
    rw [hnames, walk_append_eq_ok_iff] at hwalk
    obtain ⟨dir, hwalk, hstep⟩ := hwalk
    obtain ⟨found, hchild, -, hend⟩ := walk_cons_eq_ok_iff.1 hstep
    cases hend
    have hrun : (do
        let place ← files.walk (files.start p) p.names.dropLast
        let next ← files.child place name
        if Path.isDots name then throw .occupied else return next : Except PathFault _) =
        if Path.isDots name then .error .occupied else .ok place := by
      rw [hnames, List.dropLast_concat, hwalk]
      show files.child dir name >>= _ = _
      rw [hchild]
      rfl
    simp only [hrun]
    split
    · exact .inr rfl
    · exact .inl rfl

/-- The place that a path has for a directory. -/
def placeOfDirectory (path : String) (files : Files) : Except PathFault (List String) := do
  let place ← files.placeFor (← Path.ofText path)
  if (files.node? place).isSome then throw .occupied else return place

/-- Making a directory puts it in its place, or changes nothing. -/
lemma makeDirectory_run (path : String) (files : Files) :
    makeDirectory path files =
      match placeOfDirectory path files with
      | .ok place => .ok () (files.put place .directory)
      | .error fault => .error fault files :=
  putAt_run (placeOfDirectory path) _ files

/-- A directory is made where its path leads, in a place with nothing in it. -/
lemma placeOfDirectory_eq_ok (h : placeOfDirectory path files = .ok place) :
    ∃ p, Path.ofText path = .ok p ∧ files.placeFor p = .ok place ∧ files.node? place = none := by
  obtain ⟨p, hp, h⟩ := bind_eq_ok_iff.1 h
  obtain ⟨found, hfound, h⟩ := bind_eq_ok_iff.1 h
  split at h
  · cases h
  · next hnode =>
    cases h
    exact ⟨p, hp, hfound, by simpa using hnode⟩

/-- A directory that was made is found. -/
lemma makeDirectory_hasDirectory (h : makeDirectory path files = .ok () later) :
    later.hasDirectory path = true := by
  rw [makeDirectory_run] at h
  split at h
  · next place hplace =>
    cases h
    obtain ⟨p, hp, hplace, hnode⟩ := placeOfDirectory_eq_ok hplace
    have hfree : files.node? place ≠ some .directory := by rw [hnode]; nofun
    have hmade : (files.put place .directory).node? place = some .directory := by
      rw [node?_put (ne_nil_of_node? hfree), if_pos rfl]
    have hplace' := (Grows.put hfree .directory).placeFor hplace
    exact hasDirectory_iff.2 ⟨p, place, hp, find_of_placeFor hplace' hmade fun _ => rfl, hmade⟩
  · cases h

/-- A directory that is there is not made. -/
lemma makeDirectory_of_hasDirectory (h : files.hasDirectory path = true) :
    makeDirectory path files = .error .occupied files := by
  obtain ⟨p, place, hp, hfind, hnode⟩ := hasDirectory_iff.1 h
  have hoccupied : placeOfDirectory path files = .error .occupied := by
    unfold placeOfDirectory
    rw [hp]
    show files.placeFor p >>= _ = _
    rcases placeFor_of_find hfind with hplace | hplace
    · rw [hplace]
      show (if (files.node? place).isSome then throw PathFault.occupied else return place) = _
      rw [hnode]
      rfl
    · rw [hplace]
      rfl
  rw [makeDirectory_run, hoccupied]

/-- A fault is handled in the tree that it has left: what was done before stays done. -/
lemma run_catch {α : Type} (work : FileRun α) (handle : PathFault → FileRun α) (files : Files) :
    tryCatch work handle files =
      match work files with
      | .ok a later => .ok a later
      | .error fault later => handle fault later := by
  show EStateM.tryCatch work handle files = _
  unfold EStateM.tryCatch
  cases work files <;> rfl

/-- Ensuring a directory makes it, unless it is there. -/
lemma ensureDirectory_run (path : String) (files : Files) :
    ensureDirectory path files =
      match makeDirectory path files with
      | .ok _ later => .ok () later
      | .error fault later =>
        if fault = .occupied && later.hasDirectory path then .ok () later
        else .error fault later := by
  refine (run_catch (makeDirectory path) _ files).trans ?_
  cases makeDirectory path files with
  | ok _ later => rfl
  | error fault later =>
    show (if fault = PathFault.occupied && later.hasDirectory path then pure () else throw fault :
      FileRun Unit) later = if fault = .occupied && later.hasDirectory path then _ else _
    split <;> rfl

/-- An ensured directory is there. -/
lemma ensureDirectory_hasDirectory (h : ensureDirectory path files = .ok () later) :
    later.hasDirectory path = true := by
  rw [ensureDirectory_run] at h
  split at h
  · next hmade =>
    cases h
    exact makeDirectory_hasDirectory hmade
  · split at h
    · next hthere =>
      cases h
      exact (Bool.and_eq_true_iff.1 hthere).2
    · cases h

/-- A directory that is there is ensured without a change. -/
lemma ensureDirectory_of_hasDirectory (h : files.hasDirectory path = true) :
    ensureDirectory path files = .ok () files := by
  rw [ensureDirectory_run, makeDirectory_of_hasDirectory h]
  simp [h]

/-- A directory that cannot be made for lack of those above it is made after them. -/
lemma makeAll_cons_run (path : String) (above : List String) (files : Files) :
    makeAll (path :: above) files =
      match ensureDirectory path files with
      | .ok _ later => .ok () later
      | .error fault later =>
        if fault = .absent then
          match makeAll above later with
          | .ok _ last => ensureDirectory path last
          | .error fault last => .error fault last
        else .error fault later := by
  refine (run_catch (ensureDirectory path) _ files).trans ?_
  cases ensureDirectory path files with
  | ok _ later => rfl
  | error fault later =>
    simp only
    split
    · cases hmade : makeAll above later with
      | ok _ last => exact EStateM.bind_of_ok hmade
      | error fault last => exact EStateM.bind_of_error hmade
    · rfl

/-- After all directories were made the innermost is there. -/
lemma makeAll_hasDirectory {above : List String}
    (h : makeAll (path :: above) files = .ok () later) :
    later.hasDirectory path = true := by
  rw [makeAll_cons_run] at h
  cases hfirst : ensureDirectory path files with
  | ok _ made =>
    rw [hfirst] at h
    cases h
    exact ensureDirectory_hasDirectory hfirst
  | error fault left =>
    rw [hfirst] at h
    simp only at h
    split at h
    · split at h
      · exact ensureDirectory_hasDirectory h
      · cases h
    · cases h

/-- Once directories were made for a path, making them again in any tree that grew from there
changes nothing. -/
lemma makeParents_again {last : Files} (h : makeParents path files = .ok () later)
    (hgrows : Grows later last) : makeParents path last = .ok () last := by
  have hall : ∀ {paths}, makeAll paths files = .ok () later → makeAll paths last = .ok () last := by
    intro paths h
    cases paths with
    | nil => rfl
    | cons path above =>
      have hdir := hgrows.hasDirectory (makeAll_hasDirectory h)
      rw [makeAll_cons_run, ensureDirectory_of_hasDirectory hdir]
  unfold makeParents at *
  cases hparent : Path.parent? path with
  | none => rfl
  | some parent =>
    rw [hparent] at h
    exact hall h

/-! ## Files -/

/-- The place that a path has for a file. -/
def placeOfFile (path : String) (files : Files) : Except PathFault (List String) := do
  let p ← Path.ofText path
  let place ← files.placeFor p
  if p.slash || files.node? place = some .directory then throw .refused else return place

/-- Writing puts the file in its place, or changes nothing. -/
lemma write_run (path : String) (bytes : List UInt8) (files : Files) :
    write path bytes files =
      match placeOfFile path files with
      | .ok place => .ok () (files.put place (.file bytes))
      | .error fault => .error fault files :=
  putAt_run (placeOfFile path) _ files

/-- A file is written just if the path has a place for it. -/
lemma write_eq_ok_iff {bytes : List UInt8} :
    write path bytes files = .ok () later ↔
      ∃ place, placeOfFile path files = .ok place ∧ later = files.put place (.file bytes) := by
  rw [write_run]
  cases placeOfFile path files with
  | error fault => exact ⟨nofun, nofun⟩
  | ok place =>
    constructor
    · rintro ⟨⟩
      exact ⟨place, rfl, rfl⟩
    · rintro ⟨_, ⟨⟩, rfl⟩
      rfl

/-- A file is written where its path leads, unless the path ends with a slash or a directory is
there. -/
lemma placeOfFile_eq_ok_iff :
    placeOfFile path files = .ok place ↔
      ∃ p, Path.ofText path = .ok p ∧ files.placeFor p = .ok place ∧ p.slash = false ∧
        files.node? place ≠ some .directory := by
  unfold placeOfFile
  rw [bind_eq_ok_iff]
  apply exists_congr
  intro p
  rw [bind_eq_ok_iff]
  apply and_congr_right
  intro _
  constructor
  · rintro ⟨next, hnext, h⟩
    split at h
    · cases h
    · next hfree =>
      cases h
      simp only [Bool.or_eq_true, decide_eq_true_eq, not_or, Bool.not_eq_true] at hfree
      exact ⟨hnext, hfree⟩
  · rintro ⟨hnext, hslash, hfree⟩
    refine ⟨place, hnext, ?_⟩
    rw [if_neg (by simp [hslash, hfree])]
    rfl

/-- A file may be put in another place. -/
lemma placeOfFile_put {other : List String} (h : placeOfFile path files = .ok place)
    (hother : files.node? other ≠ some .directory) (bytes : List UInt8) :
    placeOfFile path (files.put other (.file bytes)) = .ok place := by
  obtain ⟨p, hp, hplace, hslash, hfree⟩ := placeOfFile_eq_ok_iff.1 h
  refine placeOfFile_eq_ok_iff.2 ⟨p, hp, (Grows.put hother _).placeFor hplace, hslash, ?_⟩
  rw [node?_put (ne_nil_of_node? hother)]
  split
  · nofun
  · exact hfree

/-- No file is written in place of a directory. -/
lemma node?_of_placeOfFile (h : placeOfFile path files = .ok place) :
    files.node? place ≠ some .directory := by
  obtain ⟨_, _, _, _, hfree⟩ := placeOfFile_eq_ok_iff.1 h
  exact hfree

/-- The file at the place that a path has for one is read at the path. -/
lemma read_of_placeOfFile {bytes : List UInt8} (h : placeOfFile path files = .ok place)
    (hnode : files.node? place = some (.file bytes)) : files.read path = .ok bytes := by
  obtain ⟨p, hp, hplace, hslash, -⟩ := placeOfFile_eq_ok_iff.1 h
  have hfind := find_of_placeFor hplace hnode (by simp [hslash])
  refine bind_eq_ok_iff.2 ⟨p, hp, bind_eq_ok_iff.2 ⟨place, hfind, ?_⟩⟩
  rw [hnode]
  rfl

/-- The sidecar of a snapshot has a place of its own. -/
lemma placeOfFile_sidecarPath_ne {place' : List String} (h : placeOfFile path files = .ok place)
    (h' : placeOfFile (Snapshot.sidecarPath path) later = .ok place') : place' ≠ place := by
  obtain ⟨p, hp, hplace, hslash, -⟩ := placeOfFile_eq_ok_iff.1 h
  obtain ⟨p', hp', hplace', -, -⟩ := placeOfFile_eq_ok_iff.1 h'
  obtain ⟨names, name, dir, hnames, -, hchild, hdots⟩ := placeFor_eq_ok_iff.1 hplace
  obtain ⟨names', name', dir', hnames', -, hchild', hdots'⟩ := placeFor_eq_ok_iff.1 hplace'
  obtain ⟨-, rfl⟩ := child_eq_ok hchild hdots
  obtain ⟨-, rfl⟩ := child_eq_ok hchild' hdots'
  obtain ⟨htext, hpnames, hpslash⟩ := Path.ofText_eq_ok hp
  obtain ⟨-, hpnames', -⟩ := Path.ofText_eq_ok hp'
  have hlast : path.toList.getLast? ≠ some '/' := by simpa [hslash] using hpslash
  have hmore : '/' ∉ ".meta.json".toList := by decide
  obtain ⟨all, last, hall, hall'⟩ := Path.names_append htext hlast hmore
  have hname : name = last := by
    simpa using (List.append_inj' (hnames.symm.trans (hpnames.trans hall)) rfl).2
  have hname' : name' = last ++ ".meta.json" := by
    simpa using (List.append_inj' (hnames'.symm.trans (hpnames'.trans hall')) rfl).2
  intro heq
  have hsame : name' = name := by simpa using (List.append_inj' heq rfl).2
  rw [hname, hname'] at hsame
  have hlength := congrArg String.length hsame
  rw [String.length_append] at hlength
  simp at hlength

/-- Writing that fails leaves everything as it was. -/
lemma eq_of_write_error {bytes : List UInt8} {fault : PathFault}
    (h : write path bytes files = .error fault later) : later = files := by
  rw [write_run] at h
  split at h
  · cases h
  · cases h
    rfl

/-- What was written is read. -/
lemma read_write {bytes : List UInt8} (h : write path bytes files = .ok () later) :
    later.read path = .ok bytes := by
  rw [write_run] at h
  cases hplace : placeOfFile path files with
  | error fault =>
    rw [hplace] at h
    cases h
  | ok place =>
    rw [hplace] at h
    cases h
    have hfree := node?_of_placeOfFile hplace
    refine read_of_placeOfFile (placeOfFile_put hplace hfree bytes) ?_
    rw [node?_put (ne_nil_of_node? hfree), if_pos rfl]

/-- What was written is read after its sidecar was written as well. -/
lemma read_write_sidecar {kept : Files} {bytes beside : List UInt8}
    (h : write path bytes files = .ok () kept)
    (h' : write (Snapshot.sidecarPath path) beside kept = .ok () later) :
    later.read path = .ok bytes := by
  rw [write_run] at h h'
  cases hplace : placeOfFile path files with
  | error fault =>
    rw [hplace] at h
    cases h
  | ok place =>
    rw [hplace] at h
    cases h
    cases hplace' : placeOfFile (Snapshot.sidecarPath path) (files.put place (.file bytes)) with
    | error fault =>
      rw [hplace'] at h'
      cases h'
    | ok place' =>
      rw [hplace'] at h'
      cases h'
      have hfree := node?_of_placeOfFile hplace
      have hfree' := node?_of_placeOfFile hplace'
      refine read_of_placeOfFile
        (placeOfFile_put (placeOfFile_put hplace hfree bytes) hfree' beside) ?_
      rw [node?_put (ne_nil_of_node? hfree'), if_neg (placeOfFile_sidecarPath_ne hplace hplace'),
        node?_put (ne_nil_of_node? hfree), if_pos rfl]

end Files

end Saga
