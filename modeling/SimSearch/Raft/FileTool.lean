import SimSearch.Raft.Reload

/-!
# Backups of a file

`BackupFile` of `utils/file_tool.cc`, on a directory of files and directories: the text that it
returns, and the directory afterwards.

The loop over the hundred suffixes does not stop after the renaming.  At the next suffix that no
file has, it renames the file once more, which is no longer there, and returns an error for a
backup that was made.  When files have all hundred names, nothing is renamed and nothing is
returned.

* `backupLoop_gone`: what the rest of the loop does once the file is gone.
* `backupFile_full`, `backupFile_stuck`, `backupFile_moved`: no suffix is free, the first free one
  cannot be taken, or the file is moved there.
* `backupFile_files`: on a directory of files this is `Raft.backupFile`, which
  `Engine::CreatOrLoad` calls before it copies the files of a snapshot.
-/

namespace SimSearch.Raft.FileTool

open SimSearch.Lib

/-! ### The directory -/

inductive Node
  | file (content : Bytes)
  | dir (entries : List (String × Bytes))
  deriving DecidableEq, Repr

abbrev Dir := Std.TreeMap String Node

def pathExists (d : Dir) (name : String) : Bool := d.contains name

def directoryExists (d : Dir) (name : String) : Bool :=
  match d[name]? with
  | some (.dir _) => true
  | _ => false

/-- Whether `rename` lets something take the place of what has the new name: a file that of a
file, and a directory that of an empty one. -/
def canReplace : Node → Option Node → Bool
  | _, none => true
  | .file _, some (.file _) => true
  | .dir _, some (.dir []) => true
  | _, _ => false

/-- `rename`: its result, and the directory afterwards.  The system may refuse it for other
reasons. -/
def rename (refused : Bool) (old new : String) (d : Dir) : Int × Dir :=
  match d[old]? with
  | none => (-1, d)
  | some n =>
    if refused = false ∧ canReplace n d[new]? = true then (0, (d.erase old).insert new n)
    else (-1, d)

/-! ### The backup -/

def newPathFile (filename : String) (i : Nat) : String := filename ++ toString i

def Taken (d : Dir) (filename : String) (i : Nat) : Prop :=
  pathExists d (newPathFile filename i) = true ∧
    directoryExists d (newPathFile filename i) = false

instance (d : Dir) (filename : String) (i : Nat) : Decidable (Taken d filename i) :=
  inferInstanceAs (Decidable (_ ∧ _))

section

variable (refused : Nat → Bool) (filename : String)

/-- The loop of `BackupFile` over the suffixes that are left. -/
def backupLoop : List Nat → Dir → String × Dir
  | [], d => ("", d)
  | i :: is, d =>
    if Taken d filename i then backupLoop is d
    else
      let (ret, d) := rename (refused i) filename (newPathFile filename i) d
      if ret ≠ 0 then
        (filename ++ " file rename to " ++ newPathFile filename i ++ " file failed", d)
      else backupLoop is d

def backupFile (d : Dir) : String × Dir :=
  if pathExists d filename = true then backupLoop refused filename (List.range 100) d else ("", d)

end

/-! ### Names -/

section

variable {refused : Nat → Bool} {filename : String} {d : Dir} {n : Node} {i : Nat}

theorem toList_toString_nat (i : Nat) : (toString i).toList = Nat.toDigits 10 i := by
  show (Nat.repr i).toList = _
  simp [Nat.repr]

theorem toString_nat_inj {i j : Nat} (h : toString i = toString j) : i = j := by
  have hvalue := congrArg (fun s : String => Nat.ofDigitChars 10 s.toList 0) h
  simpa only [toList_toString_nat, Nat.ofDigitChars_ten_toDigits] using hvalue

theorem newPathFile_inj {i j : Nat} (h : newPathFile filename i = newPathFile filename j) :
    i = j := by
  have hchars := congrArg String.toList h
  rw [newPathFile, newPathFile, String.toList_append, String.toList_append] at hchars
  exact toString_nat_inj (String.toList_inj.mp (List.append_cancel_left hchars))

theorem newPathFile_ne (i : Nat) : newPathFile filename i ≠ filename := by
  intro h
  have hchars := congrArg String.toList h
  rw [newPathFile, String.toList_append, toList_toString_nat, List.append_right_eq_self] at hchars
  exact Nat.toDigits_ne_nil hchars

theorem taken_iff :
    Taken d filename i ↔ ∃ content, d[newPathFile filename i]? = some (.file content) := by
  unfold Taken pathExists directoryExists
  rw [Std.TreeMap.contains_eq_isSome_getElem?]
  cases d[newPathFile filename i]? with
  | none => simp
  | some node => cases node <;> simp

def CanTake (refused : Nat → Bool) (d : Dir) (filename : String) (n : Node) (i : Nat) : Prop :=
  refused i = false ∧ canReplace n d[newPathFile filename i]? = true

def moved (d : Dir) (filename : String) (n : Node) (i : Nat) : Dir :=
  (d.erase filename).insert (newPathFile filename i) n

theorem getElem?_moved (g : String) : (moved d filename n i)[g]?
    = if newPathFile filename i = g then some n else if filename = g then none else d[g]? := by
  simp only [moved, Std.TreeMap.getElem?_insert, Std.TreeMap.getElem?_erase, compare_eq_iff_eq]

theorem getElem?_moved_self : (moved d filename n i)[filename]? = none := by
  rw [getElem?_moved, if_neg (newPathFile_ne i), if_pos rfl]

theorem getElem?_moved_suffix {j : Nat} (h : j ≠ i) :
    (moved d filename n i)[newPathFile filename j]? = d[newPathFile filename j]? := by
  rw [getElem?_moved, if_neg fun heq => h (newPathFile_inj heq).symm,
    if_neg (newPathFile_ne j).symm]

theorem rename_of_can (hfile : d[filename]? = some n) (h : CanTake refused d filename n i) :
    rename (refused i) filename (newPathFile filename i) d = (0, moved d filename n i) := by
  simp only [rename, hfile]
  exact if_pos h

theorem rename_of_not (hfile : d[filename]? = some n) (h : ¬ CanTake refused d filename n i) :
    rename (refused i) filename (newPathFile filename i) d = (-1, d) := by
  simp only [rename, hfile]
  exact if_neg h

/-! ### The loop -/

theorem backupLoop_taken {pre is : List Nat} (h : ∀ j ∈ pre, Taken d filename j) :
    backupLoop refused filename (pre ++ is) d = backupLoop refused filename is d := by
  induction pre with
  | nil => rfl
  | cons j pre ih =>
    obtain ⟨hj, hrest⟩ := List.forall_mem_cons.mp h
    rw [List.cons_append, backupLoop, if_pos hj, ih hrest]

theorem failed_ne_empty (filename newPath : String) :
    filename ++ " file rename to " ++ newPath ++ " file failed" ≠ "" := by
  intro h
  have hlast := (String.append_eq_empty_iff.mp h).2
  exact absurd hlast (by decide)

/-- **Once the file is gone**, the loop changes nothing, and it ends without an error only if
files have all the suffixes that are left. -/
theorem backupLoop_gone (h : d[filename]? = none) : ∀ is : List Nat,
    (backupLoop refused filename is d).2 = d ∧
      ((backupLoop refused filename is d).1 = "" ↔ ∀ j ∈ is, Taken d filename j) := by
  intro is
  induction is with
  | nil => exact ⟨rfl, fun _ _ hj => (nomatch hj), fun _ => rfl⟩
  | cons j is ih =>
    rw [List.forall_mem_cons]
    by_cases hj : Taken d filename j
    · rw [backupLoop, if_pos hj]
      exact ⟨ih.1, ih.2.trans ⟨fun hall => ⟨hj, hall⟩, fun hall => hall.2⟩⟩
    · rw [backupLoop, if_neg hj]
      simp only [rename, h]
      refine ⟨rfl, fun hmsg => ?_, fun hall => absurd hall.1 hj⟩
      exact absurd hmsg (failed_ne_empty _ _)

structure FirstFree (d : Dir) (filename : String) (i : Nat) : Prop where
  lt : i < 100
  free : ¬ Taken d filename i
  taken : ∀ j < i, Taken d filename j

theorem FirstFree.range_split (h : FirstFree d filename i) :
    List.range 100 = List.range i ++ i :: List.range' (i + 1) (99 - i) := by
  have hlt := h.lt
  have hcount : 100 = i + (99 - i + 1) := by omega
  have hsplit := @List.range'_append 0 i (99 - i + 1) 1
  rw [Nat.one_mul, Nat.zero_add, ← hcount] at hsplit
  rw [← List.range'_succ, List.range_eq_range', List.range_eq_range', hsplit]

theorem exists_firstFree (h : ¬ ∀ i < 100, Taken d filename i) : ∃ i, FirstFree d filename i := by
  classical
  push Not at h
  obtain ⟨hlt, hfree⟩ := Nat.find_spec h
  refine ⟨Nat.find h, hlt, hfree, fun j hj => ?_⟩
  by_contra hnot
  exact Nat.find_min h hj ⟨hj.trans hlt, hnot⟩

theorem FirstFree.unique {j : Nat} (h : FirstFree d filename i) (h' : FirstFree d filename j) :
    j = i := by
  rcases Nat.lt_trichotomy j i with hlt | heq | hlt
  · exact absurd (h.taken j hlt) h'.free
  · exact heq
  · exact absurd (h'.taken i hlt) h.free

theorem backupFile_absent (h : d[filename]? = none) : backupFile refused filename d = ("", d) := by
  rw [backupFile, if_neg]
  rw [pathExists, Std.TreeMap.contains_eq_isSome_getElem?, h]
  exact Bool.false_ne_true

section

variable (hfile : d[filename]? = some n)

include hfile

theorem backupFile_eq :
    backupFile refused filename d = backupLoop refused filename (List.range 100) d := by
  rw [backupFile, if_pos]
  rw [pathExists, Std.TreeMap.contains_eq_isSome_getElem?, hfile]
  rfl

/-- **All hundred names are taken**: nothing happens, and no error is returned. -/
theorem backupFile_full (h : ∀ i < 100, Taken d filename i) :
    backupFile refused filename d = ("", d) := by
  have hloop : backupLoop refused filename (List.range 100 ++ []) d
      = backupLoop refused filename [] d :=
    backupLoop_taken fun j hj => h j (List.mem_range.mp hj)
  rw [List.append_nil] at hloop
  rw [backupFile_eq hfile, hloop, backupLoop]

theorem backupFile_stuck (h : FirstFree d filename i) (hno : ¬ CanTake refused d filename n i) :
    (backupFile refused filename d).1 ≠ "" ∧ (backupFile refused filename d).2 = d := by
  rw [backupFile_eq hfile, h.range_split,
    backupLoop_taken fun j hj => h.taken j (List.mem_range.mp hj), backupLoop, if_neg h.free,
    rename_of_not hfile hno]
  exact ⟨failed_ne_empty _ _, rfl⟩

/-- **The file gets the first free name**, and then the loop goes on. -/
theorem backupFile_moved (h : FirstFree d filename i) (hcan : CanTake refused d filename n i) :
    (backupFile refused filename d).2 = moved d filename n i ∧
      ((backupFile refused filename d).1 = "" ↔ ∀ j, i < j → j < 100 → Taken d filename j) := by
  have hgone : (moved d filename n i)[filename]? = none := getElem?_moved_self
  obtain ⟨hdir, hmsg⟩ : (backupLoop refused filename (List.range' (i + 1) (99 - i))
      (moved d filename n i)).2 = moved d filename n i ∧ _ := backupLoop_gone hgone _
  have hloop : backupFile refused filename d
      = backupLoop refused filename (List.range' (i + 1) (99 - i)) (moved d filename n i) := by
    rw [backupFile_eq hfile, h.range_split,
      backupLoop_taken fun j hj => h.taken j (List.mem_range.mp hj), backupLoop, if_neg h.free,
      rename_of_can hfile hcan]
    rfl
  -- the later suffixes stand as they stood before
  have hsame : ∀ j, i < j → (Taken (moved d filename n i) filename j ↔ Taken d filename j) := by
    intro j hj
    rw [taken_iff, taken_iff, getElem?_moved_suffix (by omega)]
  rw [hloop]
  refine ⟨hdir, hmsg.trans ⟨fun hall j hij hj => ?_, fun hall j hj => ?_⟩⟩
  · exact (hsame j hij).mp (hall j (List.mem_range'_1.mpr (by omega)))
  · have hmem := List.mem_range'_1.mp hj
    exact (hsame j (by omega)).mpr (hall j (by omega) (by omega))

end

/-! ### What a backup keeps and what it says -/

/-- Everything but the file itself stands as before, an empty directory apart. -/
def Keeps (filename : String) (d d' : Dir) : Prop :=
  ∀ (g : String) (node : Node), g ≠ filename → d[g]? = some node → node ≠ .dir [] →
    d'[g]? = some node

/-- What the file was is under the first suffix that nothing had, and the file is gone. -/
def BackedUp (filename : String) (d d' : Dir) : Prop :=
  ∃ (n : Node) (i : Nat), d[filename]? = some n ∧ i < 100 ∧
    d[newPathFile filename i]? = none ∧ (∀ j < i, newPathFile filename j ∈ d) ∧
    d'[newPathFile filename i]? = some n ∧ d'[filename]? = none

/-- **What `BackupFile` returns is true**: it returns no error if and only if there was no file
or it is backed up. -/
def Truthful (filename : String) (d : Dir) (r : String × Dir) : Prop :=
  r.1 = "" ↔ d[filename]? = none ∨ BackedUp filename d r.2

theorem keeps_moved (hfree : ¬ Taken d filename i) (hcan : CanTake refused d filename n i) :
    Keeps filename d (moved d filename n i) := by
  intro g node hg hnode hdir
  rw [getElem?_moved, if_neg ?_, if_neg hg.symm, hnode]
  -- what could be replaced is no file, and an empty directory at most
  rintro rfl
  have hreplace := hcan.2
  rw [hnode] at hreplace
  cases node with
  | file content => exact hfree (taken_iff.mpr ⟨content, hnode⟩)
  | dir entries =>
    cases entries with
    | nil => exact hdir rfl
    | cons e es =>
      cases n with
      | file content => cases hreplace
      | dir es' => cases hreplace

theorem not_backedUp_self (hfile : d[filename]? = some n) : ¬ BackedUp filename d d := by
  rintro ⟨-, -, -, -, -, -, -, hgone⟩
  rw [hfile] at hgone
  cases hgone

/-- After the renaming the file is backed up, if nothing had the name before. -/
theorem backedUp_moved_iff (hfile : d[filename]? = some n) (h : FirstFree d filename i) :
    BackedUp filename d (moved d filename n i) ↔ d[newPathFile filename i]? = none := by
  constructor
  · rintro ⟨n', j, hn', -, hnone, -, hstored, -⟩
    by_cases hj : j = i
    · rw [← hj]
      exact hnone
    · rw [getElem?_moved_suffix hj, hnone] at hstored
      cases hstored
  · intro hnone
    refine ⟨n, i, hfile, h.lt, hnone, fun j hj => ?_, ?_, getElem?_moved_self⟩
    · obtain ⟨content, hcontent⟩ := taken_iff.mp (h.taken j hj)
      rw [Std.TreeMap.mem_iff_isSome_getElem?, hcontent]
      rfl
    · rw [getElem?_moved, if_pos rfl]

end

/-- **When a backup reports truthfully.**  In every directory a backup keeps everything else.  What
it returns is true exactly if there is no file, or some suffix is free and either the first free
one cannot be taken or files have all the later ones; in the odd case that an empty directory is
replaced, exactly if some later one is free. -/
theorem backup_truthful_iff (refused : Nat → Bool) (filename : String) (d : Dir) :
    Keeps filename d (backupFile refused filename d).2 ∧
    (Truthful filename d (backupFile refused filename d) ↔
      ∀ n, d[filename]? = some n → ∃ i, FirstFree d filename i ∧
        (CanTake refused d filename n i →
          (d[newPathFile filename i]? = none ↔ ∀ j, i < j → j < 100 → Taken d filename j))) := by
  cases hfile : d[filename]? with
  | none =>
    rw [backupFile_absent hfile]
    exact ⟨fun _ _ _ hnode _ => hnode,
      fun _ n hn => (nomatch hn), fun _ => ⟨fun _ => Or.inl hfile, fun _ => rfl⟩⟩
  | some n =>
    have hthere : ¬ d[filename]? = none := by
      rw [hfile]
      exact Option.some_ne_none n
    have hone : ∀ {P : Node → Prop}, (∀ n', some n = some n' → P n') ↔ P n :=
      ⟨fun h => h n rfl, fun h n' hn' => Option.some.inj hn' ▸ h⟩
    rw [hone]
    unfold Truthful
    by_cases hfull : ∀ i < 100, Taken d filename i
    · -- nothing happens and nothing is said
      rw [backupFile_full hfile hfull]
      refine ⟨fun _ _ _ hnode _ => hnode, fun htrue => ?_, ?_⟩
      · rcases htrue.mp rfl with hnone | hbacked
        · exact absurd hnone hthere
        · exact absurd hbacked (not_backedUp_self hfile)
      · rintro ⟨i, hfirst, -⟩
        exact absurd (hfull i hfirst.lt) hfirst.free
    · obtain ⟨i, hfirst⟩ := exists_firstFree hfull
      by_cases hcan : CanTake refused d filename n i
      · obtain ⟨hdir, hmsg⟩ := backupFile_moved hfile hfirst hcan
        rw [hdir, hmsg, backedUp_moved_iff hfile hfirst, or_iff_right hthere]
        refine ⟨keeps_moved hfirst.free hcan, fun htrue => ⟨i, hfirst, fun _ => htrue.symm⟩, ?_⟩
        rintro ⟨i', hfirst', htrue⟩
        rw [hfirst.unique hfirst'] at htrue
        exact (htrue hcan).symm
      · obtain ⟨hmsg, hdir⟩ := backupFile_stuck hfile hfirst hcan
        rw [hdir]
        refine ⟨fun _ _ _ hnode _ => hnode, fun _ => ⟨i, hfirst, fun h => absurd h hcan⟩, ?_⟩
        intro _
        refine ⟨fun h => absurd h hmsg, ?_⟩
        rintro (hnone | hbacked)
        · exact absurd hnone hthere
        · exact absurd hbacked (not_backedUp_self hfile)

def oneFile : Dir := (∅ : Dir).insert "a" (.file [7])

/-- The file is backed up under `a0` and gone, and the caller is told that the renaming to `a1`
failed. -/
theorem backup_denied :
    let r := backupFile (fun _ => false) "a" oneFile
    r.1 = "a file rename to a1 file failed" ∧ r.2[newPathFile "a" 0]? = some (.file [7]) ∧
      r.2["a"]? = none ∧ ¬ Truthful "a" oneFile r := by
  have hmsg : (backupFile (fun _ => false) "a" oneFile).1 = "a file rename to a1 file failed" := by
    decide +kernel
  have hstored : (backupFile (fun _ => false) "a" oneFile).2[newPathFile "a" 0]?
      = some (.file [7]) := by decide +kernel
  have hgone : (backupFile (fun _ => false) "a" oneFile).2["a"]? = none := by decide +kernel
  refine ⟨hmsg, hstored, hgone, fun htrue => ?_⟩
  have hbacked : BackedUp "a" oneFile (backupFile (fun _ => false) "a" oneFile).2 := by
    refine ⟨.file [7], 0, ?_, by decide, ?_, fun j hj => absurd hj (Nat.not_lt_zero j), hstored,
      hgone⟩
    · decide +kernel
    · decide +kernel
  have hempty := htrue.mpr (Or.inr hbacked)
  rw [hmsg] at hempty
  exact absurd hempty (by decide)

/-! ### The backups of the engine -/

def ofFiles (files : Files) : Dir := files.map fun _ content => .file content

theorem getElem?_ofFiles (files : Files) (g : String) :
    (ofFiles files)[g]? = files[g]?.map Node.file := Std.TreeMap.getElem?_map

theorem taken_ofFiles {files : Files} {filename : String} {i : Nat} :
    Taken (ofFiles files) filename i ↔ newPathFile filename i ∈ files := by
  rw [taken_iff, getElem?_ofFiles, Std.TreeMap.mem_iff_isSome_getElem?]
  cases files[newPathFile filename i]? with
  | none => simp
  | some content => simp

theorem find_none_iff {files : Files} {filename : String} :
    (List.range 100).find? (fun i => !files.contains (filename ++ toString i)) = none ↔
      ∀ i < 100, Taken (ofFiles files) filename i := by
  rw [List.find?_range_eq_none]
  refine forall_congr' fun i => imp_congr_right fun _ => ?_
  rw [Bool.not_not, taken_ofFiles, Std.TreeMap.mem_iff_contains, newPathFile]

theorem firstFree_of_find {files : Files} {filename : String} {i : Nat}
    (h : (List.range 100).find? (fun i => !files.contains (filename ++ toString i)) = some i) :
    FirstFree (ofFiles files) filename i := by
  obtain ⟨hfree, hlt, htaken⟩ := List.find?_range_eq_some.mp h
  refine ⟨List.mem_range.mp hlt, fun hi => ?_, fun j hj => ?_⟩
  · rw [taken_ofFiles, Std.TreeMap.mem_iff_contains, newPathFile] at hi
    rw [hi] at hfree
    cases hfree
  · have hj' := htaken j hj
    rw [Bool.not_not] at hj'
    exact taken_ofFiles.mpr (Std.TreeMap.mem_iff_contains.mpr hj')

theorem getElem?_backupFile {filename : String} {files : Files} {content : Bytes} {i : Nat}
    (hfile : files[filename]? = some content)
    (hfind : (List.range 100).find? (fun i => !files.contains (filename ++ toString i)) = some i)
    (g : String) : (Raft.backupFile filename files)[g]?
      = if newPathFile filename i = g then some content
        else if filename = g then none else files[g]? := by
  have hmoved : Raft.backupFile filename files
      = (files.erase filename).insert (newPathFile filename i) content := by
    simp only [Raft.backupFile, hfile, hfind]
    rfl
  simp only [hmoved, Std.TreeMap.getElem?_insert, Std.TreeMap.getElem?_erase, compare_eq_iff_eq]

/-- A backup makes no new contents. -/
theorem backupFile_contents {filename g : String} {files : Files} {content : Bytes}
    (h : (Raft.backupFile filename files)[g]? = some content) :
    files[g]? = some content ∨ files[filename]? = some content := by
  cases hfile : files[filename]? with
  | none =>
    simp only [Raft.backupFile, hfile] at h
    exact Or.inl h
  | some old =>
    cases hfind : (List.range 100).find? fun i => !files.contains (filename ++ toString i) with
    | none =>
      simp only [Raft.backupFile, hfile, hfind] at h
      exact Or.inl h
    | some i =>
      rw [getElem?_backupFile hfile hfind] at h
      split_ifs at h
      · exact Or.inr h
      · exact Or.inl h

/-- **On a directory of files this is `Raft.backupFile`**, as long as the system refuses
nothing. -/
theorem backupFile_files (filename : String) (files : Files) (g : String) :
    (backupFile (fun _ => false) filename (ofFiles files)).2[g]?
      = (Raft.backupFile filename files)[g]?.map Node.file := by
  cases hfile : files[filename]? with
  | none =>
    have habsent : (ofFiles files)[filename]? = none := by
      rw [getElem?_ofFiles, hfile]
      rfl
    have hold : Raft.backupFile filename files = files := by simp only [Raft.backupFile, hfile]
    rw [backupFile_absent habsent, hold, getElem?_ofFiles]
  | some content =>
    have hnode : (ofFiles files)[filename]? = some (.file content) := by
      rw [getElem?_ofFiles, hfile]
      rfl
    cases hfind : (List.range 100).find? fun i => !files.contains (filename ++ toString i) with
    | none =>
      have hold : Raft.backupFile filename files = files := by
        simp only [Raft.backupFile, hfile, hfind]
      rw [backupFile_full hnode (find_none_iff.mp hfind), hold, getElem?_ofFiles]
    | some i =>
      have hfirst := firstFree_of_find hfind
      have hnone : (ofFiles files)[newPathFile filename i]? = none := by
        have hnot := mt taken_ofFiles.mpr hfirst.free
        rw [getElem?_ofFiles, Std.TreeMap.getElem?_eq_none hnot]
        rfl
      have hcan : CanTake (fun _ => false) (ofFiles files) filename (.file content) i := by
        refine ⟨rfl, ?_⟩
        rw [hnone]
        rfl
      rw [(backupFile_moved hnode hfirst hcan).1, getElem?_moved, getElem?_backupFile hfile hfind,
        getElem?_ofFiles]
      split_ifs <;> rfl

/-- **A snapshot is loaded over the last copy.**  With the hundred names of the data file taken,
`BackupFile` returns no error, `CreatOrLoad` goes on, and what the data file held is then in no
file. -/
theorem copied_destroys {e : Engine} {snap files : Files} {data mata old : Bytes}
    (hdata : snap[dataFilename]? = some data) (hmata : snap[mataFilename]? = some mata)
    (hold : files[e.dataPath]? = some old) (hnew : data ≠ old ∧ mata ≠ old)
    (hfull : ∀ i < 100, newPathFile e.dataPath i ∈ files)
    (honly : ∀ g : String, g ≠ e.dataPath → files[g]? ≠ some old) :
    (backupFile (fun _ => false) e.dataPath (ofFiles files)).1 = "" ∧
      ∀ g : String, (e.copied snap files)[g]? ≠ some old := by
  have hnode : (ofFiles files)[e.dataPath]? = some (.file old) := by
    rw [getElem?_ofFiles, hold]
    rfl
  have htaken : ∀ i < 100, Taken (ofFiles files) e.dataPath i :=
    fun i hi => taken_ofFiles.mpr (hfull i hi)
  have hstay : Raft.backupFile e.dataPath files = files := by
    simp only [Raft.backupFile, hold, find_none_iff.mpr htaken]
  have hboth : snap.contains mataFilename ∧ snap.contains dataFilename := by
    rw [Std.TreeMap.contains_eq_isSome_getElem?, Std.TreeMap.contains_eq_isSome_getElem?, hdata,
      hmata]
    exact ⟨rfl, rfl⟩
  refine ⟨?_, fun g => ?_⟩
  · rw [backupFile_full hnode htaken]
  · rw [Engine.copied, if_pos hboth, copyFile_of_some hmata, copyFile_of_some hdata, hstay,
      Std.TreeMap.getElem?_insert, Std.TreeMap.getElem?_insert]
    split_ifs with hg hg'
    · exact fun heq => hnew.2 (Option.some.inj heq)
    · exact fun heq => hnew.1 (Option.some.inj heq)
    · intro heq
      rcases backupFile_contents heq with hthere | hthere
      · exact honly g (fun hne => hg' (compare_eq_iff_eq.mpr hne.symm)) hthere
      · exact honly e.mataPath (dataFile_ne_mataFile e.path).symm hthere

end SimSearch.Raft.FileTool
