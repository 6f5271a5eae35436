import SimSearch.Raft.EngineFiles

/-!
# Loading a snapshot over an engine

`Engine::Snapshot` of one engine and then `Engine::CreatOrLoad` of the snapshot on another one,
which may have served before.

`Recorded` is what the engine and its files agree on after any run of `BatchAdd`, also one in
which writes stop early or fail: the index is what the whole records of the metadata file say.

* `recorded_run`: every run keeps it.
* `snapshot_files` and `copied_files`: the engine that loads gets both files, whatever it had in
  its directory.
* `getElem?_loaded`: but its index starts from what it was, because `_key_to_offset` is not
  cleared, so it has the entries of the snapshot over its own.
-/

namespace SimSearch.Raft

open SimSearch.Lib

/-! ### What is recorded -/

/-- Both files are there, the whole records of the metadata file are the index, and after them
comes less than one record; the places of the index lie before the end of the data. -/
structure Recorded (s : EngineState) : Prop where
  dataFile : s.engine.dataPath ∈ s.files
  mataFile : s.engine.mataPath ∈ s.files
  index : s.engine.keyToOffset = loadMata (s.mata.take s.engine.mataOffset) ∅
  whole : oneDocMataSize ∣ s.engine.mataOffset
  ended : s.engine.mataOffset ≤ s.mata.length
  torn : s.mata.length < s.engine.mataOffset + oneDocMataSize
  raw : s.engine.rawDataOffset ≤ s.data.length
  inside : ∀ key off size : Int, s.engine.keyToOffset[key]? = some (off, size) →
    0 ≤ off ∧ 0 ≤ size ∧ off + size ≤ s.engine.rawDataOffset

theorem loadMata_eq (mata : Bytes) (start : Std.TreeMap Int (Int × Int)) :
    loadMata mata start = foldRecords oneDocMataSize loadRecord start mata := rfl

/-- What is not a whole record is not loaded. -/
theorem Recorded.loadMata_mata {s : EngineState} (h : Recorded s)
    (start : Std.TreeMap Int (Int × Int)) :
    loadMata s.mata start = loadMata (s.mata.take s.engine.mataOffset) start := by
  have hlen : (s.mata.take s.engine.mataOffset).length = s.engine.mataOffset :=
    List.length_take_of_le h.ended
  have hwhole : oneDocMataSize ∣ (s.mata.take s.engine.mataOffset).length := by
    rw [hlen]
    exact h.whole
  have htail : (s.mata.drop s.engine.mataOffset).length < oneDocMataSize := by
    have hended := h.ended
    have htorn := h.torn
    rw [List.length_drop]
    omega
  have hsplit := foldRecords_append_tail loadRecord start hwhole htail
  rw [List.take_append_drop] at hsplit
  exact hsplit

/-! ### One turn of the loop -/

theorem Transfer.length_bytes_le (t : Transfer) (bs : Bytes) : (t.bytes bs).length ≤ bs.length := by
  cases t with
  | complete => exact Nat.le_refl _
  | stops n => exact List.length_take_le' n bs
  | fails => exact Nat.zero_le _

theorem Transfer.bytes_of_ret {t : Transfer} {bs : Bytes} (h : t.ret bs = bs.length) :
    t.bytes bs = bs := by
  cases t with
  | complete => rfl
  | stops n =>
    have hlen : ((bs.take n).length : Int) = bs.length := h
    have hle : bs.length ≤ n := by
      rw [List.length_take] at hlen
      omega
    exact List.take_of_length_le hle
  | fails =>
    have hneg : (-1 : Int) = bs.length := h
    omega

theorem Transfer.length_bytes_lt {t : Transfer} {bs : Bytes} (h : t.ret bs ≠ bs.length)
    (hpos : 0 < bs.length) : (t.bytes bs).length < bs.length := by
  refine Nat.lt_of_le_of_ne (t.length_bytes_le bs) fun hlen => ?_
  cases t with
  | complete => exact h rfl
  | stops n => exact h (congrArg Int.ofNat hlen)
  | fails => exact absurd hlen (Nat.ne_of_lt hpos)

def EngineState.writeData (s : EngineState) (bs : Bytes) : EngineState :=
  { s with files := writeFile s.files s.engine.dataPath s.engine.rawDataOffset bs }

def EngineState.writeMata (s : EngineState) (bs : Bytes) : EngineState :=
  { s with files := writeFile s.files s.engine.mataPath s.engine.mataOffset bs }

theorem data_writeData (s : EngineState) (bs : Bytes) :
    (s.writeData bs).data = writeAt 0 s.data s.engine.rawDataOffset bs := getD_writeFile_self ..

theorem mata_writeData (s : EngineState) (bs : Bytes) : (s.writeData bs).mata = s.mata :=
  getD_writeFile_of_ne (dataFile_ne_mataFile s.engine.path) _ _ _

theorem data_writeMata (s : EngineState) (bs : Bytes) : (s.writeMata bs).data = s.data :=
  getD_writeFile_of_ne (dataFile_ne_mataFile s.engine.path).symm _ _ _

theorem mata_writeMata (s : EngineState) (bs : Bytes) :
    (s.writeMata bs).mata = writeAt 0 s.mata s.engine.mataOffset bs := getD_writeFile_self ..

theorem data_added_eq (s : EngineState) (key : Int32) (dataLen : Int16) (raw : Bytes) :
    (added s.engine.path s key dataLen raw).data = (s.writeData raw).data :=
  data_writeMata (s.writeData raw) _

theorem mata_added_eq (s : EngineState) (key : Int32) (dataLen : Int16) (raw : Bytes) :
    (added s.engine.path s key dataLen raw).mata
      = writeAt 0 s.mata s.engine.mataOffset (mataRecord key s.engine.rawDataOffset dataLen) := by
  rw [← mata_writeData s raw]
  exact mata_writeMata (s.writeData raw) _

theorem recorded_writeData {s : EngineState} (h : Recorded s) (bs : Bytes) :
    Recorded (s.writeData bs) ∧
      s.engine.rawDataOffset + bs.length ≤ (s.writeData bs).data.length := by
  have hmata := mata_writeData s bs
  have hdata : (s.writeData bs).data.length
      = max s.data.length (s.engine.rawDataOffset + bs.length) := by
    rw [data_writeData, length_writeAt 0 h.raw bs]
  refine ⟨⟨?_, ?_, ?_, h.whole, ?_, ?_, ?_, h.inside⟩, ?_⟩
  · exact Std.TreeMap.mem_insert_self
  · exact Std.TreeMap.mem_insert.mpr (Or.inr h.mataFile)
  · rw [hmata]
    exact h.index
  · rw [hmata]
    exact h.ended
  · rw [hmata]
    exact h.torn
  · rw [hdata]
    exact Nat.le_trans h.raw (Nat.le_max_left _ _)
  · rw [hdata]
    exact Nat.le_max_right _ _

/-- A part of a record is not recorded. -/
theorem recorded_writeMata {s : EngineState} (h : Recorded s) {bs : Bytes}
    (hbs : bs.length < oneDocMataSize) : Recorded (s.writeMata bs) := by
  have hdata := data_writeMata s bs
  have hmata := mata_writeMata s bs
  have htorn := h.torn
  refine ⟨?_, ?_, ?_, h.whole, ?_, ?_, ?_, h.inside⟩
  · exact Std.TreeMap.mem_insert.mpr (Or.inr h.dataFile)
  · exact Std.TreeMap.mem_insert_self
  · have htake : (s.writeMata bs).mata.take s.engine.mataOffset
        = s.mata.take s.engine.mataOffset := by
      rw [hmata, take_writeAt 0 h.ended]
    exact h.index.trans (congrArg (loadMata · ∅) htake.symm)
  · rw [hmata, length_writeAt 0 h.ended]
    exact Nat.le_trans h.ended (Nat.le_max_left _ _)
  · rw [hmata, length_writeAt 0 h.ended]
    show max s.mata.length (s.engine.mataOffset + bs.length) < s.engine.mataOffset + oneDocMataSize
    omega
  · rw [hdata]
    exact h.raw

/-- A whole record after the bytes of its document is one more entry of the index. -/
theorem recorded_added {s : EngineState} {raw : Bytes} (h : Recorded (s.writeData raw))
    (key : Int32) {dataLen : Int16} (hlen : 0 ≤ dataLen.toInt)
    (hoff : s.engine.rawDataOffset < 2 ^ 63)
    (hdata : s.engine.rawDataOffset + dataLen.toInt.toNat ≤ (s.writeData raw).data.length) :
    Recorded (added s.engine.path s key dataLen raw) := by
  have hdata' := data_added_eq s key dataLen raw
  have htake : ((s.writeData raw).mata.take s.engine.mataOffset).length = s.engine.mataOffset :=
    List.length_take_of_le h.ended
  have hmata : (added s.engine.path s key dataLen raw).mata
      = (s.writeData raw).mata.take s.engine.mataOffset
        ++ mataRecord key s.engine.rawDataOffset dataLen := by
    rw [mata_added_eq, ← mata_writeData s raw]
    refine writeAt_of_length_le 0 h.ended ?_
    rw [length_mataRecord]
    exact Nat.le_of_lt h.torn
  have hlength : (added s.engine.path s key dataLen raw).mata.length
      = s.engine.mataOffset + oneDocMataSize := by
    rw [hmata, List.length_append, htake, length_mataRecord]
  refine ⟨?_, ?_, ?_, ?_, ?_, ?_, ?_, ?_⟩
  · exact Std.TreeMap.mem_insert.mpr (Or.inr h.dataFile)
  · exact Std.TreeMap.mem_insert_self
  · -- the new record is the last one that is loaded
    have hwhole : oneDocMataSize ∣ ((s.writeData raw).mata.take s.engine.mataOffset).length := by
      rw [htake]
      exact h.whole
    have hload := foldRecords_append_record loadRecord ∅ hwhole
      (length_mataRecord key s.engine.rawDataOffset dataLen) (by decide)
    have hall : (added s.engine.path s key dataLen raw).mata.take
        (added s.engine.path s key dataLen raw).engine.mataOffset
          = (added s.engine.path s key dataLen raw).mata :=
      List.take_of_length_le (Nat.le_of_eq hlength)
    have hindex : s.engine.keyToOffset
        = loadMata ((s.writeData raw).mata.take s.engine.mataOffset) ∅ := h.index
    rw [hall, hmata, loadMata_eq, hload, ← loadMata_eq, ← hindex, loadRecord_record hoff]
    rfl
  · exact (Nat.dvd_add_right h.whole).mpr (Nat.dvd_refl _)
  · rw [hlength]
    exact Nat.le_refl _
  · rw [hlength]
    exact Nat.lt_add_of_pos_right (by decide)
  · rw [hdata']
    exact hdata
  · intro k off size hk
    have hk : (s.engine.keyToOffset.insert key.toInt
        ((s.engine.rawDataOffset : Int), dataLen.toInt))[k]? = some (off, size) := hk
    show 0 ≤ off ∧ 0 ≤ size ∧
      off + size ≤ ((s.engine.rawDataOffset + dataLen.toInt.toNat : Nat) : Int)
    rw [Std.TreeMap.getElem?_insert] at hk
    split_ifs at hk with hkey
    · obtain ⟨rfl, rfl⟩ := Prod.mk.inj (Option.some.inj hk)
      omega
    · have hold : 0 ≤ off ∧ 0 ≤ size ∧ off + size ≤ s.engine.rawDataOffset :=
        h.inside k off size hk
      omega

theorem append_ne_empty {a : String} (h : a ≠ "") (b : String) : a ++ b ≠ "" := by
  intro heq
  exact h (String.append_eq_empty_iff.mp heq).1

/-- **What one turn of the loop of `BatchAdd` can do**: the data is not written in full, the
record is not, or the document is added. -/
theorem addDoc_cases (s : EngineState) (key : Int32) {dataLen : Int16} {raw : Bytes}
    (out : AddOutcome) (hraw : (raw.length : Int) = dataLen.toInt) {msg : String} {e : Engine}
    {files : Files} (h : s.engine.addDoc s.files key dataLen raw out = (msg, e, files)) :
    (msg ≠ "" ∧ ∃ bs, (⟨e, files⟩ : EngineState) = s.writeData bs) ∨
    (msg ≠ "" ∧ ∃ bs, bs.length < oneDocMataSize ∧
      (⟨e, files⟩ : EngineState) = (s.writeData raw).writeMata bs) ∨
    (msg = "" ∧ (⟨e, files⟩ : EngineState) = added s.engine.path s key dataLen raw) := by
  have hlen := length_mataRecord key s.engine.rawDataOffset dataLen
  unfold Engine.addDoc at h
  simp only at h
  by_cases hret : out.data.ret raw ≠ dataLen.toInt
  · rw [if_pos hret] at h
    obtain ⟨rfl, hstate⟩ := Prod.mk.inj h
    obtain ⟨rfl, rfl⟩ := Prod.mk.inj hstate
    refine Or.inl ⟨?_, out.data.bytes raw, rfl⟩
    rw [String.append_assoc, String.append_assoc]
    exact append_ne_empty (by decide) _
  · rw [if_neg hret] at h
    rw [not_not, ← hraw] at hret
    rw [Transfer.bytes_of_ret hret] at h
    by_cases hret' : out.mata.ret (mataRecord key s.engine.rawDataOffset dataLen) ≠ oneDocMataSize
    · rw [if_pos hret'] at h
      obtain ⟨rfl, hstate⟩ := Prod.mk.inj h
      obtain ⟨rfl, rfl⟩ := Prod.mk.inj hstate
      rw [← hlen] at hret'
      refine Or.inr (Or.inl ⟨?_, _, ?_, rfl⟩)
      · rw [String.append_assoc, String.append_assoc]
        exact append_ne_empty (by decide) _
      · exact Nat.lt_of_lt_of_eq (Transfer.length_bytes_lt hret' (by rw [hlen]; decide)) hlen
    · rw [if_neg hret'] at h
      rw [not_not, ← hlen] at hret'
      rw [Transfer.bytes_of_ret hret'] at h
      obtain ⟨rfl, hstate⟩ := Prod.mk.inj h
      obtain ⟨rfl, rfl⟩ := Prod.mk.inj hstate
      exact Or.inr (Or.inr ⟨rfl, rfl⟩)

/-- **One turn of the loop of `BatchAdd`**, however its writes end. -/
theorem recorded_addDoc {s : EngineState} (h : Recorded s) (key : Int32) {dataLen : Int16}
    {raw : Bytes} (out : AddOutcome) (hraw : (raw.length : Int) = dataLen.toInt)
    (hoff : s.engine.rawDataOffset < 2 ^ 63) :
    Recorded ⟨(s.engine.addDoc s.files key dataLen raw out).2.1,
        (s.engine.addDoc s.files key dataLen raw out).2.2⟩ ∧
      (s.engine.addDoc s.files key dataLen raw out).2.1.rawDataOffset
        ≤ s.engine.rawDataOffset + dataLen.toInt.toNat := by
  obtain ⟨⟨msg, e, files⟩, hadd⟩ : ∃ r, s.engine.addDoc s.files key dataLen raw out = r := ⟨_, rfl⟩
  have hoffset : ∀ {s' : EngineState}, (⟨e, files⟩ : EngineState) = s' →
      e.rawDataOffset = s'.engine.rawDataOffset := fun heq => by rw [← heq]
  rw [hadd]
  rcases addDoc_cases s key out hraw hadd with ⟨-, bs, hs⟩ | ⟨-, bs, hbs, hs⟩ | ⟨-, hs⟩
  · refine ⟨hs ▸ (recorded_writeData h bs).1, ?_⟩
    rw [hoffset hs]
    exact Nat.le_add_right _ _
  · refine ⟨hs ▸ recorded_writeMata (recorded_writeData h raw).1 hbs, ?_⟩
    rw [hoffset hs]
    exact Nat.le_add_right _ _
  · obtain ⟨hdata, hlen⟩ := recorded_writeData h raw
    have hnonneg : 0 ≤ dataLen.toInt := by omega
    have hnat : dataLen.toInt.toNat = raw.length := by omega
    rw [← hnat] at hlen
    refine ⟨hs ▸ recorded_added hdata key hnonneg hoff hlen, ?_⟩
    rw [hoffset hs]
    exact Nat.le_refl _

/-! ### Runs of calls -/

/-- What a call may be when its writes may fail: its lengths are at least zero and fit into the
data, no offset leaves the range of an `int64_t`, and the metadata file stays below `2 ^ 31`
bytes. -/
structure AddFits (s : EngineState) (c : AddCall) : Prop where
  nonneg : ∀ kv ∈ c.kvList, 0 ≤ kv.2.toInt
  fits : (c.kvList.map fun kv => kv.2.toInt).sum ≤ c.data.length
  offsets : s.engine.rawDataOffset + c.data.length < 2 ^ 63
  below : (addStep s c).mata.length < 2 ^ 31

theorem recorded_batchAddFrom {data : Bytes} {out : Nat → AddOutcome} :
    ∀ (kvs : List (Int32 × Int16)) (i allLen : Nat) {s : EngineState}, Recorded s →
      (∀ kv ∈ kvs, 0 ≤ kv.2.toInt) →
      (allLen : Int) + (kvs.map fun kv => kv.2.toInt).sum ≤ data.length →
      s.engine.rawDataOffset + (data.length - allLen) < 2 ^ 63 →
      Recorded ⟨(Engine.batchAddFrom data out s.engine s.files kvs i allLen).2.1,
        (Engine.batchAddFrom data out s.engine s.files kvs i allLen).2.2⟩ := by
  intro kvs
  induction kvs with
  | nil => intro i allLen s h _ _ _; exact h
  | cons kv kvs ih =>
    intro i allLen s h hnonneg hfits hoff
    obtain ⟨hlen, hraw, hrest, hfits'⟩ := batch_turn hnonneg hfits
    obtain ⟨hturn, hle⟩ := recorded_addDoc h kv.1 (out i) hraw (by omega)
    simp only [Engine.batchAddFrom]
    split_ifs with hmsg
    · exact hturn
    · refine ih (i + 1) (allLen + kv.2.toInt.toNat) hturn hrest hfits' ?_
      show (s.engine.addDoc s.files kv.1 kv.2 _ (out i)).2.1.rawDataOffset + _ < _
      omega

theorem recorded_addStep {s : EngineState} (h : Recorded s) {c : AddCall} (hc : AddFits s c) :
    Recorded (addStep s c) := by
  have hfits := hc.fits
  have hoffsets := hc.offsets
  exact recorded_batchAddFrom c.kvList 0 0 h hc.nonneg (by omega) (by omega)

/-- The files that an engine may be opened on: the metadata file is whole records, and their
places lie in the data file.  Files that are not there are so. -/
structure FilesOk (path : String) (files : Files) : Prop where
  whole : oneDocMataSize ∣ (files[path ++ mataFilename]?.getD []).length
  inside : ∀ key off size : Int,
    (loadMata (files[path ++ mataFilename]?.getD []) ∅)[key]? = some (off, size) →
      0 ≤ off ∧ 0 ≤ size ∧ off + size ≤ (files[path ++ dataFilename]?.getD []).length

theorem filesOk_empty {path : String} {files : Files}
    (hmata : files[path ++ mataFilename]?.getD [] = []) : FilesOk path files := by
  constructor
  · rw [hmata]
    exact Nat.dvd_zero _
  · intro key off size hkey
    rw [hmata] at hkey
    cases hkey

theorem recorded_opened {path : String} {files : Files} (h : FilesOk path files) :
    Recorded (opened path files) := by
  have hfile : (opened path files).engine.dataPath ∈ (opened path files).files ∧
      (opened path files).engine.mataPath ∈ (opened path files).files := by
    rw [opened_eq]
    exact ⟨Std.TreeMap.mem_insert.mpr (Or.inr Std.TreeMap.mem_insert_self),
      Std.TreeMap.mem_insert_self⟩
  refine ⟨hfile.1, hfile.2, ?_, ?_, ?_, ?_, ?_, ?_⟩
  · rw [mata_opened, engine_opened, List.take_of_length_le (Nat.le_refl _)]
  · rw [engine_opened]
    exact h.whole
  · rw [mata_opened, engine_opened]
  · rw [mata_opened, engine_opened]
    exact Nat.lt_add_of_pos_right (by decide)
  · rw [data_opened, engine_opened]
  · rw [engine_opened]
    exact h.inside

theorem recorded_run {path : String} {files : Files} (h : FilesOk path files)
    {s : EngineState} (hs : Reach addStep AddFits (opened path files) s) : Recorded s :=
  Reach.invariant Recorded (recorded_opened h) (fun _ _ hrec hc => recorded_addStep hrec hc) hs

/-! ### A snapshot on another engine -/

theorem copyFile_of_some {src : String} {source : Files} {content : Bytes}
    (h : source[src]? = some content) (dst : String) (target : Files) :
    copyFile src dst source target = target.insert dst content := by
  unfold copyFile
  rw [h]

theorem getD_of_mem {files : Files} {name : String} (h : name ∈ files) :
    files[name]? = some (files[name]?.getD []) := by
  obtain ⟨content, hcontent⟩ := Option.isSome_iff_exists.mp
    (Std.TreeMap.mem_iff_isSome_getElem?.mp h)
  rw [hcontent]
  rfl

theorem snapshot_files {s : EngineState} (h : Recorded s) :
    (s.engine.snapshot s.files)[dataFilename]? = some s.data ∧
      (s.engine.snapshot s.files)[mataFilename]? = some s.mata := by
  have hsnap : s.engine.snapshot s.files
      = ((∅ : Files).insert dataFilename s.data).insert mataFilename s.mata := by
    show copyFile s.engine.mataPath mataFilename s.files
      (copyFile s.engine.dataPath dataFilename s.files ∅) = _
    rw [copyFile_of_some (getD_of_mem h.dataFile), copyFile_of_some (getD_of_mem h.mataFile)]
    rfl
  rw [hsnap]
  refine ⟨?_, Std.TreeMap.getElem?_insert_self⟩
  rw [Std.TreeMap.getElem?_insert, if_neg (by decide), Std.TreeMap.getElem?_insert_self]

/-- Whatever the engine had in its directory, it opens the files of the snapshot. -/
theorem copied_files {snap : Files} {data mata : Bytes} (hdata : snap[dataFilename]? = some data)
    (hmata : snap[mataFilename]? = some mata) (e : Engine) (files : Files) :
    (e.copied snap files)[e.dataPath]? = some data ∧
      (e.copied snap files)[e.mataPath]? = some mata := by
  have hboth : snap.contains mataFilename ∧ snap.contains dataFilename := by
    rw [Std.TreeMap.contains_eq_isSome_getElem?, Std.TreeMap.contains_eq_isSome_getElem?, hdata,
      hmata]
    exact ⟨rfl, rfl⟩
  have hne : e.mataPath ≠ e.dataPath := (dataFile_ne_mataFile e.path).symm
  rw [Engine.copied, if_pos hboth, copyFile_of_some hmata, copyFile_of_some hdata]
  refine ⟨?_, Std.TreeMap.getElem?_insert_self⟩
  rw [Std.TreeMap.getElem?_insert, if_neg (by simpa using hne), Std.TreeMap.getElem?_insert_self]

/-- The load loop puts its records over the index that it finds. -/
theorem getElem?_loadMata (mata : Bytes) (start : Std.TreeMap Int (Int × Int)) (k : Int) :
    (loadMata mata start)[k]? = (loadMata mata ∅)[k]?.or start[k]? :=
  getElem?_foldl_insert_or _ _ start k _

/-- **The index after a load** is the one of the engine that took the snapshot, over the one of
the engine that loads it. -/
theorem getElem?_loaded {s : EngineState} (h : Recorded s) (e : Engine) (files : Files) (k : Int) :
    (e.loaded (s.engine.snapshot s.files) files).engine.keyToOffset[k]?
      = s.engine.keyToOffset[k]?.or e.keyToOffset[k]? := by
  obtain ⟨hdata, hmata⟩ := snapshot_files h
  have hcopied := (copied_files hdata hmata e files).2
  show (loadMata ((e.copied _ files)[e.mataPath]?.getD []) e.keyToOffset)[k]? = _
  rw [hcopied, Option.getD_some, h.loadMata_mata, getElem?_loadMata, ← h.index]

theorem data_loaded_snapshot {s : EngineState} (h : Recorded s) (e : Engine) (files : Files) :
    (e.loaded (s.engine.snapshot s.files) files).data = s.data := by
  obtain ⟨hdata, hmata⟩ := snapshot_files h
  rw [data_loaded, (copied_files hdata hmata e files).1]
  rfl

theorem get_congr {s s' : EngineState} {key : Int32}
    (hplace : s.engine.keyToOffset[key.toInt]? = s'.engine.keyToOffset[key.toInt]?)
    (hdata : s.data = s'.data) (out : Transfer) :
    s.engine.get s.files key out = s'.engine.get s'.files key out := by
  have hd : s.files[s.engine.dataPath]?.getD [] = s'.files[s'.engine.dataPath]?.getD [] := hdata
  simp only [Engine.get, hplace, hd]

theorem get_of_none {e : Engine} {key : Int32} (h : e.keyToOffset[key.toInt]? = none)
    (files : Files) (out : Transfer) : e.get files key out = [] := by
  simp only [Engine.get, h]

theorem length_get {e : Engine} {key : Int32} {off size : Int}
    (h : e.keyToOffset[key.toInt]? = some (off, size)) (files : Files) (out : Transfer) :
    (e.get files key out).length = size.toNat := by
  have hle : (out.bytes (readAt (files[e.dataPath]?.getD []) off.toNat size.toNat)).length
      ≤ size.toNat := Nat.le_trans (out.length_bytes_le _) (List.length_take_le _ _)
  simp only [Engine.get, h, List.length_append, List.length_replicate]
  omega

/-- **What a load replaces**: after any run of calls on one engine, the load of its snapshot on
another one succeeds, and then `Get` agrees for a key exactly if it is a key of the first engine
or the second one had no bytes for it.  Of the other keys the second engine keeps the places, in
a data file that is not theirs. -/
theorem load_replaces_iff {path : String} {files : Files} (hfiles : FilesOk path files)
    {s : EngineState} (hs : Reach addStep AddFits (opened path files) s) (e₂ : Engine)
    (files₂ : Files) :
    (e₂.creatOrLoad (s.engine.snapshot s.files) {} files₂).1 = "" ∧
    ∀ (key : Int32) (out : Transfer),
      ((e₂.creatOrLoad (s.engine.snapshot s.files) {} files₂).2.1.get
          (e₂.creatOrLoad (s.engine.snapshot s.files) {} files₂).2.2 key out
          = s.engine.get s.files key out ↔
        ∀ off size : Int, e₂.keyToOffset[key.toInt]? = some (off, size) → 0 < size →
          key.toInt ∈ s.engine.keyToOffset) := by
  have h := recorded_run hfiles hs
  rw [creatOrLoad_loaded]
  refine ⟨rfl, fun key out => ?_⟩
  have hindex := getElem?_loaded h e₂ files₂ key.toInt
  have hdata := data_loaded_snapshot h e₂ files₂
  rw [Std.TreeMap.mem_iff_isSome_getElem?]
  cases hplace : s.engine.keyToOffset[key.toInt]? with
  | some place =>
    rw [hplace, Option.some_or] at hindex
    exact ⟨fun _ _ _ _ _ => rfl, fun _ => get_congr (hindex.trans hplace.symm) hdata out⟩
  | none =>
    rw [hplace, Option.none_or] at hindex
    rw [get_of_none hplace]
    cases hold : e₂.keyToOffset[key.toInt]? with
    | none =>
      rw [hold] at hindex
      exact ⟨fun _ _ _ hsome => (nomatch hsome), fun _ => get_of_none hindex _ out⟩
    | some place =>
      obtain ⟨off, size⟩ := place
      rw [hold] at hindex
      have hlen := length_get hindex
        (e₂.loaded (s.engine.snapshot s.files) files₂).files out
      constructor
      · intro hget off' size' heq hpos
        cases heq
        rw [hget, List.length_nil] at hlen
        omega
      · intro hno
        have hsize : ¬ 0 < size := fun hpos => (nomatch hno off size rfl hpos)
        rw [← List.length_eq_zero_iff, hlen]
        omega

theorem twoCalls_fits : RunOk addStep AddFits (opened "/ps" ∅) twoCalls := by
  refine ⟨⟨?_, by decide, by decide +kernel, by decide +kernel⟩,
    ⟨?_, by decide, by decide +kernel, by decide +kernel⟩, trivial⟩
  · rw [List.forall_mem_cons, List.forall_mem_singleton]
    decide
  · rw [List.forall_mem_cons, List.forall_mem_singleton]
    decide

def servedCall (key : Int32) : AddCall := { kvList := [(key, 3)], data := [7, 8, 9] }

def served (key : Int32) : EngineState := addStep (opened "/ps2" ∅) (servedCall key)

/-- The key `1` of the second engine is replaced. -/
theorem load_replaces_key :
    let s := twoCalls.foldl addStep (opened "/ps" ∅)
    let r := (served 1).engine.creatOrLoad (s.engine.snapshot s.files) {} (served 1).files
    r.1 = "" ∧ r.2.1.get r.2.2 1 .complete = [20] := by
  have hs := reach_of_runOk twoCalls _ Reach.start twoCalls_fits
  obtain ⟨hmsg, hget⟩ :=
    load_replaces_iff (filesOk_empty rfl) hs (served 1).engine (served 1).files
  refine ⟨hmsg, ((hget 1 .complete).mpr fun _ _ _ _ => ?_).trans ?_⟩
  · decide +kernel
  · decide +kernel

/-- The second engine has served the key `2`.  After the load it still finds it, and returns the
first three bytes of a file that never held it. -/
theorem stale_key_returned :
    let s := twoCalls.foldl addStep (opened "/ps" ∅)
    let r := (served 2).engine.creatOrLoad (s.engine.snapshot s.files) {} (served 2).files
    RunOk addStep AddFits (opened "/ps" ∅) twoCalls ∧
      RunOk addStep AddFits (opened "/ps2" ∅) [servedCall 2] ∧
      r.1 = "" ∧ s.engine.get s.files 2 .complete = [] ∧
      r.2.1.get r.2.2 2 .complete = [10, 11, 12] := by
  refine ⟨twoCalls_fits, ⟨⟨?_, by decide, by decide +kernel, by decide +kernel⟩, trivial⟩,
    ?_, ?_, ?_⟩
  · intro kv hkv
    rw [List.mem_singleton.mp hkv]
    decide
  · decide +kernel
  · decide +kernel
  · decide +kernel

end SimSearch.Raft
