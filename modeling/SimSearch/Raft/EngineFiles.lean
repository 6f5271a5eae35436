import SimSearch.Raft.Snapshot
import SimSearch.Lib.AppendFile
import SimSearch.Lib.Runs

/-!
# The engine on its two files

`Engine::BatchAdd` and `Engine::Get` of `engine/engine.cc`, and `CreatOrLoad("")` on the
files that they leave.

`BatchAdd` appends the bytes of a document to the data file and a record of 14 bytes to the
metadata file, and puts the place of the bytes into the index.  `Holds docs` says what the
engine and its files are after the documents `docs` were added one after the other:

* `creatOrLoad_loaded`: what `CreatOrLoad` leaves when both files open.
* `holds_addDoc`: one turn of the loop adds one document to the list, and `holds_run`
  carries that through every run of calls.
* `get_of_holds`: `Get` returns what was added last for the key.
* `creatOrLoad_of_holds`: loading the files gives the engine that wrote them.  The records
  are read back by their position (`foldl_records`), and each is what was written
  (`loadRecord_record`), because no offset leaves the range of an `int64_t`.
-/

namespace SimSearch.Raft

open SimSearch.Lib

/-! ### Calls on files -/

/-- How a `read` or a `write` ends: complete, after so many bytes, or with an error. -/
inductive Transfer
  | complete
  | stops (n : Nat)
  | fails
  deriving DecidableEq, Repr

def Transfer.bytes : Transfer → Bytes → Bytes
  | .complete, bs => bs
  | .stops n, bs => bs.take n
  | .fails, _ => []

def Transfer.ret (t : Transfer) (bs : Bytes) : Int :=
  match t with
  | .fails => -1
  | _ => (t.bytes bs).length

def writeFile (files : Files) (name : String) (off : Nat) (bs : Bytes) : Files :=
  files.insert name (writeAt 0 (files[name]?.getD []) off bs)

/-! ### Adding documents -/

structure AddOutcome where
  data : Transfer := .complete
  mata : Transfer := .complete
  deriving DecidableEq, Repr

def Engine.dataPath (e : Engine) : String := e.path ++ dataFilename
def Engine.mataPath (e : Engine) : String := e.path ++ mataFilename

/-- The buffer of `BatchAdd`: the key, the offset and the length. -/
def mataRecord (key : Int32) (off : Nat) (dataLen : Int16) : Bytes :=
  leBytes 4 key.toUInt32.toNat ++ leBytes 8 off ++ leBytes 2 dataLen.toUInt16.toNat

/-- One turn of the loop of `BatchAdd`, for the bytes `raw` at `data.c_str() + all_len`: the
error text, and the engine and the files afterwards. -/
def Engine.addDoc (e : Engine) (files : Files) (key : Int32) (dataLen : Int16) (raw : Bytes)
    (out : AddOutcome) : String × Engine × Files :=
  let files := writeFile files e.dataPath e.rawDataOffset (out.data.bytes raw)
  if out.data.ret raw ≠ dataLen.toInt then
    ("Engine::write raw data failed, offset:" ++ toString e.rawDataOffset ++ ", length:"
      ++ toString dataLen.toInt, e, files)
  else
    let buf := mataRecord key e.rawDataOffset dataLen
    let files := writeFile files e.mataPath e.mataOffset (out.mata.bytes buf)
    if out.mata.ret buf ≠ oneDocMataSize then
      ("Engine::write mata data failed, offset:" ++ toString e.mataOffset ++ ", length:"
        ++ toString oneDocMataSize, e, files)
    else
      ("", { e with keyToOffset := e.keyToOffset.insert key.toInt (e.rawDataOffset, dataLen.toInt),
                    rawDataOffset := e.rawDataOffset + dataLen.toInt.toNat,
                    mataOffset := e.mataOffset + oneDocMataSize,
                    dataSize := e.dataSize + 1 }, files)

/-- The loop of `BatchAdd` from the `i`-th document on; a length is at least zero.  An error
leaves what was written before it. -/
def Engine.batchAddFrom (data : Bytes) (out : Nat → AddOutcome) :
    Engine → Files → List (Int32 × Int16) → Nat → Nat → String × Engine × Files
  | e, files, [], _, _ => ("", e, files)
  | e, files, kv :: kvs, i, allLen =>
    let raw := readAt data allLen kv.2.toInt.toNat
    let (msg, e, files) := e.addDoc files kv.1 kv.2 raw (out i)
    if msg ≠ "" then (msg, e, files)
    else batchAddFrom data out e files kvs (i + 1) (allLen + kv.2.toInt.toNat)

def Engine.batchAdd (e : Engine) (files : Files) (kvList : List (Int32 × Int16)) (data : Bytes)
    (out : Nat → AddOutcome) : String × Engine × Files :=
  batchAddFrom data out e files kvList 0 0

/-- `Engine::Get`: the buffer is returned also when the read stops early. -/
def Engine.get (e : Engine) (files : Files) (key : Int32) (out : Transfer) : Bytes :=
  match e.keyToOffset[key.toInt]? with
  | none => []
  | some (off, size) =>
    let res := out.bytes (readAt (files[e.dataPath]?.getD []) off.toNat size.toNat)
    res ++ List.replicate (size.toNat - res.length) 0

/-! ### Runs of calls -/

structure AddCall where
  kvList : List (Int32 × Int16)
  data : Bytes
  out : Nat → AddOutcome := fun _ => {}

/-- The documents of a call: each has the next so many bytes of the data. -/
def docsOf : List (Int32 × Int16) → Bytes → List (Int32 × Bytes)
  | [], _ => []
  | kv :: kvs, data =>
    (kv.1, data.take kv.2.toInt.toNat) :: docsOf kvs (data.drop kv.2.toInt.toNat)

def AddCall.docs (c : AddCall) : List (Int32 × Bytes) := docsOf c.kvList c.data

structure EngineState where
  engine : Engine
  files : Files

def addStep (s : EngineState) (c : AddCall) : EngineState :=
  let (_, engine, files) := s.engine.batchAdd s.files c.kvList c.data c.out
  ⟨engine, files⟩

/-- What a call may be: its lengths are at least zero and fit into the data, its writes
complete, and the metadata file stays below `2 ^ 31` bytes. -/
structure AddOk (s : EngineState) (c : AddCall) : Prop where
  nonneg : ∀ kv ∈ c.kvList, 0 ≤ kv.2.toInt
  fits : (c.kvList.map fun kv => kv.2.toInt).sum ≤ c.data.length
  complete : ∀ i < c.kvList.length, c.out i = {}
  below : ((addStep s c).files[(addStep s c).engine.mataPath]?.getD []).length < 2 ^ 31

def opened (path : String) (files : Files) : EngineState :=
  let (_, engine, files) := ({ path := path } : Engine).creatOrLoad ∅ {} files
  ⟨engine, files⟩

/-! ### Opening -/

def EngineState.data (s : EngineState) : Bytes := s.files[s.engine.dataPath]?.getD []
def EngineState.mata (s : EngineState) : Bytes := s.files[s.engine.mataPath]?.getD []

theorem dataFile_ne_mataFile (path : String) : path ++ dataFilename ≠ path ++ mataFilename := by
  intro h
  have hlists := congrArg String.toList h
  rw [String.toList_append, String.toList_append] at hlists
  exact absurd (List.append_cancel_left hlists) (by decide)

/-- The files that `CreatOrLoad` opens: with a snapshot, the old ones are moved away and those
of the snapshot are copied. -/
def Engine.copied (e : Engine) (snap files : Files) : Files :=
  if snap.contains mataFilename ∧ snap.contains dataFilename then
    copyFile mataFilename e.mataPath snap (copyFile dataFilename e.dataPath snap
      (backupFile e.mataPath (backupFile e.dataPath files)))
  else files

def Engine.loaded (e : Engine) (snap files : Files) : EngineState where
  engine :=
    { e with
      keyToOffset := loadMata ((e.copied snap files)[e.mataPath]?.getD []) e.keyToOffset
      dataSize := ((e.copied snap files)[e.mataPath]?.getD []).length / oneDocMataSize
      mataOffset := ((e.copied snap files)[e.mataPath]?.getD []).length
      rawDataOffset := ((e.copied snap files)[e.dataPath]?.getD []).length }
  files := ((e.copied snap files).insert e.dataPath ((e.copied snap files)[e.dataPath]?.getD [])
    ).insert e.mataPath ((e.copied snap files)[e.mataPath]?.getD [])

theorem creatOrLoad_loaded (e : Engine) (snap files : Files) :
    e.creatOrLoad snap {} files
      = ("", (e.loaded snap files).engine, (e.loaded snap files).files) := by
  have hne : e.dataPath ≠ e.mataPath := dataFile_ne_mataFile e.path
  have hmata : ((e.copied snap files).insert e.dataPath
      ((e.copied snap files)[e.dataPath]?.getD []))[e.mataPath]?
        = (e.copied snap files)[e.mataPath]? := by
    rw [Std.TreeMap.getElem?_insert, if_neg (by simpa using hne)]
  unfold Engine.loaded
  rw [← hmata]
  rfl

theorem data_loaded (e : Engine) (snap files : Files) :
    (e.loaded snap files).data = (e.copied snap files)[e.dataPath]?.getD [] := by
  have hne : e.mataPath ≠ e.dataPath := (dataFile_ne_mataFile e.path).symm
  show (((e.copied snap files).insert e.dataPath _).insert e.mataPath _)[e.dataPath]?.getD [] = _
  rw [Std.TreeMap.getElem?_insert, if_neg (by simpa using hne), Std.TreeMap.getElem?_insert_self]
  rfl

theorem mata_loaded (e : Engine) (snap files : Files) :
    (e.loaded snap files).mata = (e.copied snap files)[e.mataPath]?.getD [] := by
  show (((e.copied snap files).insert e.dataPath _).insert e.mataPath _)[e.mataPath]?.getD [] = _
  rw [Std.TreeMap.getElem?_insert_self]
  rfl

theorem opened_eq (path : String) (files : Files) :
    opened path files = ({ path := path } : Engine).loaded ∅ files := by
  unfold opened
  rw [creatOrLoad_loaded]

theorem copied_empty (e : Engine) (files : Files) : e.copied ∅ files = files := by
  simp [Engine.copied]

/-- An engine that is opened has the index of its metadata file. -/
theorem engine_opened (path : String) (files : Files) :
    (opened path files).engine =
      { path := path
        keyToOffset := loadMata (files[path ++ mataFilename]?.getD []) ∅
        dataSize := (files[path ++ mataFilename]?.getD []).length / oneDocMataSize
        mataOffset := (files[path ++ mataFilename]?.getD []).length
        rawDataOffset := (files[path ++ dataFilename]?.getD []).length } := by
  rw [opened_eq]
  unfold Engine.loaded
  rw [copied_empty]
  rfl

theorem data_opened (path : String) (files : Files) :
    (opened path files).data = files[path ++ dataFilename]?.getD [] := by
  rw [opened_eq, data_loaded, copied_empty]
  rfl

theorem mata_opened (path : String) (files : Files) :
    (opened path files).mata = files[path ++ mataFilename]?.getD [] := by
  rw [opened_eq, mata_loaded, copied_empty]
  rfl

/-! ### The records -/

/-- A number that fits reads back from its bytes, with its sign. -/
theorem signedOf_leBytes {n v : Nat} (hv : v < 256 ^ n) :
    signedOf (leBytes n v) = if v < 256 ^ n / 2 then (v : Int) else (v : Int) - 256 ^ n := by
  unfold signedOf
  simp only [leBytes_length, ofLeBytes_leBytes n v hv]

theorem signedOf_int32 (key : Int32) : signedOf (leBytes 4 key.toUInt32.toNat) = key.toInt := by
  have hlt : key.toUInt32.toNat < 256 ^ 4 := key.toUInt32.toNat_lt
  have hcond := BitVec.toInt_eq_toNat_cond key.toBitVec
  have hval : key.toUInt32.toNat = key.toBitVec.toNat := rfl
  rw [signedOf_leBytes hlt, show key.toInt = key.toBitVec.toInt from rfl, hcond, hval]
  split_ifs <;> omega

theorem signedOf_int16 (len : Int16) : signedOf (leBytes 2 len.toUInt16.toNat) = len.toInt := by
  have hlt : len.toUInt16.toNat < 256 ^ 2 := len.toUInt16.toNat_lt
  have hcond := BitVec.toInt_eq_toNat_cond len.toBitVec
  have hval : len.toUInt16.toNat = len.toBitVec.toNat := rfl
  rw [signedOf_leBytes hlt, show len.toInt = len.toBitVec.toInt from rfl, hcond, hval]
  split_ifs <;> omega

theorem signedOf_offset {off : Nat} (h : off < 2 ^ 63) : signedOf (leBytes 8 off) = off := by
  have hlt : off < 256 ^ 8 := by omega
  rw [signedOf_leBytes hlt, if_pos (by omega)]

theorem length_mataRecord (key : Int32) (off : Nat) (dataLen : Int16) :
    (mataRecord key off dataLen).length = oneDocMataSize := by
  simp only [mataRecord, List.length_append, leBytes_length]
  rfl

def loadRecord (m : Std.TreeMap Int (Int × Int)) (buf : Bytes) : Std.TreeMap Int (Int × Int) :=
  m.insert (signedOf (buf.take 4)) (signedOf ((buf.drop 4).take 8), signedOf (buf.drop 12))

theorem loadRecord_record {off : Nat} (h : off < 2 ^ 63) (m : Std.TreeMap Int (Int × Int))
    (key : Int32) (dataLen : Int16) :
    loadRecord m (mataRecord key off dataLen) = m.insert key.toInt (off, dataLen.toInt) := by
  have hkey : (leBytes 4 key.toUInt32.toNat).length = 4 := leBytes_length _ _
  have hoff : (leBytes 8 off).length = 8 := leBytes_length _ _
  have htake : (mataRecord key off dataLen).take 4 = leBytes 4 key.toUInt32.toNat := by
    rw [mataRecord, List.append_assoc]
    exact List.take_left' hkey
  have hdrop : (mataRecord key off dataLen).drop 4
      = leBytes 8 off ++ leBytes 2 dataLen.toUInt16.toNat := by
    rw [mataRecord, List.append_assoc]
    exact List.drop_left' hkey
  have hlast : (mataRecord key off dataLen).drop 12 = leBytes 2 dataLen.toUInt16.toNat := by
    rw [mataRecord]
    exact List.drop_left' (by rw [List.length_append, hkey, hoff])
  rw [loadRecord, htake, hdrop, List.take_left' hoff, hlast, signedOf_int32, signedOf_offset h,
    signedOf_int16]

/-! ### What the files hold -/

/-- The length of a document, which fits into an `int16_t`. -/
def len16 (n : Nat) : Int16 := Int16.ofNat n

def entryRecord (e : Entry Int32) : Bytes := mataRecord e.key e.off (len16 e.len)

theorem length_entryRecord (e : Entry Int32) : (entryRecord e).length = oneDocMataSize :=
  length_mataRecord _ _ _

def indexOf (es : List (Entry Int32)) : Std.TreeMap Int (Int × Int) :=
  es.foldl (fun m e => m.insert e.key.toInt ((e.off : Int), (e.len : Int))) ∅

/-- The state after these documents were added one after the other. -/
structure Holds (path : String) (docs : List (Int32 × Bytes)) (s : EngineState) : Prop where
  samePath : s.engine.path = path
  short : ∀ d ∈ docs, d.2.length < 2 ^ 15
  data : s.files[path ++ dataFilename]?.getD [] = contents docs
  mata : s.files[path ++ mataFilename]?.getD [] = (entriesFrom 0 docs).flatMap entryRecord
  index : s.engine.keyToOffset = indexOf (entriesFrom 0 docs)
  dataSize : s.engine.dataSize = docs.length
  mataOffset : s.engine.mataOffset = docs.length * oneDocMataSize
  rawDataOffset : s.engine.rawDataOffset = (contents docs).length

theorem len16_toNat {len : Int16} (h : 0 ≤ len.toInt) : len16 len.toInt.toNat = len := by
  apply Int16.toInt_inj.mp
  have hlt := len.toInt_lt
  rw [len16, Int16.toInt_ofNat_of_lt (by omega)]
  omega

theorem toInt_len16 {n : Nat} (h : n < 2 ^ 15) : (len16 n).toInt = n :=
  Int16.toInt_ofNat_of_lt h

theorem getD_writeFile_self (files : Files) (name : String) (off : Nat) (bs : Bytes) :
    (writeFile files name off bs)[name]?.getD [] = writeAt 0 (files[name]?.getD []) off bs := by
  rw [writeFile, Std.TreeMap.getElem?_insert_self]
  rfl

theorem getD_writeFile_of_ne {name other : String} (h : name ≠ other) (files : Files) (off : Nat)
    (bs : Bytes) : (writeFile files name off bs)[other]?.getD [] = files[other]?.getD [] := by
  rw [writeFile, Std.TreeMap.getElem?_insert, if_neg]
  simpa using h

theorem indexOf_concat (es : List (Entry Int32)) (e : Entry Int32) :
    indexOf (es ++ [e]) = (indexOf es).insert e.key.toInt ((e.off : Int), (e.len : Int)) := by
  rw [indexOf, List.foldl_append]
  rfl

theorem getElem?_indexOf (es : List (Entry Int32)) (key : Int32) :
    (indexOf es)[key.toInt]? = (lastEntry es key).map fun e => ((e.off : Int), (e.len : Int)) := by
  induction es using List.reverseRecOn with
  | nil => rfl
  | append_singleton es e ih =>
    rw [indexOf_concat, lastEntry_concat, Std.TreeMap.getElem?_insert]
    by_cases h : e.key = key
    · rw [if_pos h, if_pos (by rw [h]; exact compare_eq_iff_eq.mpr rfl)]
      rfl
    · have hne : compare e.key.toInt key.toInt ≠ .eq := fun hc =>
        h (Int32.toInt_inj.mp (compare_eq_iff_eq.mp hc))
      rw [if_neg h, if_neg hne, ih]

section

variable {path : String} {docs : List (Int32 × Bytes)} {s : EngineState}

theorem length_mata_of_holds (h : Holds path docs s) :
    (s.files[path ++ mataFilename]?.getD []).length = docs.length * oneDocMataSize := by
  rw [h.mata, length_records length_entryRecord, length_entriesFrom]

theorem holds_opened {files : Files} (hdata : files[path ++ dataFilename]?.getD [] = [])
    (hmata : files[path ++ mataFilename]?.getD [] = []) : Holds path [] (opened path files) := by
  have hengine : (opened path files).engine = { path := path } := by
    rw [engine_opened, hdata, hmata]
    rfl
  have hpath : (opened path files).engine.path = path := congrArg Engine.path hengine
  have hdata' := (data_opened path files).trans hdata
  have hmata' := (mata_opened path files).trans hmata
  rw [EngineState.data, Engine.dataPath, hpath] at hdata'
  rw [EngineState.mata, Engine.mataPath, hpath] at hmata'
  exact ⟨hpath, fun d hd => (nomatch hd), hdata', hmata', congrArg Engine.keyToOffset hengine,
    congrArg Engine.dataSize hengine, congrArg Engine.mataOffset hengine,
    congrArg Engine.rawDataOffset hengine⟩

def added (path : String) (s : EngineState) (key : Int32) (dataLen : Int16) (raw : Bytes) :
    EngineState where
  engine :=
    { s.engine with
      keyToOffset := s.engine.keyToOffset.insert key.toInt (s.engine.rawDataOffset, dataLen.toInt)
      rawDataOffset := s.engine.rawDataOffset + dataLen.toInt.toNat
      mataOffset := s.engine.mataOffset + oneDocMataSize
      dataSize := s.engine.dataSize + 1 }
  files := writeFile (writeFile s.files (path ++ dataFilename) s.engine.rawDataOffset raw)
    (path ++ mataFilename) s.engine.mataOffset (mataRecord key s.engine.rawDataOffset dataLen)

theorem addDoc_complete (hpath : s.engine.path = path) (key : Int32) {dataLen : Int16} {raw : Bytes}
    (hraw : (raw.length : Int) = dataLen.toInt) :
    s.engine.addDoc s.files key dataLen raw {}
      = ("", (added path s key dataLen raw).engine, (added path s key dataLen raw).files) := by
  have hret : Transfer.ret .complete raw = dataLen.toInt := hraw
  have hret' : Transfer.ret .complete (mataRecord key s.engine.rawDataOffset dataLen)
      = oneDocMataSize := by
    show ((mataRecord key s.engine.rawDataOffset dataLen).length : Int) = oneDocMataSize
    rw [length_mataRecord]
  subst hpath
  simp only [Engine.addDoc, hret, hret', ne_eq, not_true, if_false, Transfer.bytes,
    Engine.dataPath, Engine.mataPath]
  rfl

/-- The writes go to the ends of the two files. -/
theorem data_added (h : Holds path docs s) (key : Int32) (dataLen : Int16) (raw : Bytes) :
    (added path s key dataLen raw).files[path ++ dataFilename]?.getD [] = contents docs ++ raw := by
  unfold added
  rw [getD_writeFile_of_ne (dataFile_ne_mataFile path).symm, getD_writeFile_self, h.data,
    h.rawDataOffset, writeAt_length]

theorem mata_added (h : Holds path docs s) (key : Int32) (dataLen : Int16) (raw : Bytes) :
    (added path s key dataLen raw).files[path ++ mataFilename]?.getD []
      = (entriesFrom 0 docs).flatMap entryRecord
        ++ mataRecord key (contents docs).length dataLen := by
  have hend : s.engine.mataOffset = ((entriesFrom 0 docs).flatMap entryRecord).length := by
    rw [h.mataOffset, ← length_mata_of_holds h, h.mata]
  unfold added
  rw [getD_writeFile_self, getD_writeFile_of_ne (dataFile_ne_mataFile path), h.mata, hend,
    writeAt_length, h.rawDataOffset]

/-- **One turn of the loop adds one document**, when its writes complete. -/
theorem holds_addDoc (h : Holds path docs s) (key : Int32) {dataLen : Int16} {raw : Bytes}
    (hraw : (raw.length : Int) = dataLen.toInt) :
    Holds path (docs ++ [(key, raw)]) (added path s key dataLen raw) := by
  have hlen : dataLen.toInt.toNat = raw.length := by omega
  have hlen16 : len16 raw.length = dataLen := by
    rw [← hlen]
    exact len16_toNat (by omega)
  constructor
  · exact h.samePath
  · intro d hd
    rcases List.mem_append.mp hd with hd | hd
    · exact h.short d hd
    · rw [List.mem_singleton.mp hd]
      have hlt := dataLen.toInt_lt
      show raw.length < 2 ^ 15
      omega
  · rw [contents_concat]
    exact data_added h key dataLen raw
  · rw [entriesFrom_concat, List.flatMap_append, List.flatMap_singleton, Nat.zero_add]
    refine (mata_added h key dataLen raw).trans (congrArg _ ?_)
    show _ = mataRecord key (contents docs).length (len16 raw.length)
    rw [hlen16]
  · rw [entriesFrom_concat, indexOf_concat, Nat.zero_add]
    show s.engine.keyToOffset.insert key.toInt (s.engine.rawDataOffset, dataLen.toInt) = _
    rw [h.index, h.rawDataOffset, hraw]
  · rw [List.length_append]
    show s.engine.dataSize + 1 = _
    rw [h.dataSize]
    rfl
  · rw [List.length_append, Nat.add_mul]
    show s.engine.mataOffset + oneDocMataSize = _
    rw [h.mataOffset]
    rfl
  · rw [contents_concat, List.length_append]
    show s.engine.rawDataOffset + dataLen.toInt.toNat = _
    rw [h.rawDataOffset, hlen]

/-- Before one turn of the loop: the bytes of its document are in the data, and so are those of
the documents after it. -/
theorem batch_turn {data : Bytes} {kv : Int32 × Int16} {kvs : List (Int32 × Int16)} {allLen : Nat}
    (hnonneg : ∀ x ∈ kv :: kvs, 0 ≤ x.2.toInt)
    (hfits : (allLen : Int) + ((kv :: kvs).map fun kv => kv.2.toInt).sum ≤ data.length) :
    allLen + kv.2.toInt.toNat ≤ data.length ∧
      ((readAt data allLen kv.2.toInt.toNat).length : Int) = kv.2.toInt ∧
      (∀ x ∈ kvs, 0 ≤ x.2.toInt) ∧
      ((allLen + kv.2.toInt.toNat : Nat) : Int) + (kvs.map fun kv => kv.2.toInt).sum
        ≤ data.length := by
  obtain ⟨hkv, hrest⟩ := List.forall_mem_cons.mp hnonneg
  have hsum : 0 ≤ (kvs.map fun kv => kv.2.toInt).sum := by
    refine List.sum_nonneg fun x hx => ?_
    obtain ⟨y, hy, rfl⟩ := List.mem_map.mp hx
    exact hrest y hy
  rw [List.map_cons, List.sum_cons] at hfits
  have hlen : allLen + kv.2.toInt.toNat ≤ data.length := by omega
  refine ⟨hlen, ?_, hrest, by omega⟩
  rw [length_readAt hlen]
  omega

theorem holds_batchAddFrom {data : Bytes} {out : Nat → AddOutcome} :
    ∀ (kvs : List (Int32 × Int16)) (i allLen : Nat) {docs : List (Int32 × Bytes)}
      {s : EngineState}, Holds path docs s → (∀ kv ∈ kvs, 0 ≤ kv.2.toInt) →
      (allLen : Int) + (kvs.map fun kv => kv.2.toInt).sum ≤ data.length →
      (∀ j < kvs.length, out (i + j) = {}) →
      ∃ s', Engine.batchAddFrom data out s.engine s.files kvs i allLen
          = ("", s'.engine, s'.files) ∧
        Holds path (docs ++ docsOf kvs (data.drop allLen)) s' := by
  intro kvs
  induction kvs with
  | nil =>
    intro i allLen docs s h _ _ _
    refine ⟨s, rfl, ?_⟩
    rw [docsOf, List.append_nil]
    exact h
  | cons kv kvs ih =>
    intro i allLen docs s h hnonneg hfits hout
    obtain ⟨-, hraw, hrest, hfits'⟩ := batch_turn hnonneg hfits
    have hadd := addDoc_complete h.samePath kv.1 hraw
    have hout₀ : out i = {} := hout 0 (Nat.succ_pos _)
    obtain ⟨s', hloop, h'⟩ := ih (i + 1) (allLen + kv.2.toInt.toNat)
      (holds_addDoc h kv.1 hraw) hrest hfits'
      fun j hj => by
        have hj' := hout (j + 1) (Nat.succ_lt_succ hj)
        rw [← hj']
        congr 1
        omega
    refine ⟨s', ?_, ?_⟩
    · simp only [Engine.batchAddFrom, hout₀, hadd, ne_eq, not_true, if_false]
      exact hloop
    · rw [docsOf, List.drop_drop]
      rw [List.append_assoc] at h'
      exact h'

theorem holds_addStep (h : Holds path docs s) {c : AddCall} (hc : AddOk s c) :
    Holds path (docs ++ c.docs) (addStep s c) := by
  have hfits : ((0 : Nat) : Int) + (c.kvList.map fun kv => kv.2.toInt).sum ≤ c.data.length := by
    have hsum := hc.fits
    omega
  have hout : ∀ j < c.kvList.length, c.out (0 + j) = {} := by
    intro j hj
    rw [Nat.zero_add]
    exact hc.complete j hj
  obtain ⟨s', hadd, h'⟩ := holds_batchAddFrom c.kvList 0 0 h hc.nonneg hfits hout
  have hstep : addStep s c = s' := by
    simp only [addStep, Engine.batchAdd, hadd]
  rw [hstep]
  exact h'

/-- **A run of calls adds their documents**, and the metadata file stays small. -/
theorem holds_run : ∀ (calls : List AddCall) {docs : List (Int32 × Bytes)} {s : EngineState},
    Holds path docs s → docs.length * oneDocMataSize < 2 ^ 31 → RunOk addStep AddOk s calls →
    Holds path (docs ++ calls.flatMap AddCall.docs) (calls.foldl addStep s) ∧
      (docs ++ calls.flatMap AddCall.docs).length * oneDocMataSize < 2 ^ 31 := by
  intro calls
  induction calls with
  | nil =>
    intro docs s h hsmall _
    rw [List.flatMap_nil, List.append_nil]
    exact ⟨h, hsmall⟩
  | cons c calls ih =>
    intro docs s h _ hok
    have h₁ := holds_addStep h hok.1
    have hbelow := hok.1.below
    rw [Engine.mataPath, h₁.samePath, length_mata_of_holds h₁] at hbelow
    rw [List.flatMap_cons, ← List.append_assoc]
    exact ih h₁ hbelow hok.2

/-! ### Reading -/

/-- **`Get` returns what was added last.** -/
theorem get_of_holds (h : Holds path docs s) (key : Int32) :
    s.engine.get s.files key .complete = lastAdded docs key := by
  obtain ⟨hin, hread⟩ := readLast_entries docs key
  rw [← hread]
  unfold Engine.get readLast
  rw [Engine.dataPath, h.samePath, h.data, h.index, getElem?_indexOf]
  cases he : lastEntry (entriesFrom 0 docs) key with
  | none => rfl
  | some e =>
    have hfull : (readAt (contents docs) e.off e.len).length = e.len := length_readAt (hin e he)
    simp only [Option.map_some, Option.getD_some, Transfer.bytes, Int.toNat_natCast, hfull,
      Nat.sub_self, List.replicate_zero, List.append_nil]

/-! ### Loading -/

theorem length_contents_le (h : ∀ d ∈ docs, d.2.length < 2 ^ 15) :
    (contents docs).length ≤ docs.length * 2 ^ 15 := by
  induction docs with
  | nil => exact Nat.zero_le _
  | cons d docs ih =>
    have hd := h d List.mem_cons_self
    have hrest := ih fun x hx => h x (List.mem_cons_of_mem _ hx)
    have hlen : (contents (d :: docs)).length = d.2.length + (contents docs).length := by
      rw [contents, List.flatMap_cons, List.length_append]
      rfl
    rw [hlen, List.length_cons, Nat.succ_mul]
    omega

theorem loadMata_entries (h : ∀ d ∈ docs, d.2.length < 2 ^ 15)
    (hsmall : docs.length * oneDocMataSize < 2 ^ 31) :
    loadMata ((entriesFrom 0 docs).flatMap entryRecord) ∅ = indexOf (entriesFrom 0 docs) := by
  have htotal : (contents docs).length < 2 ^ 63 := by
    have hle := length_contents_le h
    have hcount : docs.length < 2 ^ 31 := by
      unfold oneDocMataSize at hsmall
      omega
    omega
  have hloop := foldl_records length_entryRecord (by decide) loadRecord ∅ (entriesFrom 0 docs)
  refine hloop.trans ?_
  refine List.foldl_ext _ _ _ fun m e he => ?_
  have hoff := off_add_len_le docs 0 e he
  obtain ⟨d, hd, hlen⟩ := len_of_mem_entriesFrom docs 0 he
  have hshort : e.len < 2 ^ 15 := by
    rw [hlen]
    exact h d hd
  rw [entryRecord, loadRecord_record (by omega), toInt_len16 hshort]

/-- **Loading the two files gives back the engine.** -/
theorem creatOrLoad_of_holds (h : Holds path docs s)
    (hsmall : docs.length * oneDocMataSize < 2 ^ 31) :
    (({ path := path } : Engine).creatOrLoad ∅ {} s.files).1 = "" ∧
      (({ path := path } : Engine).creatOrLoad ∅ {} s.files).2.1 = s.engine := by
  have hlen : ((entriesFrom 0 docs).flatMap entryRecord).length = docs.length * oneDocMataSize := by
    rw [← h.mata]
    exact length_mata_of_holds h
  rw [creatOrLoad_loaded]
  refine ⟨rfl, ?_⟩
  unfold Engine.loaded
  simp only [copied_empty, Engine.dataPath, Engine.mataPath, h.data, h.mata,
    loadMata_entries h.short hsmall, hlen, Nat.mul_div_cancel _ (show 0 < oneDocMataSize by decide)]
  obtain ⟨engine, files⟩ := s
  obtain ⟨p, index, size, mataOff, rawOff⟩ := engine
  obtain ⟨hp, -, -, -, hi, hs, hm, hr⟩ := h
  simp only at hp hi hs hm hr ⊢
  rw [hp, hi, hs, hm, hr]

end

/-! ### The engine is a map -/

/-- **The append-only engine is a map and survives a reload.**  After every run of calls on
an engine that was opened on empty files, `Get` returns the bytes that were added last, and a
fresh engine that loads the two files is the engine that wrote them. -/
theorem engine_get_and_reload (path : String) (files : Files)
    (hdata : files[path ++ dataFilename]?.getD [] = [])
    (hmata : files[path ++ mataFilename]?.getD [] = []) (calls : List AddCall)
    (hok : RunOk addStep AddOk (opened path files) calls) :
    let s := calls.foldl addStep (opened path files)
    (∀ key, s.engine.get s.files key .complete
        = lastAdded (calls.flatMap AddCall.docs) key) ∧
      (({ path := path } : Engine).creatOrLoad ∅ {} s.files).1 = "" ∧
      (({ path := path } : Engine).creatOrLoad ∅ {} s.files).2.1 = s.engine := by
  obtain ⟨h, hsmall⟩ := holds_run calls (holds_opened hdata hmata) (by decide) hok
  rw [List.nil_append] at h hsmall
  exact ⟨fun key => get_of_holds h key, creatOrLoad_of_holds h hsmall⟩

/-- Two calls; the second one replaces the bytes of the key `1` and adds an empty document. -/
def twoCalls : List AddCall :=
  [{ kvList := [(1, 2), (-7, 3)], data := [10, 11, 12, 13, 14, 15] },
    { kvList := [(1, 1), (5, 0)], data := [20] }]

theorem twoCalls_ok : RunOk addStep AddOk (opened "/ps" ∅) twoCalls := by
  refine ⟨⟨?_, by decide, fun _ _ => rfl, by decide +kernel⟩,
    ⟨?_, by decide, fun _ _ => rfl, by decide +kernel⟩, trivial⟩
  · rw [List.forall_mem_cons, List.forall_mem_singleton]
    decide
  · rw [List.forall_mem_cons, List.forall_mem_singleton]
    decide

theorem engine_get_and_reload_two :
    let s := twoCalls.foldl addStep (opened "/ps" ∅)
    s.engine.get s.files 1 .complete = [20] ∧
      s.engine.get s.files (-7) .complete = [12, 13, 14] ∧
      s.engine.get s.files 5 .complete = [] ∧
      (({ path := "/ps" } : Engine).creatOrLoad ∅ {} s.files).2.1 = s.engine := by
  obtain ⟨hget, -, hload⟩ := engine_get_and_reload "/ps" ∅ rfl rfl twoCalls twoCalls_ok
  refine ⟨(hget 1).trans ?_, (hget (-7)).trans ?_, (hget 5).trans ?_, hload⟩
  · decide
  · decide
  · decide

end SimSearch.Raft
