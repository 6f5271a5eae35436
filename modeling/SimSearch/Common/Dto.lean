import SimSearch.Common.Proto
import SimSearch.Lib.Bytes

/-!
# Checking documents and converting them for the engine

`common/dto.cc` and `utils/numeric_util.cc`.  Every check returns its error text,
and the empty text when there is nothing to report.  `checkPbDoc` with a space is
what the router runs on every document of an upsert; `checkPbIds` is its
counterpart for the ids of a get or a delete; `pbDocToGammaDoc` and
`gammaDocToPbDoc` convert between the wire form and the engine's form.
-/

namespace SimSearch

open SimSearch.Lib

/-! ### Numbers -/

/-- `isspace` in the C locale. -/
def isSpace (c : Char) : Bool :=
  c = ' ' || c = '\t' || c = '\n' || c = '\r' || c.toNat = 11 || c.toNat = 12

def digitsVal (cs : List Char) : Nat :=
  cs.foldl (fun n c => 10 * n + (c.toNat - '0'.toNat)) 0

def invalidInt64 : String := "Invalid input: not a valid int64_t string"
def overflowInt64 : String := "Out of range: int64_t overflow"

/-- What `std::stoll` reads: white space is skipped, then a sign and digits. -/
structure StollScan where
  value : Int
  digits : List Char
  rest : List Char

def stollScan (text : List Char) : StollScan :=
  let cs := text.dropWhile isSpace
  let ds := if cs.head? = some '-' ∨ cs.head? = some '+' then cs.tail else cs
  let digits := ds.takeWhile Char.isDigit
  let value : Int := if cs.head? = some '-' then -(digitsVal digits : Int) else digitsVal digits
  ⟨value, digits, ds.dropWhile Char.isDigit⟩

/-- `StrToInt64`: `std::stoll` throws on no digits and on a value that does not
fit; text left over after the digits is refused by the position test. -/
def strToInt64 (str : String) : Except String Int :=
  let scan := stollScan str.toList
  if scan.digits = [] then .error invalidInt64
  else if scan.value < -2 ^ 63 ∨ 2 ^ 63 ≤ scan.value then .error overflowInt64
  else if scan.rest ≠ [] then .error invalidInt64
  else .ok scan.value

theorem strToInt64_error_ne_empty {str status : String} (h : strToInt64 str = .error status) :
    status ≠ "" := by
  unfold strToInt64 at h
  simp only at h
  split_ifs at h <;> cases h <;> decide

/-! ### Checks -/

/-- `CheckPbDoc(pb_doc)`: the document holds some value. -/
def checkPbDoc (doc : Document) : String :=
  if doc.ints.size = 0 ∧ doc.longs.size = 0 ∧ doc.floats.size = 0 ∧ doc.doubles.size = 0 ∧
      doc.strings.size = 0 ∧ doc.stringArrays.size = 0 ∧ doc.vectors.size = 0 then
    "Document is empty"
  else ""

def missingField (field : Field) : String :=
  "Missing field in document: name = " ++ field.name ++ ", type = " ++ field.type ++ "; "

/-- What one turn of the loop of `CheckPbDoc(pb_doc, space)` writes. -/
def checkPbField (doc : Document) (field : Field) : String :=
  let found (b : Bool) : String := if b then "" else missingField field
  if field.type = intSdtype then found (doc.ints.contains field.name)
  else if field.type = longSdtype then found (doc.longs.contains field.name)
  else if field.type = floatSdtype then found (doc.floats.contains field.name)
  else if field.type = doubleSdtype then found (doc.doubles.contains field.name)
  else if field.type = stringSdtype then found (doc.strings.contains field.name)
  else if field.type = stringarraySdtype then found (doc.stringArrays.contains field.name)
  else if field.type = vectorSdtype then
    match doc.vectors[field.name]? with
    | some v =>
      match field.dimension with
      | some dim =>
        if dim.toNat ≠ v.length then
          "Field [" ++ field.name ++ "] vector dimension mismatch: expected "
            ++ toString dim.toNat ++ ", got " ++ toString v.length ++ "; "
        else ""
      | none => ""
    | none => missingField field
  else "Unknown type for field [" ++ field.name ++ "]: " ++ field.type ++ "; "

/-- `CheckPbDoc(pb_doc, space)`. -/
def checkPbDocIn (doc : Document) (space : Space) : String :=
  if doc.id = "" then "Document _id is empty"
  else
    let fields := String.join (space.fields.map (checkPbField doc))
    if space.idType = longSdtype then
      match strToInt64 doc.id with
      | .error status => status
      | .ok _ => fields
    else fields

/-- `CheckPbIds`, from the set `st` of ids already met. -/
def checkPbIdsFrom (space : Space) : List String → List String → String
  | _, [] => ""
  | st, key :: keys =>
      if key = "" then "Document key is empty"
      else
        let next :=
          if key ∈ st then "Duplicate document key: " ++ key
          else checkPbIdsFrom space (key :: st) keys
        if space.idType = longSdtype then
          match strToInt64 key with
          | .error status => "_id:" ++ key ++ " StrToInt64 failed: " ++ status
          | .ok _ => next
        else next

/-- `CheckPbIds`: no id is empty, repeated or, for a `long` key, unparsable. -/
def checkPbIds (ids : List String) (space : Space) : String := checkPbIdsFrom space [] ids

theorem checkPbIds_singleton {doc : Document} {space : Space}
    (h : checkPbDocIn doc space = "") : checkPbIds [doc.id] space = "" := by
  unfold checkPbDocIn at h
  unfold checkPbIds
  simp only [checkPbIdsFrom, List.not_mem_nil, if_false]
  by_cases hid : doc.id = ""
  · rw [if_pos hid] at h
    exact absurd h (by decide)
  rw [if_neg hid] at h ⊢
  by_cases hlong : space.idType = longSdtype
  · simp only [if_pos hlong] at h ⊢
    cases hs : strToInt64 doc.id with
    | ok v => rfl
    | error status =>
      -- the router has already parsed this id, so there is no error here
      rw [hs] at h
      exact absurd h (strToInt64_error_ne_empty hs)
  · simp only [if_neg hlong]

/-! ### The engine's documents -/

inductive DataType
  | int
  | long
  | float
  | double
  | string
  | vector
  | stringArray
  deriving DecidableEq, Repr

/-- `vearch::Field`. -/
structure GammaField where
  name : String
  value : Bytes
  datatype : DataType
  deriving DecidableEq, Repr

/-- `vearch::Doc`: the vector fields are kept apart from the others, each in a
map by name. -/
structure GammaDoc where
  tableFields : PbMap GammaField := ∅
  vectorFields : PbMap GammaField := ∅

def GammaDoc.addField (doc : GammaDoc) (f : GammaField) : GammaDoc :=
  if f.datatype = .vector then { doc with vectorFields := doc.vectorFields.insert f.name f }
  else { doc with tableFields := doc.tableFields.insert f.name f }

def utf8Bytes (s : String) : Bytes := s.toList.flatMap String.utf8EncodeChar

/-- The text of a string array: a comma after each element, the last one removed. -/
def joinStringArray (l : List String) : String :=
  String.ofList ((l.flatMap (fun s => s.toList ++ [','])).dropLast)

/-- `PbDocToGammaDoc`: the error text, and the document as far as it was built.
The second test of the source asks for `LONG_SDTYPE` again, so a string key is
refused like any other. -/
def pbDocToGammaDoc (doc : Document) (space : Space) (out : GammaDoc) : String × GammaDoc :=
  if space.idType = longSdtype then
    match strToInt64 doc.id with
    | .error status => ("request Document _id:" ++ doc.id ++ " StrToInt64 failed: " ++ status, out)
    | .ok v =>
      let out := out.addField ⟨idField, leBytes 8 (v % 2 ^ 64).toNat, .long⟩
      let out := doc.ints.toList.foldl
        (fun o e => o.addField ⟨e.1, leBytes 4 e.2.toUInt32.toNat, .int⟩) out
      let out := doc.longs.toList.foldl
        (fun o e => o.addField ⟨e.1, leBytes 8 e.2.toUInt64.toNat, .long⟩) out
      let out := doc.floats.toList.foldl
        (fun o e => o.addField ⟨e.1, leBytes 4 e.2.toNat, .float⟩) out
      let out := doc.doubles.toList.foldl
        (fun o e => o.addField ⟨e.1, leBytes 8 e.2.toNat, .double⟩) out
      let out := doc.strings.toList.foldl
        (fun o e => o.addField ⟨e.1, utf8Bytes e.2, .string⟩) out
      let out := doc.stringArrays.toList.foldl
        (fun o e => o.addField ⟨e.1, utf8Bytes (joinStringArray e.2), .stringArray⟩) out
      let out := doc.vectors.toList.foldl
        (fun o e => o.addField ⟨e.1, e.2.flatMap (fun x => leBytes 4 x.toNat), .vector⟩) out
      ("", out)
  else ("Unsupported _id type: " ++ space.idType, out)

/-- What the loop of `PbDocToGammaDoc` over the map of a type adds to the document. -/
def mapEntries (doc : Document) (type : String) : List GammaField :=
  if type = intSdtype then doc.ints.toList.map fun e => ⟨e.1, leBytes 4 e.2.toUInt32.toNat, .int⟩
  else if type = longSdtype then
    doc.longs.toList.map fun e => ⟨e.1, leBytes 8 e.2.toUInt64.toNat, .long⟩
  else if type = floatSdtype then doc.floats.toList.map fun e => ⟨e.1, leBytes 4 e.2.toNat, .float⟩
  else if type = doubleSdtype then
    doc.doubles.toList.map fun e => ⟨e.1, leBytes 8 e.2.toNat, .double⟩
  else if type = stringSdtype then
    doc.strings.toList.map fun e => ⟨e.1, utf8Bytes e.2, .string⟩
  else if type = stringarraySdtype then
    doc.stringArrays.toList.map fun e => ⟨e.1, utf8Bytes (joinStringArray e.2), .stringArray⟩
  else if type = vectorSdtype then
    doc.vectors.toList.map fun e => ⟨e.1, e.2.flatMap (fun x => leBytes 4 x.toNat), .vector⟩
  else []

/-- The maps of a document in the order of the loops. -/
def loopSdtypes : List String :=
  [intSdtype, longSdtype, floatSdtype, doubleSdtype, stringSdtype, stringarraySdtype, vectorSdtype]

/-- `PbDocToGammaDoc` for a key that it takes: the key, and then map after map. -/
theorem pbDocToGammaDoc_entries {doc : Document} {space : Space} {v : Int}
    (hlong : space.idType = longSdtype) (hid : strToInt64 doc.id = .ok v) (out : GammaDoc) :
    pbDocToGammaDoc doc space out = ("", (loopSdtypes.flatMap (mapEntries doc)).foldl
      GammaDoc.addField (out.addField ⟨idField, leBytes 8 (v % 2 ^ 64).toNat, .long⟩)) := by
  simp [pbDocToGammaDoc, hlong, hid, loopSdtypes, mapEntries, List.foldl_append, List.foldl_map,
    intSdtype, longSdtype, floatSdtype, doubleSdtype, stringSdtype, stringarraySdtype, vectorSdtype]

/-- The text of some bytes; bytes that are no text give the empty one. -/
def ofUtf8 (bs : Bytes) : String := (String.fromUTF8? ⟨bs.toArray⟩).getD ""

/-- The items that `std::getline` reads up to commas; nothing follows a last comma. -/
def splitStringArray (bs : Bytes) : List String :=
  let items := bs.splitOn 44
  ((if items.getLast? = some [] then items.dropLast else items)).map ofUtf8

/-- The `float` values in some bytes, by their bit patterns. -/
def floatsOf (bs : Bytes) : List UInt32 :=
  (List.range (bs.length / 4)).map fun i => UInt32.ofNat (ofLeBytes ((bs.drop (4 * i)).take 4))

/-- One turn of the first loop of `GammaDocToPbDoc`. -/
def addTableField (doc : Document) (name : String) (f : GammaField) : Document :=
  match f.datatype with
  | .int =>
    { doc with ints := doc.ints.insert name (UInt32.ofNat (ofLeBytes (f.value.take 4))).toInt32 }
  | .long =>
    { doc with longs := doc.longs.insert name (UInt64.ofNat (ofLeBytes (f.value.take 8))).toInt64 }
  | .float => { doc with floats := doc.floats.insert name (UInt32.ofNat (ofLeBytes (f.value.take 4))) }
  | .double =>
    { doc with doubles := doc.doubles.insert name (UInt64.ofNat (ofLeBytes (f.value.take 8))) }
  | .string => { doc with strings := doc.strings.insert name (ofUtf8 f.value) }
  | .stringArray =>
    { doc with stringArrays := doc.stringArrays.insert name (splitStringArray f.value) }
  | .vector => doc

/-- `GammaDocToPbDoc`.  The second loop is meant for the vector fields, but visits the
table fields again; the vectors of the document are lost. -/
def gammaDocToPbDoc (gammaDoc : GammaDoc) : Document :=
  let doc := gammaDoc.tableFields.toList.foldl (fun d e => addTableField d e.1 e.2) {}
  gammaDoc.tableFields.toList.foldl
    (fun d e => { d with vectors := d.vectors.insert e.1 (floatsOf e.2.value) }) doc

/-! ### The engine's table -/

/-- `ToGammaDtype`; a name that is not listed gives `INT`. -/
def toGammaDtype (dataType : String) : DataType :=
  if dataType = intSdtype then .int
  else if dataType = floatSdtype then .float
  else if dataType = doubleSdtype then .double
  else if dataType = stringSdtype then .string
  else if dataType = vectorSdtype then .vector
  else .int

structure FieldInfo where
  name : String
  dataType : DataType
  isIndex : Bool
  deriving DecidableEq, Repr

structure VectorInfo where
  name : String
  dataType : DataType
  isIndex : Bool
  dimension : UInt32
  storeParam : String
  deriving DecidableEq, Repr

structure TableInfo where
  name : String
  indexType : String := ""
  indexParams : String := ""
  fields : List FieldInfo := []
  vectorInfos : List VectorInfo := []
  deriving DecidableEq, Repr

/-- One turn of the loop of `GetGammaTable`; the last vector field sets the index of the
table. -/
def addColumn (table : TableInfo) (field : Field) : TableInfo :=
  if field.type = "vector" then
    let index := field.index.getD {}
    { table with
      indexType := index.type
      indexParams := index.params.getD ""
      vectorInfos := table.vectorInfos ++
        [{ name := field.name, dataType := toGammaDtype field.type, isIndex := true,
           dimension := field.dimension.getD 0, storeParam := index.params.getD "" }] }
  else
    { table with
      fields := table.fields ++
        [{ name := field.name, dataType := toGammaDtype field.type,
           isIndex := field.index.isSome }] }

def getGammaTable (space : Space) : TableInfo :=
  space.fields.foldl addColumn { name := space.spaceName }

theorem mem_columns (c : FieldInfo) : ∀ (fields : List Field) (table : TableInfo),
    c ∈ (fields.foldl addColumn table).fields ↔ c ∈ table.fields ∨
      ∃ f ∈ fields, f.type ≠ "vector" ∧ c = ⟨f.name, toGammaDtype f.type, f.index.isSome⟩ := by
  intro fields
  induction fields with
  | nil => intro table; simp
  | cons f fields ih =>
    intro table
    rw [List.foldl_cons, ih]
    by_cases hf : f.type = "vector"
    · simp [addColumn, hf]
    · simp [addColumn, hf, or_assoc]

theorem index_columns : ∀ (fields : List Field) (table : TableInfo),
    ((fields.foldl addColumn table).indexType, (fields.foldl addColumn table).indexParams)
      = ((((fields.map fun f => (f.type, f.index)).filter (·.1 = "vector")).getLast?).map
          fun e => ((e.2.getD {}).type, (e.2.getD {}).params.getD "")).getD
        (table.indexType, table.indexParams) := by
  intro fields
  induction fields with
  | nil => intro table; rfl
  | cons f fields ih =>
    intro table
    rw [List.foldl_cons, ih]
    by_cases hf : f.type = "vector"
    · rw [List.map_cons, List.filter_cons_of_pos (by simpa using hf), List.getLast?_cons]
      cases ((fields.map fun f => (f.type, f.index)).filter (·.1 = "vector")).getLast? with
      | none => simp [addColumn, hf]
      | some e => rfl
    · rw [List.map_cons, List.filter_cons_of_neg (by simpa using hf)]
      simp [addColumn, hf]

end SimSearch
