import SimSearch.Common.Dto
import SimSearch.Lib.Verdicts

/-!
# Vectors in the engine

`PbDocToGammaDoc` stores a vector as the bytes of its floats, four for each, among the vector
fields of the engine's document.  `GammaDocToPbDoc` cuts bytes into floats again, but takes
them from the table fields.

* `vectors_stored`: the vector fields hold all vectors, and `floatsOf` reads them back.
* `vectors_gammaDocToPbDoc`: the vectors that are returned are the table fields, read as
  floats.  A document that was converted has at least one, its key.
* `vectors_read_iff`: so vectors come back only for documents that are refused and have none.
-/

namespace SimSearch

open SimSearch.Lib

/-! ### Floats as bytes -/

theorem floatsOf_append {bs : Bytes} (h : bs.length = 4) (rest : Bytes) :
    floatsOf (bs ++ rest) = UInt32.ofNat (ofLeBytes bs) :: floatsOf rest := by
  have hlen : (bs ++ rest).length / 4 = rest.length / 4 + 1 := by
    rw [List.length_append, h]
    omega
  unfold floatsOf
  rw [hlen, List.range_succ_eq_map, List.map_cons, List.map_map]
  congr 1
  · rw [Nat.mul_zero, List.drop_zero, List.take_left' h]
  · refine List.map_congr_left fun i _ => ?_
    have hdrop : (bs ++ rest).drop (4 * (i + 1)) = rest.drop (4 * i) := by
      rw [show 4 * (i + 1) = 4 + 4 * i by omega, ← List.drop_drop, List.drop_left' h]
    rw [Function.comp_apply, Nat.succ_eq_add_one, hdrop]

/-- **The floats of a vector are read back from its bytes.** -/
theorem floatsOf_flatMap (v : List UInt32) :
    floatsOf (v.flatMap fun x => leBytes 4 x.toNat) = v := by
  induction v with
  | nil => rfl
  | cons x v ih =>
    rw [List.flatMap_cons, floatsOf_append (leBytes_length 4 _), ih,
      ofLeBytes_leBytes 4 _ (by exact x.toNat_lt), UInt32.ofNat_toNat]

/-! ### What is stored -/

def vectorEntry (name : String) (v : List UInt32) : GammaField :=
  ⟨name, v.flatMap (fun x => leBytes 4 x.toNat), .vector⟩

theorem vectorFields_foldl_table : ∀ (l : List GammaField) (out : GammaDoc),
    (∀ f ∈ l, f.datatype ≠ .vector) →
    (l.foldl GammaDoc.addField out).vectorFields = out.vectorFields := by
  intro l
  induction l with
  | nil => intro out _; rfl
  | cons f l ih =>
    intro out h
    obtain ⟨hf, hl⟩ := List.forall_mem_cons.mp h
    rw [List.foldl_cons, ih _ hl, GammaDoc.addField, if_neg hf]

theorem vectorFields_foldl_vectors : ∀ (l : List (String × List UInt32)) (out : GammaDoc),
    ((l.map fun e => vectorEntry e.1 e.2).foldl GammaDoc.addField out).vectorFields
      = l.foldl (fun m e => m.insert e.1 (vectorEntry e.1 e.2)) out.vectorFields := by
  intro l
  induction l with
  | nil => intro out; rfl
  | cons e l ih =>
    intro out
    rw [List.map_cons, List.foldl_cons, ih]
    rfl

theorem tableFields_foldl_mem {name : String} : ∀ (l : List GammaField) (out : GammaDoc),
    name ∈ out.tableFields → name ∈ (l.foldl GammaDoc.addField out).tableFields := by
  intro l
  induction l with
  | nil => intro out h; exact h
  | cons f l ih =>
    intro out h
    refine ih _ ?_
    unfold GammaDoc.addField
    by_cases hf : f.datatype = .vector
    · rw [if_pos hf]
      exact h
    · rw [if_neg hf]
      exact Std.TreeMap.mem_insert.mpr (Or.inr h)

/-- Either nothing is built, or the key and the entries of the maps are added. -/
theorem pbDocToGammaDoc_cases (doc : Document) (space : Space) :
    ((pbDocToGammaDoc doc space {}).1 ≠ "" ∧ (pbDocToGammaDoc doc space {}).2 = {}) ∨
      ∃ v : Int, pbDocToGammaDoc doc space {} = ("", (loopSdtypes.flatMap (mapEntries doc)).foldl
        GammaDoc.addField
        (({} : GammaDoc).addField ⟨idField, leBytes 8 (v % 2 ^ 64).toNat, .long⟩)) := by
  by_cases hlong : space.idType = longSdtype
  · cases hid : strToInt64 doc.id with
    | error status =>
      simp [pbDocToGammaDoc, hlong, hid]
    | ok v => exact Or.inr ⟨v, pbDocToGammaDoc_entries hlong hid {}⟩
  · simp [pbDocToGammaDoc, hlong]

theorem datatype_tableEntries (doc : Document) :
    ∀ f ∈ loopSdtypes.dropLast.flatMap (mapEntries doc), f.datatype ≠ .vector := by
  intro f hf
  obtain ⟨type, htype, hf⟩ := List.mem_flatMap.mp hf
  have htypes : type = intSdtype ∨ type = longSdtype ∨ type = floatSdtype ∨ type = doubleSdtype ∨
      type = stringSdtype ∨ type = stringarraySdtype := by
    simpa [loopSdtypes] using htype
  rcases htypes with rfl | rfl | rfl | rfl | rfl | rfl <;>
    · obtain ⟨e, -, rfl⟩ := List.mem_map.mp hf
      exact DataType.noConfusion

/-- **The vectors of a converted document are stored**, and their bytes are read back. -/
theorem vectors_stored {doc : Document} {space : Space}
    (h : (pbDocToGammaDoc doc space {}).1 = "") (name : String) :
    ((pbDocToGammaDoc doc space {}).2.vectorFields[name]?).map (fun f => floatsOf f.value)
      = doc.vectors[name]? := by
  rcases pbDocToGammaDoc_cases doc space with ⟨hmsg, -⟩ | ⟨v, hconv⟩
  · exact absurd h hmsg
  · have hsplit : loopSdtypes.flatMap (mapEntries doc)
        = loopSdtypes.dropLast.flatMap (mapEntries doc)
          ++ doc.vectors.toList.map (fun e => vectorEntry e.1 e.2) := by
      rw [show loopSdtypes = loopSdtypes.dropLast ++ [vectorSdtype] from rfl, List.flatMap_append,
        List.flatMap_singleton]
      rfl
    rw [hconv]
    simp only
    rw [hsplit, List.foldl_append, vectorFields_foldl_vectors,
      vectorFields_foldl_table _ _ (datatype_tableEntries doc), getElem?_foldl_toList vectorEntry]
    cases doc.vectors[name]? with
    | none => rfl
    | some w => exact congrArg some (floatsOf_flatMap w)

/-! ### What is returned -/

theorem vectors_addTableField (doc : Document) (name : String) (f : GammaField) :
    (addTableField doc name f).vectors = doc.vectors := by
  unfold addTableField
  cases f.datatype <;> rfl

theorem vectors_foldl_table : ∀ (l : List (String × GammaField)) (doc : Document),
    (l.foldl (fun d e => addTableField d e.1 e.2) doc).vectors = doc.vectors := by
  intro l
  induction l with
  | nil => intro doc; rfl
  | cons e l ih =>
    intro doc
    rw [List.foldl_cons, ih, vectors_addTableField]

theorem vectors_foldl : ∀ (l : List (String × GammaField)) (doc : Document),
    (l.foldl (fun d e => { d with vectors := d.vectors.insert e.1 (floatsOf e.2.value) })
        doc).vectors
      = l.foldl (fun m e => m.insert e.1 (floatsOf e.2.value)) doc.vectors := by
  intro l
  induction l with
  | nil => intro doc; rfl
  | cons e l ih =>
    intro doc
    rw [List.foldl_cons, ih, List.foldl_cons]

/-- **The vectors that are returned are the table fields, read as floats.** -/
theorem vectors_gammaDocToPbDoc (g : GammaDoc) (name : String) :
    (gammaDocToPbDoc g).vectors[name]? = (g.tableFields[name]?).map fun f => floatsOf f.value := by
  unfold gammaDocToPbDoc
  rw [vectors_foldl, vectors_foldl_table,
    getElem?_foldl_toList (fun _ (f : GammaField) => floatsOf f.value)]
  simp

def GammaDoc.withoutTable (g : GammaDoc) (name : String) : GammaDoc :=
  { g with tableFields := g.tableFields.erase name }

/-- The vectors that are read back are those of the document, and no table field gives one of
them: without it they are the same. -/
def VectorsRoundTrip (doc : Document) (g : GammaDoc) : Prop :=
  (∀ name : String, (gammaDocToPbDoc g).vectors[name]? = doc.vectors[name]?) ∧
    ∀ field name : String, (gammaDocToPbDoc (g.withoutTable field)).vectors[name]?
      = (gammaDocToPbDoc g).vectors[name]?

/-- **Every table field becomes a vector.** -/
theorem not_vectorsRoundTrip_of_table {doc : Document} {g : GammaDoc} {field : String}
    (h : field ∈ g.tableFields) : ¬ VectorsRoundTrip doc g := by
  rintro ⟨-, hnone⟩
  have herased := hnone field field
  rw [vectors_gammaDocToPbDoc, vectors_gammaDocToPbDoc, GammaDoc.withoutTable,
    Std.TreeMap.getElem?_erase_self, Option.map_none] at herased
  rw [Std.TreeMap.mem_iff_isSome_getElem?, ← Option.isSome_map (f := fun f => floatsOf f.value),
    ← herased] at h
  cases h

theorem vectorsRoundTrip_empty {doc : Document} :
    VectorsRoundTrip doc {} ↔ ∀ name, name ∉ doc.vectors := by
  have hempty : ∀ (g : GammaDoc) (name : String), g.tableFields[name]? = none →
      (gammaDocToPbDoc g).vectors[name]? = none := by
    intro g name h
    rw [vectors_gammaDocToPbDoc, h, Option.map_none]
  constructor
  · rintro ⟨hkept, -⟩ name
    rw [Std.TreeMap.mem_iff_isSome_getElem?, ← hkept name, hempty {} name (by simp)]
    exact Bool.false_ne_true
  · intro hno
    refine ⟨fun name => ?_, fun field name => ?_⟩
    · rw [hempty {} name (by simp), Std.TreeMap.getElem?_eq_none (hno name)]
    · rw [hempty {} name (by simp), hempty _ name (by simp [GammaDoc.withoutTable])]

/-- **The vectors of a document come back only if it has none and is not converted**: the id
type of the space is not `long`, or the id is no number.  A document that is converted has a
table field for its key, and every table field becomes a vector. -/
theorem vectors_read_iff (doc : Document) (space : Space) :
    VectorsRoundTrip doc (pbDocToGammaDoc doc space {}).2 ↔
      (space.idType ≠ longSdtype ∨ ∃ status, strToInt64 doc.id = .error status) ∧
        ∀ name, name ∉ doc.vectors := by
  by_cases hlong : space.idType = longSdtype
  · cases hid : strToInt64 doc.id with
    | ok v =>
      have hkey : idField ∈ (pbDocToGammaDoc doc space {}).2.tableFields := by
        rw [pbDocToGammaDoc_entries hlong hid]
        exact tableFields_foldl_mem _ _ Std.TreeMap.mem_insert_self
      constructor
      · exact fun h => absurd h (not_vectorsRoundTrip_of_table hkey)
      · rintro ⟨hne | ⟨status, hstatus⟩, -⟩
        · exact absurd hlong hne
        · cases hstatus
    | error status =>
      have hnone : (pbDocToGammaDoc doc space {}).2 = {} := by
        simp [pbDocToGammaDoc, hlong, hid]
      rw [hnone, vectorsRoundTrip_empty]
      exact ⟨fun h => ⟨Or.inr ⟨status, rfl⟩, h⟩, fun h => h.2⟩
  · have hnone : (pbDocToGammaDoc doc space {}).2 = {} := by
      simp [pbDocToGammaDoc, hlong]
    rw [hnone, vectorsRoundTrip_empty]
    exact ⟨fun h => ⟨Or.inl hlong, h⟩, fun h => h.2⟩

def pictureDoc : Document :=
  { idOpt := some "7",
    vectors := (∅ : PbMap (List UInt32)).insert "embedding" [0x3f800000, 0x40000000] }

/-- The vector is not returned, and the key is. -/
theorem vector_not_returned :
    let space : Space := { idTypeOpt := some longSdtype }
    (pbDocToGammaDoc pictureDoc space {}).1 = "" ∧
      (gammaDocToPbDoc (pbDocToGammaDoc pictureDoc space {}).2).vectors.toList
        = [(idField, [7, 0])] ∧
      ¬ VectorsRoundTrip pictureDoc (pbDocToGammaDoc pictureDoc space {}).2 := by
  have hkey : idField ∈ (pbDocToGammaDoc pictureDoc { idTypeOpt := some longSdtype }
      {}).2.tableFields := by decide +kernel
  exact ⟨by decide +kernel, by decide +kernel, not_vectorsRoundTrip_of_table hkey⟩

end SimSearch
