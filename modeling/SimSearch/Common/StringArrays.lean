import SimSearch.Common.Dto
import SimSearch.Lib.Separators
import SimSearch.Lib.Verdicts

/-!
# String arrays in the engine

A string array is stored as one text: `PbDocToGammaDoc` writes a comma after each element and
removes the last one, and `GammaDocToPbDoc` reads items up to commas with `std::getline`.

The separator is one byte, and no other character has this byte in its encoding
(`comma_mem_utf8Bytes`), so the split can be read on texts: items have no comma, and an item
that is empty at the end is not read.  The arrays are the last of the maps that give table
fields, so what is stored under the name of an array is the array (`tableFields_stringArray`).
`stringArray_read_iff` says which lists come back.
-/

namespace SimSearch

open SimSearch.Lib

/-! ### Encodings -/

theorem mk_utf8Bytes (s : String) : (⟨(utf8Bytes s).toArray⟩ : ByteArray) = s.toByteArray := by
  rw [← String.utf8Encode_toList, List.utf8Encode]
  apply ByteArray.ext
  rw [List.data_toByteArray]
  rfl

/-- **The text of an encoding is the text.** -/
theorem ofUtf8_utf8Bytes (s : String) : ofUtf8 (utf8Bytes s) = s := by
  unfold ofUtf8
  rw [mk_utf8Bytes, String.fromUTF8?, dif_pos s.isValidUTF8]
  rfl

theorem utf8Bytes_of_fromUTF8 {bs : Bytes} {s : String}
    (h : String.fromUTF8? ⟨bs.toArray⟩ = some s) : utf8Bytes s = bs := by
  unfold String.fromUTF8? at h
  split_ifs at h with hvalid
  have hs : s.toByteArray = ⟨bs.toArray⟩ := by
    rw [← Option.some.inj h]
    rfl
  have harr := congrArg ByteArray.data ((mk_utf8Bytes s).trans hs)
  simpa using harr

theorem utf8Bytes_eq_nil {s : String} : utf8Bytes s = [] ↔ s = "" := by
  constructor
  · intro h
    rw [← ofUtf8_utf8Bytes s, h]
    rfl
  · rintro rfl
    rfl

theorem toNat_of_eq_ofNat {n : Nat} (h : (44 : UInt8) = UInt8.ofNat n) : n % 256 = 44 := by
  have hnat := congrArg UInt8.toNat h
  simpa using hnat.symm

theorem comma_mem_utf8EncodeChar {c : Char} : 44 ∈ String.utf8EncodeChar c ↔ c = ',' := by
  constructor
  · intro h
    rw [String.utf8EncodeChar.eq_1] at h
    split_ifs at h with h1 h2 h3
    · have hval := toNat_of_eq_ofNat (List.mem_singleton.mp h)
      refine Char.ext (UInt32.toNat_inj.mp ?_)
      show c.val.toNat = 44
      omega
    -- the bytes of a longer encoding are 128 and more
    all_goals
      simp only [List.mem_cons, List.not_mem_nil, or_false] at h
    · rcases h with h | h
      all_goals
        have hval := toNat_of_eq_ofNat h
        omega
    · rcases h with h | h | h
      all_goals
        have hval := toNat_of_eq_ofNat h
        omega
    · rcases h with h | h | h | h
      all_goals
        have hval := toNat_of_eq_ofNat h
        omega
  · rintro rfl
    decide

theorem comma_mem_utf8Bytes {s : String} : 44 ∈ utf8Bytes s ↔ ',' ∈ s.toList := by
  unfold utf8Bytes
  rw [List.mem_flatMap]
  constructor
  · rintro ⟨c, hc, h⟩
    rw [← comma_mem_utf8EncodeChar.mp h]
    exact hc
  · intro h
    exact ⟨',', h, comma_mem_utf8EncodeChar.mpr rfl⟩

theorem comma_not_mem_ofUtf8 {bs : Bytes} (h : 44 ∉ bs) : ',' ∉ (ofUtf8 bs).toList := by
  unfold ofUtf8
  cases htext : String.fromUTF8? ⟨bs.toArray⟩ with
  | none => simp
  | some s =>
    rw [← utf8Bytes_of_fromUTF8 htext, comma_mem_utf8Bytes] at h
    exact h

/-! ### The stored text -/

theorem utf8Bytes_joinStringArray (l : List String) :
    utf8Bytes (joinStringArray l) = [44].intercalate (l.map utf8Bytes) := by
  have hjoin : (joinStringArray l).toList = [','].intercalate (l.map String.toList) := by
    unfold joinStringArray
    rw [String.toList_ofList, ← dropLast_flatMap_append, List.flatMap_map]
  unfold utf8Bytes
  rw [hjoin, flatMap_intercalate, List.map_map]
  rfl

theorem splitStringArray_eq (bs : Bytes) : splitStringArray bs = (lines 44 bs).map ofUtf8 := rfl

/-- The lists that come back: no element has a comma, and the last one is not empty. -/
def Readable (l : List String) : Prop :=
  l = [] ∨ ((∀ s ∈ l, ',' ∉ s.toList) ∧ l.getLast? ≠ some "")

/-- **When a string array comes back as it was.** -/
theorem splitStringArray_join_iff (l : List String) :
    splitStringArray (utf8Bytes (joinStringArray l)) = l ↔ Readable l := by
  unfold Readable
  rw [splitStringArray_eq, utf8Bytes_joinStringArray]
  by_cases hnil : l = []
  · subst hnil
    exact iff_of_true rfl (Or.inl rfl)
  rw [or_iff_right hnil]
  have hmap : l.map utf8Bytes ≠ [] := fun h => hnil (List.map_eq_nil_iff.mp h)
  -- without commas, the items are those of the list, except for an empty last one
  have hlines : (∀ s ∈ l, ',' ∉ s.toList) → lines 44 ([44].intercalate (l.map utf8Bytes))
      = if l.getLast? = some "" then (l.map utf8Bytes).dropLast else l.map utf8Bytes := by
    intro hcomma
    have hlast : (l.map utf8Bytes).getLast? = some [] ↔ l.getLast? = some "" := by
      rw [List.getLast?_map, Option.map_eq_some_iff]
      simp only [utf8Bytes_eq_nil, exists_eq_right]
    rw [lines_intercalate hmap]
    · simp only [hlast]
    · intro bs hbs
      obtain ⟨s, hs, rfl⟩ := List.mem_map.mp hbs
      exact fun h => hcomma s hs (comma_mem_utf8Bytes.mp h)
  have hback : (l.map utf8Bytes).map ofUtf8 = l := by
    rw [List.map_map]
    exact (List.map_congr_left fun s _ => ofUtf8_utf8Bytes s).trans (List.map_id l)
  constructor
  · intro heq
    have hcomma : ∀ s ∈ l, ',' ∉ s.toList := by
      intro s hs
      rw [← heq] at hs
      obtain ⟨bs, hbs, rfl⟩ := List.mem_map.mp hs
      exact comma_not_mem_ofUtf8 (not_mem_of_mem_lines hbs)
    refine ⟨hcomma, fun hlast => ?_⟩
    rw [hlines hcomma, if_pos hlast] at heq
    have hlen := congrArg List.length heq
    rw [List.length_map, List.length_dropLast, List.length_map] at hlen
    have hpos := List.length_pos_iff.mpr hnil
    omega
  · rintro ⟨hcomma, hlast⟩
    rw [hlines hcomma, if_neg hlast, hback]

/-! ### Through the engine's document -/

def stringArrayEntry (name : String) (l : List String) : GammaField :=
  ⟨name, utf8Bytes (joinStringArray l), .stringArray⟩

theorem tableFields_foldl_arrays : ∀ (l : List (String × List String)) (out : GammaDoc),
    ((l.map fun e => stringArrayEntry e.1 e.2).foldl GammaDoc.addField out).tableFields
      = l.foldl (fun m e => m.insert e.1 (stringArrayEntry e.1 e.2)) out.tableFields := by
  intro l
  induction l with
  | nil => intro out; rfl
  | cons e l ih =>
    intro out
    rw [List.map_cons, List.foldl_cons, ih]
    rfl

theorem tableFields_foldl_vectors : ∀ (l : List GammaField) (out : GammaDoc),
    (∀ f ∈ l, f.datatype = .vector) →
    (l.foldl GammaDoc.addField out).tableFields = out.tableFields := by
  intro l
  induction l with
  | nil => intro out _; rfl
  | cons f l ih =>
    intro out h
    obtain ⟨hf, hl⟩ := List.forall_mem_cons.mp h
    rw [List.foldl_cons, ih _ hl, GammaDoc.addField, if_pos hf]

/-- **Under the name of a string array the engine gets the array**, whatever the other maps
hold. -/
theorem tableFields_stringArray {doc : Document} {space : Space} {v : Int}
    (hlong : space.idType = longSdtype) (hid : strToInt64 doc.id = .ok v) {name : String}
    {l : List String} (h : doc.stringArrays[name]? = some l) :
    (pbDocToGammaDoc doc space {}).2.tableFields[name]? = some (stringArrayEntry name l) := by
  have hsplit : loopSdtypes.flatMap (mapEntries doc)
      = loopSdtypes.dropLast.dropLast.flatMap (mapEntries doc)
        ++ (doc.stringArrays.toList.map (fun e => stringArrayEntry e.1 e.2)
          ++ mapEntries doc vectorSdtype) := by
    rw [show loopSdtypes = loopSdtypes.dropLast.dropLast ++ [stringarraySdtype, vectorSdtype]
      from rfl, List.flatMap_append, List.flatMap_cons, List.flatMap_singleton]
    rfl
  have hvectors : ∀ f ∈ mapEntries doc vectorSdtype, f.datatype = .vector := by
    intro f hf
    obtain ⟨e, -, rfl⟩ := List.mem_map.mp hf
    rfl
  rw [pbDocToGammaDoc_entries hlong hid]
  simp only
  rw [hsplit, List.foldl_append, List.foldl_append, tableFields_foldl_vectors _ _ hvectors,
    tableFields_foldl_arrays, getElem?_foldl_toList stringArrayEntry, h]
  rfl

theorem stringArrays_addTableField (doc : Document) (name : String) (f : GammaField) :
    (addTableField doc name f).stringArrays
      = if f.datatype = .stringArray then
          doc.stringArrays.insert name (splitStringArray f.value)
        else doc.stringArrays := by
  unfold addTableField
  cases f.datatype <;> rfl

theorem stringArrays_foldl_other {name : String} : ∀ (l : List (String × GammaField))
    (doc : Document), (∀ e ∈ l, e.1 ≠ name) →
    (l.foldl (fun d e => addTableField d e.1 e.2) doc).stringArrays[name]?
      = doc.stringArrays[name]? := by
  intro l
  induction l with
  | nil => intro doc _; rfl
  | cons e l ih =>
    intro doc h
    obtain ⟨he, hl⟩ := List.forall_mem_cons.mp h
    rw [List.foldl_cons, ih _ hl, stringArrays_addTableField]
    split_ifs
    · rw [Std.TreeMap.getElem?_insert, if_neg fun hcmp => he (Std.LawfulEqCmp.eq_of_compare hcmp)]
    · rfl

theorem stringArrays_foldl {name : String} {f : GammaField} (hf : f.datatype = .stringArray) :
    ∀ (l : List (String × GammaField)) (doc : Document), l.Pairwise (fun a b => a.1 ≠ b.1) →
      (name, f) ∈ l →
      (l.foldl (fun d e => addTableField d e.1 e.2) doc).stringArrays[name]?
        = some (splitStringArray f.value) := by
  intro l
  induction l with
  | nil => intro doc _ h; cases h
  | cons e l ih =>
    intro doc hkeys h
    obtain ⟨he, hl⟩ := List.pairwise_cons.mp hkeys
    rw [List.foldl_cons]
    rcases List.mem_cons.mp h with rfl | h
    · -- no later field has the name
      rw [stringArrays_foldl_other l _ fun x hx hname => he x hx hname.symm,
        stringArrays_addTableField, if_pos hf, Std.TreeMap.getElem?_insert_self]
    · exact ih _ hl h

theorem stringArrays_foldl_vectors : ∀ (l : List (String × GammaField)) (doc : Document),
    (l.foldl (fun d e => { d with vectors := d.vectors.insert e.1 (floatsOf e.2.value) })
      doc).stringArrays = doc.stringArrays := by
  intro l
  induction l with
  | nil => intro doc; rfl
  | cons e l ih =>
    intro doc
    rw [List.foldl_cons, ih]

/-- A field of type string array is read into the array of its name. -/
theorem stringArrays_gammaDocToPbDoc {g : GammaDoc} {name : String} {f : GammaField}
    (h : g.tableFields[name]? = some f) (hf : f.datatype = .stringArray) :
    (gammaDocToPbDoc g).stringArrays[name]? = some (splitStringArray f.value) := by
  unfold gammaDocToPbDoc
  rw [stringArrays_foldl_vectors]
  refine stringArrays_foldl hf _ _ ?_ (Std.TreeMap.mem_toList_iff_getElem?_eq_some.mpr h)
  refine Std.TreeMap.distinct_keys_toList.imp fun {a b} hab heq => hab ?_
  rw [show a.1 = b.1 from heq]
  exact Std.ReflCmp.compare_self

/-- **A string array that is stored comes back exactly when it is readable.** -/
theorem stringArray_read_iff (doc : Document) (space : Space) (v : Int)
    (hlong : space.idType = longSdtype) (hid : strToInt64 doc.id = .ok v) (name : String)
    (l : List String) (h : doc.stringArrays[name]? = some l) :
    (gammaDocToPbDoc (pbDocToGammaDoc doc space {}).2).stringArrays[name]? = some l
      ↔ Readable l := by
  rw [stringArrays_gammaDocToPbDoc (tableFields_stringArray hlong hid h) rfl, Option.some.injEq]
  exact splitStringArray_join_iff l

def taggedDoc (tags : List String) : Document :=
  { idOpt := some "1", stringArrays := (∅ : PbMap (List String)).insert "tags" tags }

def longKeys : Space := { idTypeOpt := some longSdtype }

/-- An empty element before the last comes back. -/
theorem stringArray_read_tags :
    (taggedDoc ["a", "", "b"]).stringArrays["tags"]? = some ["a", "", "b"] ∧
      (gammaDocToPbDoc (pbDocToGammaDoc (taggedDoc ["a", "", "b"]) longKeys
        {}).2).stringArrays["tags"]? = some ["a", "", "b"] := by
  have hread : Readable ["a", "", "b"] := Or.inr ⟨by decide, by decide⟩
  exact ⟨by decide, (stringArray_read_iff (taggedDoc ["a", "", "b"]) longKeys 1 rfl (by decide)
    "tags" ["a", "", "b"] (by decide)).mpr hread⟩

/-- A single empty element, an empty last one, and an element with a comma are not read back. -/
theorem stringArray_not_read :
    (gammaDocToPbDoc (pbDocToGammaDoc (taggedDoc [""]) longKeys {}).2).stringArrays["tags"]?
        = some [] ∧
      (gammaDocToPbDoc (pbDocToGammaDoc (taggedDoc ["a", ""]) longKeys
        {}).2).stringArrays["tags"]? = some ["a"] ∧
      (gammaDocToPbDoc (pbDocToGammaDoc (taggedDoc ["a,b"]) longKeys
        {}).2).stringArrays["tags"]? = some ["a", "b"] := by
  decide +kernel

end SimSearch
