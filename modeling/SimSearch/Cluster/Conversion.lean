import SimSearch.Cluster.Schema

/-!
# What the engine gets of a document

A document has its values in seven maps, one for each type, and the engine's document has one
map by name.  `PbDocToGammaDoc` puts the key into it first and then goes through the maps, and
a later field replaces an earlier one of the same name.  `CheckPbDoc` asks only that each
declared field is found in the map of its type: a name may be in other maps as well, and
`_id` may be a name in any of them.

* `tableFields_pbDocToGammaDoc`: the field of a name is the last one that was added.
* `lastEntry_own_iff`: it is the one of the declared type when no later map has the name.
* `id_converts_iff` and `faithful_iff`: when the key, and when all declared values arrive.
-/

namespace SimSearch.Cluster

open SimSearch.Lib

/-! ### The last field of a name -/

/-- A field that `AddField` keeps under `name` in the table. -/
def isTableField (name : String) (f : GammaField) : Bool :=
  decide (f.name = name) && decide (f.datatype ≠ .vector)

theorem tableFields_addField (out : GammaDoc) (f : GammaField) (name : String) :
    (out.addField f).tableFields[name]?
      = if isTableField name f then some f else out.tableFields[name]? := by
  unfold GammaDoc.addField isTableField
  by_cases hvec : f.datatype = .vector
  · simp [hvec]
  · rw [if_neg hvec, Std.TreeMap.getElem?_insert]
    by_cases hname : f.name = name
    · simp [hvec, hname]
    · simp [hname]

theorem tableFields_foldl (name : String) : ∀ (l : List GammaField) (out : GammaDoc),
    (l.foldl GammaDoc.addField out).tableFields[name]?
      = (l.reverse.find? (isTableField name)).or out.tableFields[name]? := by
  intro l
  induction l with
  | nil => intro out; rfl
  | cons f l ih =>
    intro out
    rw [List.foldl_cons, ih, tableFields_addField, List.reverse_cons, List.find?_append,
      Option.or_assoc]
    by_cases hf : isTableField name f
    · simp [hf]
    · simp [hf]

/-- The last field of the table that the loops of `PbDocToGammaDoc` add under a name. -/
def lastEntry (doc : Document) (name : String) : Option GammaField :=
  (loopSdtypes.flatMap (mapEntries doc)).reverse.find? (isTableField name)

def idBytes (v : Int) : Bytes := leBytes 8 (v % 2 ^ 64).toNat

/-- **The field of a name is the last one that was added**; the key comes before all maps. -/
theorem tableFields_pbDocToGammaDoc {doc : Document} {space : Space} {v : Int}
    (hlong : space.idType = longSdtype) (hid : strToInt64 doc.id = .ok v) (name : String) :
    (pbDocToGammaDoc doc space {}).2.tableFields[name]?
      = (lastEntry doc name).or
          (if name = idField then some ⟨idField, idBytes v, .long⟩ else none) := by
  have hkey : ((({} : GammaDoc)).addField ⟨idField, idBytes v, .long⟩).tableFields[name]?
      = if name = idField then some ⟨idField, idBytes v, .long⟩ else none := by
    rw [tableFields_addField]
    by_cases hname : name = idField
    · subst hname
      rfl
    · have hne : idField ≠ name := fun h => hname h.symm
      simp [isTableField, hname, hne]
  rw [pbDocToGammaDoc_entries hlong hid]
  simp only
  rw [tableFields_foldl, ← hkey]
  rfl

/-! ### Later maps -/

/-- The maps that `PbDocToGammaDoc` visits after the one of a type. -/
def laterSdtypes (type : String) : List String :=
  (loopSdtypes.dropWhile fun t => decide (t ≠ type)).tail

theorem loopSdtypes_split {type : String} (h : type ∈ scalarSdtypes) :
    ∃ pre, loopSdtypes = pre ++ type :: laterSdtypes type := by
  refine ⟨loopSdtypes.takeWhile fun t => decide (t ≠ type), ?_⟩
  simp only [scalarSdtypes, List.mem_cons, List.not_mem_nil, or_false] at h
  rcases h with rfl | rfl | rfl | rfl | rfl | rfl <;> decide

theorem valueDtype_later {type later : String} (h : type ∈ scalarSdtypes)
    (hlater : later ∈ laterSdtypes type) :
    later ∈ loopSdtypes ∧ valueDtype later ≠ valueDtype type := by
  have hall : ∀ t ∈ scalarSdtypes, ∀ u ∈ laterSdtypes t,
      u ∈ loopSdtypes ∧ valueDtype u ≠ valueDtype t := by decide
  exact hall type h later hlater

theorem exists_tableField_iff {doc : Document} {type : String} (htype : type ∈ loopSdtypes)
    (name : String) :
    (∃ e ∈ mapEntries doc type, isTableField name e = true) ↔ mapHas doc type name = true := by
  have hcase : type ∈ scalarSdtypes ∨ type = vectorSdtype := by
    have hall : ∀ t ∈ loopSdtypes, t ∈ scalarSdtypes ∨ t = vectorSdtype := by decide
    exact hall type htype
  rcases hcase with hscalar | rfl
  · have hdtype : valueDtype type ≠ .vector := by
      have hall : ∀ t ∈ scalarSdtypes, valueDtype t ≠ .vector := by decide
      exact hall type hscalar
    rw [mapHas_iff hscalar]
    refine exists_congr fun e => and_congr_right fun he => ?_
    unfold isTableField
    rw [Bool.and_eq_true, decide_eq_true_eq, decide_eq_true_eq, datatype_mapEntries he]
    exact and_iff_left hdtype
  · have hnot : mapHas doc vectorSdtype name = false := rfl
    rw [hnot]
    refine iff_of_false ?_ Bool.false_ne_true
    rintro ⟨e, he, htable⟩
    unfold isTableField at htable
    rw [Bool.and_eq_true, decide_eq_true_eq, decide_eq_true_eq] at htable
    exact htable.2 (datatype_mapEntries he)

/-- The last field of a name in the maps after the one of a type. -/
def laterEntry (doc : Document) (type name : String) : Option GammaField :=
  ((laterSdtypes type).flatMap (mapEntries doc)).reverse.find? (isTableField name)

theorem mem_of_laterEntry {doc : Document} {type name : String} {e : GammaField}
    (h : laterEntry doc type name = some e) :
    ∃ later ∈ laterSdtypes type, e ∈ mapEntries doc later :=
  List.mem_flatMap.mp (List.mem_reverse.mp (List.mem_of_find?_eq_some h))

theorem laterEntry_eq_none_iff {doc : Document} {type name : String}
    (htype : type ∈ scalarSdtypes) :
    laterEntry doc type name = none
      ↔ ∀ later ∈ laterSdtypes type, mapHas doc later name = false := by
  unfold laterEntry
  rw [List.find?_eq_none]
  constructor
  · intro hnone later hlater
    rw [← Bool.not_eq_true]
    intro hhas
    obtain ⟨e, he, htable⟩ :=
      (exists_tableField_iff (valueDtype_later htype hlater).1 name).mpr hhas
    exact hnone e (List.mem_reverse.mpr (List.mem_flatMap.mpr ⟨later, hlater, he⟩)) htable
  · intro hnone e he htable
    obtain ⟨later, hlater, hmem⟩ := List.mem_flatMap.mp (List.mem_reverse.mp he)
    have hhas := (exists_tableField_iff (valueDtype_later htype hlater).1 name).mp
      ⟨e, hmem, htable⟩
    rw [hnone later hlater] at hhas
    cases hhas

/-- A name that the map of its type has: from the end come the later maps, then this one. -/
theorem lastEntry_of_mapHas {doc : Document} {type name : String} (htype : type ∈ scalarSdtypes)
    (hhas : mapHas doc type name = true) :
    ∃ g ∈ mapEntries doc type, g.name = name ∧
      lastEntry doc name = (laterEntry doc type name).or (some g) := by
  obtain ⟨pre, hsplit⟩ := loopSdtypes_split htype
  have hloop : type ∈ loopSdtypes := by
    rw [hsplit]
    exact List.mem_append_right _ List.mem_cons_self
  have hsome : ((mapEntries doc type).reverse.find? (isTableField name)).isSome := by
    rw [List.find?_isSome]
    obtain ⟨e, he, htable⟩ := (exists_tableField_iff hloop name).mpr hhas
    exact ⟨e, List.mem_reverse.mpr he, htable⟩
  obtain ⟨g, hg⟩ := Option.isSome_iff_exists.mp hsome
  have htable := List.find?_some hg
  unfold isTableField at htable
  rw [Bool.and_eq_true, decide_eq_true_eq] at htable
  refine ⟨g, List.mem_reverse.mp (List.mem_of_find?_eq_some hg), htable.1, ?_⟩
  unfold lastEntry laterEntry
  rw [hsplit, List.flatMap_append, List.flatMap_cons, List.reverse_append, List.reverse_append,
    List.find?_append, List.find?_append, Option.or_assoc, hg, Option.some_or]

/-- **The last field is the one of the declared type exactly when no later map has the
name.** -/
theorem lastEntry_own_iff {doc : Document} {type name : String} (htype : type ∈ scalarSdtypes)
    (hhas : mapHas doc type name = true) :
    (∃ g ∈ mapEntries doc type, g.name = name ∧ lastEntry doc name = some g)
      ↔ ∀ later ∈ laterSdtypes type, mapHas doc later name = false := by
  obtain ⟨own, hown, hname, hlast⟩ := lastEntry_of_mapHas htype hhas
  rw [← laterEntry_eq_none_iff htype]
  constructor
  · rintro ⟨g, hg, -, hgl⟩
    cases he : laterEntry doc type name with
    | none => rfl
    | some e =>
      -- a field of a later map has another type
      rw [hlast, he, Option.some_or, Option.some.injEq] at hgl
      subst hgl
      obtain ⟨later, hlater, hmem⟩ := mem_of_laterEntry he
      exact absurd ((datatype_mapEntries hmem).symm.trans (datatype_mapEntries hg))
        (valueDtype_later htype hlater).2
  · intro hnone
    exact ⟨own, hown, hname, by rw [hlast, hnone, Option.none_or]⟩

/-! ### The key -/

/-- `value` is the id of the document: eight bytes of the number for a `long` key, the text
for any other. -/
def HoldsId (space : Space) (doc : Document) (value : Bytes) : Prop :=
  if space.idType = longSdtype then ∃ v, strToInt64 doc.id = .ok v ∧ value = idBytes v
  else value = utf8Bytes doc.id

def SameId (space : Space) (doc doc' : Document) : Prop :=
  if space.idType = longSdtype then strToInt64 doc.id = strToInt64 doc'.id else doc.id = doc'.id

def storedId (space : Space) (doc : Document) : Option GammaField :=
  (pbDocToGammaDoc doc space {}).2.tableFields[idField]?

/-- No map has a value named `_id`, or the last one that has is the id itself. -/
def IdUnshadowed (space : Space) (doc : Document) : Prop :=
  ∀ f, lastEntry doc idField = some f → HoldsId space doc f.value

structure IdConverted (space : Space) (doc : Document) : Prop where
  msg : (pbDocToGammaDoc doc space {}).1 = ""
  stored : ∃ f, storedId space doc = some f ∧ HoldsId space doc f.value

theorem range_of_strToInt64 {str : String} {v : Int} (h : strToInt64 str = .ok v) :
    -2 ^ 63 ≤ v ∧ v < 2 ^ 63 := by
  unfold strToInt64 at h
  simp only at h
  split_ifs at h with hdigits hrange hrest
  have hv : (stollScan str.toList).value = v := Except.ok.inj h
  omega

theorem idBytes_inj {v w : Int} (hv : -2 ^ 63 ≤ v ∧ v < 2 ^ 63) (hw : -2 ^ 63 ≤ w ∧ w < 2 ^ 63)
    (h : idBytes v = idBytes w) : v = w := by
  have hread := congrArg ofLeBytes h
  unfold idBytes at hread
  have hpow : (256 : Nat) ^ 8 = 2 ^ 64 := by norm_num
  rw [ofLeBytes_leBytes _ _ (by omega), ofLeBytes_leBytes _ _ (by omega)] at hread
  omega

/-- What is in the field `_id`, for a `long` key. -/
theorem storedId_holds_iff {space : Space} {doc : Document} (hdoc : checkPbDocIn doc space = "")
    (hlong : space.idType = longSdtype) :
    (∃ f, storedId space doc = some f ∧ HoldsId space doc f.value) ↔ IdUnshadowed space doc := by
  obtain ⟨v, hv⟩ := (checkPbDocIn_eq_empty.mp hdoc).1.2 hlong
  unfold storedId IdUnshadowed
  rw [tableFields_pbDocToGammaDoc hlong hv, if_pos rfl]
  cases hlast : lastEntry doc idField with
  | some f => simp
  | none =>
    refine iff_of_true ⟨_, rfl, ?_⟩ fun f hf => (nomatch hf)
    unfold HoldsId
    rw [if_pos hlong]
    exact ⟨v, hv, rfl⟩

/-- **When the id of an accepted document arrives at the engine**: the key has to be a `long`,
and no value named `_id` may come after it.  Then different ids have different values. -/
theorem id_converts_iff (space : Space) (doc : Document) (hdoc : checkPbDocIn doc space = "") :
    (IdConverted space doc ↔ space.idType = longSdtype ∧ IdUnshadowed space doc) ∧
      ∀ doc', checkPbDocIn doc' space = "" → IdConverted space doc → IdConverted space doc' →
        ¬ SameId space doc doc' →
        (storedId space doc).map GammaField.value ≠ (storedId space doc').map GammaField.value := by
  have hiff : ∀ d, checkPbDocIn d space = "" →
      (IdConverted space d ↔ space.idType = longSdtype ∧ IdUnshadowed space d) := by
    intro d hd
    constructor
    · rintro ⟨hmsg, hstored⟩
      have hlong := (pbDocToGammaDoc_eq_empty_iff hd {}).mp hmsg
      exact ⟨hlong, (storedId_holds_iff hd hlong).mp hstored⟩
    · rintro ⟨hlong, hlast⟩
      exact ⟨(pbDocToGammaDoc_eq_empty_iff hd {}).mpr hlong,
        (storedId_holds_iff hd hlong).mpr hlast⟩
  refine ⟨hiff doc hdoc, ?_⟩
  intro doc' hdoc' hconv hconv' hdiff hsame
  have hlong := ((hiff doc hdoc).mp hconv).1
  obtain ⟨f, hf, hholds⟩ := hconv.stored
  obtain ⟨f', hf', hholds'⟩ := hconv'.stored
  unfold HoldsId at hholds hholds'
  rw [if_pos hlong] at hholds hholds'
  obtain ⟨v, hv, hbytes⟩ := hholds
  obtain ⟨w, hw, hbytes'⟩ := hholds'
  rw [hf, hf', Option.map_some, Option.map_some, Option.some.injEq, hbytes, hbytes'] at hsame
  unfold SameId at hdiff
  rw [if_pos hlong, hv, hw] at hdiff
  exact hdiff (congrArg _ (idBytes_inj (range_of_strToInt64 hv) (range_of_strToInt64 hw) hsame))

def pricesSpace : Space :=
  { dbName := "db", spaceName := "s", partitionNum := 1, replicaNum := 1,
    fields := [{ name := "price", type := intSdtype }], idTypeOpt := some longSdtype }

def priceDoc (id : String) : Document :=
  { idOpt := some id, ints := (∅ : PbMap Int32).insert "price" 5 }

theorem id_converts_prices :
    checkPbDocIn (priceDoc "7") pricesSpace = "" ∧ IdConverted pricesSpace (priceDoc "7") ∧
      (storedId pricesSpace (priceDoc "7")).map GammaField.value
        ≠ (storedId pricesSpace (priceDoc "8")).map GammaField.value := by
  have hseven := (id_converts_iff pricesSpace (priceDoc "7") (by decide)).1.mpr
    ⟨rfl, fun f hf => (nomatch hf)⟩
  have height := (id_converts_iff pricesSpace (priceDoc "8") (by decide)).1.mpr
    ⟨rfl, fun f hf => (nomatch hf)⟩
  have hdiff : ¬ SameId pricesSpace (priceDoc "7") (priceDoc "8") := by
    have h7 : strToInt64 (priceDoc "7").id = .ok 7 := rfl
    have h8 : strToInt64 (priceDoc "8").id = .ok 8 := rfl
    have hlong : pricesSpace.idType = longSdtype := rfl
    unfold SameId
    rw [if_pos hlong, h7, h8]
    exact fun h => absurd (Except.ok.inj h) (by decide)
  exact ⟨by decide, hseven, (id_converts_iff pricesSpace (priceDoc "7") (by decide)).2
    (priceDoc "8") (by decide) hseven height hdiff⟩

def namesSpace : Space := { pricesSpace with idTypeOpt := some stringSdtype }

def shadowedDoc (id : String) : Document :=
  { priceDoc id with longs := (∅ : PbMap Int64).insert idField 9 }

/-- A string key is refused; and two documents with different ids get the same `_id`. -/
theorem id_not_converted :
    checkPbDocIn (priceDoc "a") namesSpace = "" ∧
      (pbDocToGammaDoc (priceDoc "a") namesSpace {}).1 = "Unsupported _id type: string" ∧
      ¬ IdConverted namesSpace (priceDoc "a") ∧
      checkPbDocIn (shadowedDoc "7") pricesSpace = "" ∧
      checkPbDocIn (shadowedDoc "8") pricesSpace = "" ∧
      storedId pricesSpace (shadowedDoc "7") = storedId pricesSpace (shadowedDoc "8") := by
  have hmsg : (pbDocToGammaDoc (priceDoc "a") namesSpace {}).1
      = "Unsupported _id type: string" := by decide
  refine ⟨by decide, hmsg, fun h => ?_, by decide, by decide, by decide⟩
  have hempty := h.msg
  rw [hmsg] at hempty
  exact absurd hempty (by decide)

/-! ### The declared values -/

/-- The engine's document has the id and, for each declared field that is no vector, a field
of this name with the declared type and the value from the map of that type. -/
structure Faithful (space : Space) (doc : Document) : Prop where
  id : ∃ f, storedId space doc = some f ∧ HoldsId space doc f.value
  fields : ∀ f ∈ space.fields, f.type ∈ scalarSdtypes →
    ∃ g ∈ mapEntries doc f.type, g.name = f.name ∧ g.datatype = valueDtype f.type ∧
      (pbDocToGammaDoc doc space {}).2.tableFields[f.name]? = some g

/-- **When an accepted document is converted faithfully**: the id is not shadowed, and no name
of a declared field is in a map that is visited after the one of its type. -/
theorem faithful_iff (space : Space) (hlong : space.idType = longSdtype) (doc : Document)
    (hdoc : checkPbDocIn doc space = "") :
    Faithful space doc ↔ IdUnshadowed space doc ∧
      ∀ f ∈ space.fields, f.type ∈ scalarSdtypes →
        ∀ later ∈ laterSdtypes f.type, mapHas doc later f.name = false := by
  obtain ⟨⟨-, hparse⟩, hchecks⟩ := checkPbDocIn_eq_empty.mp hdoc
  obtain ⟨v, hv⟩ := hparse hlong
  have hfield : ∀ f ∈ space.fields, f.type ∈ scalarSdtypes →
      ((∃ g ∈ mapEntries doc f.type, g.name = f.name ∧ g.datatype = valueDtype f.type ∧
          (pbDocToGammaDoc doc space {}).2.tableFields[f.name]? = some g)
        ↔ ∀ later ∈ laterSdtypes f.type, mapHas doc later f.name = false) := by
    intro f hf htype
    have hhas := (checkPbField_scalar htype).mp (hchecks f hf)
    -- the map of its type has the name, so the last field of the name is from a map
    have hsome : ∃ e, lastEntry doc f.name = some e := by
      have hall : ∀ t ∈ scalarSdtypes, t ∈ loopSdtypes := by decide
      obtain ⟨e, he, htable⟩ := (exists_tableField_iff (hall _ htype) f.name).mpr hhas
      rw [← Option.isSome_iff_exists, lastEntry, List.find?_isSome]
      exact ⟨e, List.mem_reverse.mpr (List.mem_flatMap.mpr ⟨_, hall _ htype, he⟩), htable⟩
    obtain ⟨e, he⟩ := hsome
    rw [← lastEntry_own_iff htype hhas, tableFields_pbDocToGammaDoc hlong hv, he, Option.some_or]
    constructor
    · rintro ⟨g, hg, hname, -, hlast⟩
      exact ⟨g, hg, hname, hlast⟩
    · rintro ⟨g, hg, hname, hlast⟩
      exact ⟨g, hg, hname, datatype_mapEntries hg, hlast⟩
  constructor
  · rintro ⟨hid, hfields⟩
    exact ⟨(storedId_holds_iff hdoc hlong).mp hid,
      fun f hf htype => (hfield f hf htype).mp (hfields f hf htype)⟩
  · rintro ⟨hid, hlater⟩
    exact ⟨(storedId_holds_iff hdoc hlong).mpr hid,
      fun f hf htype => (hfield f hf htype).mpr (hlater f hf htype)⟩

theorem faithful_prices :
    checkPbDocIn (priceDoc "7") pricesSpace = "" ∧ Faithful pricesSpace (priceDoc "7") := by
  refine ⟨by decide, (faithful_iff pricesSpace rfl (priceDoc "7") (by decide)).mpr
    ⟨fun f hf => (nomatch hf), ?_⟩⟩
  simp only [pricesSpace, List.forall_mem_cons, List.not_mem_nil, false_implies, implies_true,
    and_true]
  intro _
  decide

def twicePricedDoc : Document :=
  { priceDoc "7" with strings := (∅ : PbMap String).insert "price" "cheap" }

/-- The text replaces the price, and a value named `_id` replaces the id. -/
theorem price_replaced :
    checkPbDocIn twicePricedDoc pricesSpace = "" ∧ ¬ Faithful pricesSpace twicePricedDoc ∧
      (pbDocToGammaDoc twicePricedDoc pricesSpace {}).2.tableFields["price"]?
        = some ⟨"price", utf8Bytes "cheap", .string⟩ ∧
      checkPbDocIn (shadowedDoc "7") pricesSpace = "" ∧
      storedId pricesSpace (shadowedDoc "7") = some ⟨idField, [9, 0, 0, 0, 0, 0, 0, 0], .long⟩ := by
  have hprice : (pbDocToGammaDoc twicePricedDoc pricesSpace {}).2.tableFields["price"]?
      = some ⟨"price", utf8Bytes "cheap", .string⟩ := by decide
  refine ⟨by decide, fun h => ?_, hprice, by decide, by decide⟩
  obtain ⟨g, -, -, hdtype, hget⟩ :=
    h.fields { name := "price", type := intSdtype } (by decide) (by decide)
  rw [hprice] at hget
  cases hget
  exact absurd hdtype (by decide)

end SimSearch.Cluster
