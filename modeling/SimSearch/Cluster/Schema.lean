import SimSearch.Cluster.Messages
import SimSearch.Common.Dto
import SimSearch.Master.SpaceCodec

/-!
# What a space declares and what its documents hold

Three places decide which types there are: `CheckApiSpace` of the master, `CheckPbDoc` of the
router, and `PbDocToGammaDoc` and `GetGammaTable` of the PS.

* `checkPbDocIn_eq_empty`: what `CheckPbDoc` asks for, field by field.
* `pbDocToGammaDoc_eq_empty_iff`: an accepted document is converted when the key type is
  `long`, which the master refuses (`Accepted.idType`).
* `checkPbField_scalar` and `checkPbField_vector`: a field is found in the map of its type.
  The router spells `stringarray` in its own way, so for a field of this type it knows no map.
* `datatype_mapEntries`: each map gives values of one type.  `ToGammaDtype` has no line for
  `long`, so such a column is declared as `INT`.
-/

namespace SimSearch.Cluster

open SimSearch.Master

/-! ### The check of the router -/

def ValidId (doc : Document) (space : Space) : Prop :=
  doc.id ≠ "" ∧ (space.idType = longSdtype → ∃ v, strToInt64 doc.id = .ok v)

theorem foldl_append_eq_empty : ∀ (l : List String) (acc : String),
    l.foldl (· ++ ·) acc = "" ↔ acc = "" ∧ ∀ x ∈ l, x = "" := by
  intro l
  induction l with
  | nil => intro acc; simp
  | cons a l ih =>
    intro acc
    rw [List.foldl_cons, ih, String.append_eq_empty_iff, List.forall_mem_cons, and_assoc]

/-- **A document is accepted when its id is valid and nothing is written for a field.** -/
theorem checkPbDocIn_eq_empty {doc : Document} {space : Space} :
    checkPbDocIn doc space = "" ↔
      ValidId doc space ∧ ∀ f ∈ space.fields, checkPbField doc f = "" := by
  have hfields : String.join (space.fields.map (checkPbField doc)) = "" ↔
      ∀ f ∈ space.fields, checkPbField doc f = "" := by
    rw [String.join, foldl_append_eq_empty]
    simp
  unfold checkPbDocIn ValidId
  by_cases hid : doc.id = ""
  · rw [if_pos hid]
    constructor
    · intro h
      exact absurd h (by decide)
    · rintro ⟨⟨hne, -⟩, -⟩
      exact absurd hid hne
  rw [if_neg hid]
  by_cases hlong : space.idType = longSdtype
  · simp only [if_pos hlong]
    cases hs : strToInt64 doc.id with
    | error status =>
      constructor
      · intro h
        exact absurd h (strToInt64_error_ne_empty hs)
      · rintro ⟨⟨-, hok⟩, -⟩
        obtain ⟨v, hv⟩ := hok hlong
        cases hv
    | ok v =>
      simp only
      rw [hfields]
      exact ⟨fun h => ⟨⟨hid, fun _ => ⟨v, rfl⟩⟩, h⟩, fun h => h.2⟩
  · simp only [if_neg hlong]
    rw [hfields]
    exact ⟨fun h => ⟨⟨hid, fun hl => absurd hl hlong⟩, h⟩, fun h => h.2⟩

/-! ### The key -/

/-- An accepted document is converted exactly when the key is a `long`. -/
theorem pbDocToGammaDoc_eq_empty_iff {doc : Document} {space : Space}
    (h : checkPbDocIn doc space = "") (out : GammaDoc) :
    (pbDocToGammaDoc doc space out).1 = "" ↔ space.idType = longSdtype := by
  constructor
  · intro hconv
    by_contra hne
    unfold pbDocToGammaDoc at hconv
    rw [if_neg hne] at hconv
    exact absurd (congrArg String.length hconv) (by simp)
  · intro hlong
    obtain ⟨v, hv⟩ := (checkPbDocIn_eq_empty.mp h).1.2 hlong
    rw [pbDocToGammaDoc_entries hlong hv]

/-- **An accepted document can be written exactly when the space has `_id` type `long`**; the
master refuses this type, so for a space that it accepts the conversion always fails. -/
theorem writable_iff_long (json : SpaceJson) (s : ApiSpace) (space : Space)
    (hread : SpaceRead (apiSpaceToInnerSpace json s) space) (doc : Document)
    (hdoc : checkPbDocIn doc space = "") (out : GammaDoc) :
    ((pbDocToGammaDoc doc space out).1 = "" ↔ s.idType = longSdtype) ∧
      (checkApiSpace s = some "" →
        pbDocToGammaDoc doc space out = ("Unsupported _id type: " ++ s.idType, out)) := by
  have hid : space.idType = s.idType := hread.idType
  refine ⟨?_, fun hs => ?_⟩
  · rw [pbDocToGammaDoc_eq_empty_iff hdoc, hid]
  · have hne : space.idType ≠ longSdtype := by
      intro hlong
      rw [hid] at hlong
      have hno := (accepted_of_checkApiSpace hs).idType
      rw [hlong] at hno
      exact hno (by decide)
    unfold pbDocToGammaDoc
    rw [if_neg hne, hid]

def itemsApi (idType : String) (others : List ApiField) : ApiSpace :=
  { dbName := "database", spaceName := "images", partitionNum := 1, replicaNum := 1,
    idType := idType,
    fields := { name := "embedding", type := "vector", dimension := 2,
                index := some { name := "idx", type := "FLAT",
                                params := some { metricType := "L2" } } } :: others }

def itemsSpace (idType : String) (others : List ApiField) : Space :=
  pbSpace (apiSpaceToInnerSpace goJson (itemsApi idType others))

def itemDoc : Document :=
  { idOpt := some "7", vectors := (∅ : PbMap (List UInt32)).insert "embedding" [0, 0] }

theorem writable_iff_long_items :
    checkPbDocIn itemDoc (itemsSpace "long" []) = "" ∧
      (pbDocToGammaDoc itemDoc (itemsSpace "long" []) {}).1 = "" := by
  have hdoc : checkPbDocIn itemDoc (itemsSpace "long" []) = "" := by decide +kernel
  refine ⟨hdoc, ?_⟩
  exact (writable_iff_long goJson (itemsApi "long" []) _ (spaceRead_pbSpace (by decide +kernel))
    itemDoc hdoc {}).1.mpr rfl

/-- The master accepts the space, the router the document, and the PS cannot convert it. -/
theorem accepted_space_unwritable :
    checkApiSpace (itemsApi "int" []) = some "" ∧
      checkPbDocIn itemDoc (itemsSpace "int" []) = "" ∧
      (pbDocToGammaDoc itemDoc (itemsSpace "int" []) {}).1 = "Unsupported _id type: int" := by
  refine ⟨by decide +kernel, by decide +kernel, by decide +kernel⟩

/-! ### Values and the maps they are in -/

def mapHas (doc : Document) (type name : String) : Bool :=
  if type = intSdtype then doc.ints.contains name
  else if type = longSdtype then doc.longs.contains name
  else if type = floatSdtype then doc.floats.contains name
  else if type = doubleSdtype then doc.doubles.contains name
  else if type = stringSdtype then doc.strings.contains name
  else if type = stringarraySdtype then doc.stringArrays.contains name
  else false

def scalarSdtypes : List String :=
  [intSdtype, longSdtype, floatSdtype, doubleSdtype, stringSdtype, stringarraySdtype]

theorem missingField_ne_empty (f : Field) : missingField f ≠ "" := by
  unfold missingField
  simp only [ne_eq, String.append_eq_empty_iff, String.reduceEq, false_and, not_false_eq_true]

theorem checkPbField_scalar {doc : Document} {f : Field} (hf : f.type ∈ scalarSdtypes) :
    checkPbField doc f = "" ↔ mapHas doc f.type f.name = true := by
  have hif : ∀ b : Bool, (if b = true then "" else missingField f) = "" ↔ b = true := by
    intro b
    cases b with
    | true => simp
    | false => simp [missingField_ne_empty f]
  simp only [scalarSdtypes, List.mem_cons, List.not_mem_nil, or_false] at hf
  unfold checkPbField mapHas
  rcases hf with h | h | h | h | h | h <;>
    simp only [h, intSdtype, longSdtype, floatSdtype, doubleSdtype, stringSdtype,
      stringarraySdtype, String.reduceEq, reduceIte] <;>
    exact hif _

theorem checkPbField_vector {doc : Document} {f : Field} (hf : f.type = vectorSdtype)
    {v : List UInt32} (hv : doc.vectors[f.name]? = some v)
    (hdim : ∀ d, f.dimension = some d → d.toNat = v.length) : checkPbField doc f = "" := by
  unfold checkPbField
  simp only [hf, hv, intSdtype, longSdtype, floatSdtype, doubleSdtype, stringSdtype,
    stringarraySdtype, vectorSdtype, String.reduceEq, reduceIte]
  cases hd : f.dimension with
  | none => rfl
  | some d => exact if_neg (fun hne => hne (hdim d hd))

/-- The router does not know the type that the master calls `stringarray`. -/
theorem checkPbField_stringarray {doc : Document} {f : Field} (hf : f.type = "stringarray") :
    checkPbField doc f ≠ "" := by
  have hmsg : checkPbField doc f
      = "Unknown type for field [" ++ f.name ++ "]: " ++ f.type ++ "; " := by
    unfold checkPbField
    simp only [hf]
    rfl
  rw [hmsg]
  simp only [ne_eq, String.append_eq_empty_iff, String.reduceEq, false_and, not_false_eq_true]

/-! ### The types of the master -/

/-- The document holds a value of the field, in the map of the type that the master has
declared; a vector has the declared dimension. -/
def Carries (doc : Document) (f : ApiField) : Prop :=
  if f.type = "int" then doc.ints.contains f.name = true
  else if f.type = "long" then doc.longs.contains f.name = true
  else if f.type = "float" then doc.floats.contains f.name = true
  else if f.type = "double" then doc.doubles.contains f.name = true
  else if f.type = "string" then doc.strings.contains f.name = true
  else if f.type = "stringarray" then doc.stringArrays.contains f.name = true
  else if f.type = "vector" then
    ∃ v, doc.vectors[f.name]? = some v ∧ (v.length : Int) = f.dimension
  else False

def toInnerField (json : SpaceJson) (f : ApiField) : InnerField :=
  { name := f.name, type := f.type, dimension := f.dimension,
    index := f.index.bind (toInnerIndex json) }

theorem fields_apiSpaceToInnerSpace (json : SpaceJson) (s : ApiSpace) :
    (apiSpaceToInnerSpace json s).fields = s.fields.map (toInnerField json) := rfl

theorem carries_scalar {doc : Document} {f : ApiField} (hf : f.type ∈ scalarFieldTypes)
    (hne : f.type ≠ "stringarray") :
    f.type ∈ scalarSdtypes ∧ (Carries doc f ↔ mapHas doc f.type f.name = true) := by
  simp only [scalarFieldTypes, List.mem_cons, List.not_mem_nil, or_false] at hf
  unfold Carries mapHas
  rcases hf with h | h | h | h | h | h
  · simp only [h]; exact ⟨by decide, Iff.rfl⟩
  · simp only [h]; exact ⟨by decide, Iff.rfl⟩
  · simp only [h]; exact ⟨by decide, Iff.rfl⟩
  · simp only [h]; exact ⟨by decide, Iff.rfl⟩
  · simp only [h]; exact ⟨by decide, Iff.rfl⟩
  · exact absurd h hne

/-- **The check of one field**: a field that the document holds a value for passes, unless it
is a `stringarray`. -/
theorem checkPbField_iff {json : SpaceJson} {doc : Document} {f : ApiField} {pb : Field}
    (hok : FieldOk f) (hread : FieldRead (toInnerField json f) pb) (hcarries : Carries doc f) :
    checkPbField doc pb = "" ↔ f.type ≠ "stringarray" := by
  have hname : pb.name = f.name := hread.name
  have htype : pb.type = f.type := hread.type
  constructor
  · intro h hstr
    exact checkPbField_stringarray (htype.trans hstr) h
  · intro hne
    rcases hok with hscalar | ⟨hvector, hdim⟩
    · obtain ⟨hknown, hiff⟩ := @carries_scalar doc f hscalar hne
      rw [checkPbField_scalar (by rw [htype]; exact hknown), htype, hname]
      exact hiff.mp hcarries
    · have hvec : f.type = "vector" := List.mem_singleton.mp hvector
      have hvalue : ∃ v, doc.vectors[f.name]? = some v ∧ (v.length : Int) = f.dimension := by
        unfold Carries at hcarries
        simp only [hvec] at hcarries
        exact hcarries
      obtain ⟨v, hv, hlen⟩ := hvalue
      refine checkPbField_vector (htype.trans hvec) (hname ▸ hv) fun d hd => ?_
      have hdimension := hread.dimension
      rw [hd, Option.map_some] at hdimension
      have hfd : (toInnerField json f).dimension = f.dimension := rfl
      rw [hfd, if_neg (by omega), Option.some.injEq] at hdimension
      omega

theorem forall_iff_of_forall₂ {α β : Type} {R : α → β → Prop} {P : β → Prop} {Q : α → Prop}
    {l : List α} {l' : List β} (h : List.Forall₂ R l l')
    (hiff : ∀ a ∈ l, ∀ b, R a b → (P b ↔ Q a)) : (∀ b ∈ l', P b) ↔ ∀ a ∈ l, Q a := by
  induction h with
  | nil => simp
  | cons hab _ ih =>
    rw [List.forall_mem_cons, List.forall_mem_cons,
      ih fun x hx => hiff x (List.mem_cons_of_mem _ hx), hiff _ List.mem_cons_self _ hab]

/-- **The router takes the documents of a space exactly when no field is a `stringarray`.** -/
theorem types_agree_iff (json : SpaceJson) (s : ApiSpace) (hs : checkApiSpace s = some "")
    (space : Space) (hread : SpaceRead (apiSpaceToInnerSpace json s) space) (doc : Document)
    (hid : ValidId doc space) (hcarries : ∀ f ∈ s.fields, Carries doc f) :
    checkPbDocIn doc space = "" ↔ ∀ f ∈ s.fields, f.type ≠ "stringarray" := by
  have hok := (accepted_of_checkApiSpace hs).fields
  have hfields := hread.fields
  rw [fields_apiSpaceToInnerSpace, List.forall₂_map_left_iff] at hfields
  have hchecks := forall_iff_of_forall₂ hfields fun f hf pb hpb =>
    checkPbField_iff (hok f hf) hpb (hcarries f hf)
  rw [checkPbDocIn_eq_empty, hchecks]
  exact ⟨fun h => h.2, fun h => ⟨hid, h⟩⟩

/-- An item has its price, its vector and, for a `stringarray` field, its tags. -/
def pricedDoc : Document :=
  { itemDoc with
    longs := (∅ : PbMap Int64).insert "price" 5
    stringArrays := (∅ : PbMap (List String)).insert "tags" ["new"] }

theorem types_agree_iff_items :
    checkApiSpace (itemsApi "" [{ name := "price", type := "long" }]) = some "" ∧
      checkPbDocIn pricedDoc (itemsSpace "" [{ name := "price", type := "long" }]) = "" := by
  have hs : checkApiSpace (itemsApi "" [{ name := "price", type := "long" }]) = some "" := by
    decide +kernel
  refine ⟨hs, ?_⟩
  refine (types_agree_iff goJson _ hs _ (spaceRead_pbSpace (by decide +kernel)) pricedDoc
    ⟨by decide, fun h => absurd h (by decide)⟩ ?_).mpr ?_
  · simp only [itemsApi, List.forall_mem_cons, List.not_mem_nil, false_implies, implies_true,
      and_true]
    have hprice : pricedDoc.longs.contains "price" = true := by decide +kernel
    exact ⟨⟨[0, 0], by decide +kernel, rfl⟩, hprice⟩
  · simp only [itemsApi, List.forall_mem_cons, List.not_mem_nil, false_implies, implies_true,
      and_true]
    exact ⟨by decide, by decide⟩

/-- A space with a `stringarray` field is accepted, and a document with a value of this type
is not. -/
theorem stringarray_refused :
    checkApiSpace (itemsApi "" [{ name := "tags", type := "stringarray" }]) = some "" ∧
      (itemsSpace "" [{ name := "tags", type := "stringarray" }]).fields.map (·.type)
        = ["vector", "stringarray"] ∧
      pricedDoc.stringArrays.contains "tags" = true ∧
      pricedDoc.vectors["embedding"]? = some [0, 0] ∧
      checkPbDocIn pricedDoc (itemsSpace "" [{ name := "tags", type := "stringarray" }])
        = "Unknown type for field [tags]: stringarray; " := by
  refine ⟨by decide +kernel, by decide +kernel, by decide +kernel, by decide +kernel,
    by decide +kernel⟩

/-! ### Columns and values -/

/-- The type of the values in the map of a type. -/
def valueDtype (type : String) : DataType :=
  if type = intSdtype then .int
  else if type = longSdtype then .long
  else if type = floatSdtype then .float
  else if type = doubleSdtype then .double
  else if type = stringSdtype then .string
  else if type = stringarraySdtype then .stringArray
  else .vector

theorem datatype_mapEntries {doc : Document} {type : String} {e : GammaField}
    (he : e ∈ mapEntries doc type) : e.datatype = valueDtype type := by
  unfold mapEntries at he
  unfold valueDtype
  split_ifs at he ⊢
  all_goals first
    | (obtain ⟨x, -, rfl⟩ := List.mem_map.mp he; rfl)
    | exact absurd he List.not_mem_nil

theorem contains_iff_mem_map {α : Type} (m : PbMap α) (name : String)
    (entry : String × α → GammaField) (hentry : ∀ e, (entry e).name = e.1) :
    m.contains name = true ↔ ∃ e ∈ m.toList.map entry, e.name = name := by
  constructor
  · intro h
    have hmem : name ∈ m := Std.TreeMap.mem_iff_contains.mpr h
    have hget : m[name]? = some m[name] := Std.TreeMap.getElem?_eq_some_getElem hmem
    exact ⟨entry (name, m[name]),
      List.mem_map_of_mem (Std.TreeMap.mem_toList_iff_getElem?_eq_some.mpr hget), hentry _⟩
  · rintro ⟨e, he, rfl⟩
    obtain ⟨x, hx, rfl⟩ := List.mem_map.mp he
    have hget := Std.TreeMap.mem_toList_iff_getElem?_eq_some.mp hx
    rw [hentry, Std.TreeMap.contains_eq_isSome_getElem?, hget]
    rfl

theorem mapHas_iff {doc : Document} {type : String} (htype : type ∈ scalarSdtypes)
    (name : String) : mapHas doc type name = true ↔ ∃ e ∈ mapEntries doc type, e.name = name := by
  simp only [scalarSdtypes, List.mem_cons, List.not_mem_nil, or_false] at htype
  unfold mapHas mapEntries
  rcases htype with h | h | h | h | h | h <;>
    simp only [h, intSdtype, longSdtype, floatSdtype, doubleSdtype, stringSdtype,
      stringarraySdtype, String.reduceEq, reduceIte] <;>
    exact contains_iff_mem_map _ _ _ fun _ => rfl

/-- The column that `GetGammaTable` declares for a field has the type of the value that
`PbDocToGammaDoc` takes for it, from the map in which `CheckPbDoc` has asked for it. -/
def ColumnMatches (space : Space) (doc : Document) (f : Field) : Prop :=
  ∀ c ∈ (getGammaTable space).fields, c.name = f.name →
    ∀ e ∈ mapEntries doc f.type, e.name = f.name → c.dataType = e.datatype

/-- The types that are left when the master has accepted the space and the router a document
of it. -/
theorem scalar_of_accepted {json : SpaceJson} {doc : Document} {f : ApiField} {pb : Field}
    (hok : FieldOk f) (hread : FieldRead (toInnerField json f) pb)
    (hcheck : checkPbField doc pb = "") (hvector : pb.type ≠ "vector") :
    pb.type ∈ [intSdtype, longSdtype, floatSdtype, doubleSdtype, stringSdtype] := by
  have htype : pb.type = f.type := hread.type
  rcases hok with hscalar | ⟨hvec, -⟩
  · rw [← htype] at hscalar
    simp only [scalarFieldTypes, List.mem_cons, List.not_mem_nil, or_false] at hscalar
    rcases hscalar with h | h | h | h | h | h
    · rw [h]; decide
    · rw [h]; decide
    · rw [h]; decide
    · rw [h]; decide
    · rw [h]; decide
    · exact absurd hcheck (checkPbField_stringarray h)
  · exact absurd (htype.trans (List.mem_singleton.mp hvec)) hvector

theorem names_of_forall₂ {json : SpaceJson} {l : List ApiField} {l' : List Field}
    (h : List.Forall₂ (fun f pb => FieldRead (toInnerField json f) pb) l l') :
    l.map (·.name) = l'.map (·.name) := by
  rw [← List.forall₂_eq_eq_eq, List.forall₂_map_left_iff, List.forall₂_map_right_iff]
  exact h.imp fun f pb hread => hread.name.symm

/-- **A column has the type of its values exactly when it is not a `long`.** -/
theorem column_types_iff (json : SpaceJson) (s : ApiSpace) (hs : checkApiSpace s = some "")
    (space : Space) (hread : SpaceRead (apiSpaceToInnerSpace json s) space) (doc : Document)
    (hdoc : checkPbDocIn doc space = "") (f : Field) (hf : f ∈ space.fields)
    (hvector : f.type ≠ "vector") :
    (∃ c ∈ (getGammaTable space).fields, c.name = f.name) ∧
      (∃ e ∈ mapEntries doc f.type, e.name = f.name) ∧
      (ColumnMatches space doc f ↔ f.type ≠ longSdtype) := by
  have haccepted := accepted_of_checkApiSpace hs
  have hfields := hread.fields
  rw [fields_apiSpaceToInnerSpace, List.forall₂_map_left_iff] at hfields
  have hcheck := (checkPbDocIn_eq_empty.mp hdoc).2 f hf
  obtain ⟨g, hg, hgf⟩ := exists_left_of_forall₂ hfields hf
  have htype := scalar_of_accepted (haccepted.fields g hg) hgf hcheck hvector
  have hscalar : f.type ∈ scalarSdtypes := List.mem_append_left [stringarraySdtype] htype
  have hcolumn : ⟨f.name, toGammaDtype f.type, f.index.isSome⟩ ∈ (getGammaTable space).fields :=
    (mem_columns _ _ _).mpr (.inr ⟨f, hf, hvector, rfl⟩)
  obtain ⟨e, he, hename⟩ := (mapHas_iff hscalar f.name).mp ((checkPbField_scalar hscalar).mp hcheck)
  -- the names are apart, so the column is that of the field
  have hnodup : (space.fields.map (·.name)).Nodup := by
    rw [← names_of_forall₂ hfields]
    exact haccepted.names
  have honly : ∀ c ∈ (getGammaTable space).fields, c.name = f.name →
      c.dataType = toGammaDtype f.type := by
    intro c hc hcname
    rcases (mem_columns _ _ _).mp hc with hnil | ⟨f', hf', -, rfl⟩
    · exact absurd hnil List.not_mem_nil
    · have hsame : f' = f := List.inj_on_of_nodup_map hnodup hf' hf hcname
      rw [hsame]
  have hmatch : ColumnMatches space doc f ↔ toGammaDtype f.type = valueDtype f.type := by
    constructor
    · intro h
      exact (h _ hcolumn rfl e he hename).trans (datatype_mapEntries he)
    · intro h c hc hcname e' he' _
      rw [honly c hc hcname, datatype_mapEntries he', h]
  refine ⟨⟨_, hcolumn, rfl⟩, ⟨e, he, hename⟩, hmatch.trans ?_⟩
  simp only [List.mem_cons, List.not_mem_nil, or_false] at htype
  rcases htype with h | h | h | h | h
  · rw [h]; decide
  · rw [h]; decide
  · rw [h]; decide
  · rw [h]; decide
  · rw [h]; decide

theorem column_types_iff_color :
    ColumnMatches (itemsSpace "" [{ name := "color", type := "string" }])
      { itemDoc with strings := (∅ : PbMap String).insert "color" "red" }
      { name := "color", type := "string" } := by
  refine (column_types_iff goJson (itemsApi "" [{ name := "color", type := "string" }])
    (by decide +kernel) _ (spaceRead_pbSpace (by decide +kernel)) _ (by decide +kernel) _
    (by decide +kernel) (by decide)).2.2.mpr (by decide)

/-- A `long` price: the column is an `INT`, and the value is a `LONG`, in the document and in
what `PbDocToGammaDoc` makes of it for a key that it takes. -/
theorem long_column_declared_int :
    checkApiSpace (itemsApi "" [{ name := "price", type := "long" }]) = some "" ∧
      checkPbDocIn pricedDoc (itemsSpace "" [{ name := "price", type := "long" }]) = "" ∧
      (getGammaTable (itemsSpace "" [{ name := "price", type := "long" }])).fields
        = [⟨"price", .int, false⟩] ∧
      mapEntries pricedDoc "long" = [⟨"price", [5, 0, 0, 0, 0, 0, 0, 0], .long⟩] ∧
      ((pbDocToGammaDoc pricedDoc (itemsSpace "long" [{ name := "price", type := "long" }])
        {}).2.tableFields["price"]?).map (·.datatype) = some .long := by
  refine ⟨by decide +kernel, by decide +kernel, by decide +kernel, by decide +kernel,
    by decide +kernel⟩

end SimSearch.Cluster
