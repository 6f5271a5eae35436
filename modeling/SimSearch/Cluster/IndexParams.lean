import SimSearch.Cluster.Schema
import SimSearch.Master.Validation

/-!
# The indexes of a space on their way to the engine

`ApiSpaceToInnerSpace` of `master/entity/dto.go` on the indexes that `CheckApiSpace` lets
through, and `GetGammaTable` of the PS on the space that arrives.

* `nameType_toInnerIndex_iff`: an index is kept when it has parameters.  The validator does not
  ask a scalar index for them.
* `paramsReach_iff`: the parameters of a vector index are written as JSON for the types
  `IVFPQ`, `VEARCH` and `HNSW` and read back from it (`decodeParams_marshalParams`,
  `decodeParams_marshalHnsw`).  For the other types nothing is written.
* `table_index`: the table of the engine has the index of the last vector field, so the
  parameters of the request are there under the same condition (`table_params_iff`).
-/

/-! ### The parameters as JSON -/

namespace SimSearch.Master.Codec

open SimSearch.Lib

def ofHnsw (j : Json) : Hnsw :=
  { metricType := ofStrPtr (j.field "metric_type"), nlinks := ofInt (j.field "nlinks"),
    efConstruction := ofInt (j.field "efConstruction"), efSearch := ofInt (j.field "efSearch") }

/-- The struct `IndexParams`, read; it has the names of all the others. -/
def ofParams (j : Json) : IndexParams :=
  { metricType := ofStr (j.field "metric_type"),
    trainingThreshold := ofInt (j.field "training_threshold"),
    ncentroids := ofInt (j.field "ncentroids"), nsubvector := ofInt (j.field "nsubvector"),
    nlinks := ofInt (j.field "nlinks"), efConstruction := ofInt (j.field "efConstruction"),
    efSearch := ofInt (j.field "efSearch"), threadNum := ofInt (j.field "thread_num"),
    hnsw := (j.field "hnsw").map ofHnsw }

theorem field_hnsw (h : Hnsw) (name : String) : (hnsw h).field name =
    (List.lookup name [("metric_type", h.metricType.map Json.str), ("nlinks", some (.int h.nlinks)),
      ("efConstruction", some (.int h.efConstruction)),
      ("efSearch", some (.int h.efSearch))]).join :=
  Json.field_struct (by simp) name

theorem field_ivfpq (p : IndexParams) (name : String) : (ivfpq p).field name =
    (List.lookup name [("metric_type", some (.str p.metricType)),
      ("training_threshold", optInt p.trainingThreshold), ("ncentroids", some (.int p.ncentroids)),
      ("nsubvector", some (.int p.nsubvector)), ("thread_num", optInt p.threadNum),
      ("hnsw", p.hnsw.map hnsw)]).join :=
  Json.field_struct (by simp) name

theorem ofHnsw_hnsw (h : Hnsw) : ofHnsw (hnsw h) = h := by
  unfold ofHnsw
  simp only [field_hnsw]
  obtain ⟨metric, nlinks, efConstruction, efSearch⟩ := h
  cases metric <;> rfl

theorem ofParams_ivfpq (p : IndexParams) :
    ofParams (ivfpq p) = { p with nlinks := 0, efConstruction := 0, efSearch := 0 } := by
  unfold ofParams
  simp only [field_ivfpq]
  show (⟨p.metricType, ofInt (optInt p.trainingThreshold), p.ncentroids, p.nsubvector, 0, 0, 0,
    ofInt (optInt p.threadNum), (p.hnsw.map hnsw).map ofHnsw⟩ : IndexParams) = _
  rw [ofInt_optInt, ofInt_optInt, Option.map_map]
  have hid : ofHnsw ∘ hnsw = id := funext ofHnsw_hnsw
  rw [hid, Option.map_id_fun, id]

theorem ofParams_hnsw (m : String) (nlinks efConstruction efSearch : Int) :
    ofParams (hnsw ⟨some m, nlinks, efConstruction, efSearch⟩)
      = { metricType := m, nlinks := nlinks, efConstruction := efConstruction,
          efSearch := efSearch } := by
  unfold ofParams
  simp only [field_hnsw]
  rfl

end SimSearch.Master.Codec

namespace SimSearch.Cluster

open SimSearch.Lib
open SimSearch.Master

/-- `json.Unmarshal` of the parameters of an index. -/
def decodeParams (text : String) : Option IndexParams := (Json.ofText text).map Codec.ofParams

theorem decodeParams_marshalParams (p : IndexParams) : decodeParams (goJson.marshalParams p)
    = some { p with nlinks := 0, efConstruction := 0, efSearch := 0 } := by
  show (Json.ofText (Codec.ivfpq p).toText).map Codec.ofParams = _
  rw [Json.ofText_toText, Option.map_some, Codec.ofParams_ivfpq]

theorem decodeParams_marshalHnsw (m : String) (nlinks efConstruction efSearch : Int) :
    decodeParams (goJson.marshalHnsw ⟨some m, nlinks, efConstruction, efSearch⟩)
      = some { metricType := m, nlinks := nlinks, efConstruction := efConstruction,
               efSearch := efSearch } := by
  show (Json.ofText (Codec.hnsw ⟨some m, nlinks, efConstruction, efSearch⟩).toText).map _ = _
  rw [Json.ofText_toText, Option.map_some, Codec.ofParams_hnsw]

/-! ### The converted fields -/

/-- The name and the type of an index survive when it has parameters. -/
theorem nameType_toInnerIndex_iff (json : SpaceJson) (index : Option ApiIndex) :
    (index.bind (toInnerIndex json)).map (fun i => (i.name, i.type))
        = index.map (fun i => (i.name, i.type)) ↔
      ∀ i, index = some i → i.params ≠ none := by
  rcases index with _ | ⟨name, type, _ | p⟩
  · simp
  · simp [toInnerIndex]
  · simp [toInnerIndex]

/-- The parameters of an index of a vector field are there, so only scalar fields can lose
theirs. -/
theorem params_given_iff {s : ApiSpace} (hs : checkApiSpace s = some "") :
    (∀ f ∈ s.fields, ∀ index, f.index = some index → index.params ≠ none) ↔
      ∀ f ∈ s.fields, f.type ∈ scalarFieldTypes →
        ∀ index, f.index = some index → index.params ≠ none := by
  obtain ⟨-, hfields, -⟩ := (checkApiSpace_iff s).mp hs
  constructor
  · exact fun h f hf _ => h f hf
  · intro h f hf index hindex
    rcases (hfields.rules f hf).known with hscalar | hvector
    · exact h f hf hscalar index hindex
    · obtain ⟨index', p, hindex', hok⟩ := ((hfields.rules f hf).vector hvector).index
      rw [hindex'] at hindex
      cases hindex
      rw [hok.params]
      exact Option.some_ne_none p

/-- **Which indexes are kept.**  The fields of an accepted space are converted in their order
with name, type and dimension.  Every index is kept, with its name and type, exactly when no
scalar field has one without parameters. -/
theorem indexes_kept_iff (json : SpaceJson) (s : ApiSpace) (hs : checkApiSpace s = some "") :
    (apiSpaceToInnerSpace json s).fields.map (fun f => (f.name, f.type, f.dimension))
        = s.fields.map (fun f => (f.name, f.type, f.dimension)) ∧
      ((apiSpaceToInnerSpace json s).fields.map (fun f => f.index.map fun i => (i.name, i.type))
          = s.fields.map (fun f => f.index.map fun i => (i.name, i.type)) ↔
        ∀ f ∈ s.fields, f.type ∈ scalarFieldTypes →
          ∀ index, f.index = some index → index.params ≠ none) := by
  rw [fields_apiSpaceToInnerSpace, List.map_map, List.map_map, ← params_given_iff hs]
  refine ⟨rfl, ?_⟩
  rw [List.map_inj_left]
  exact forall_congr' fun f => imp_congr_right fun _ => nameType_toInnerIndex_iff json f.index

def pricedApi (params : Option IndexParams) : ApiSpace :=
  catalogApi [{ name := "price", type := "int",
                index := some { name := "by_price", type := "SCALAR", params := params } },
    pictureField "front" "by_front" (some centroids)]

theorem indexes_kept_priced :
    (apiSpaceToInnerSpace goJson (pricedApi (some {}))).fields.map
        (fun f => f.index.map fun i => (i.name, i.type))
      = [some ("by_price", "SCALAR"), some ("by_front", "IVFFLAT")] := by
  have hs : checkApiSpace (pricedApi (some {})) = some "" := by decide +kernel
  refine (indexes_kept_iff goJson (pricedApi (some {})) hs).2.mpr ?_
  have hparams : ∀ f ∈ (pricedApi (some {})).fields, f.type ∈ scalarFieldTypes →
      f.index.all (fun index => index.params.isSome) = true := by decide +kernel
  intro f hf hscalar index hindex
  have hsome := hparams f hf hscalar
  rw [hindex] at hsome
  exact Option.isSome_iff_ne_none.mp hsome

/-- A scalar index without parameters is accepted and then lost. -/
theorem scalar_index_dropped :
    checkApiSpace (pricedApi none) = some "" ∧
      (apiSpaceToInnerSpace goJson (pricedApi none)).fields.map
          (fun f => f.index.map fun i => (i.name, i.type))
        = [none, some ("by_front", "IVFFLAT")] := by
  decide +kernel

/-! ### What reaches the engine -/

/-- The parameters that `CheckApiSpace` asked for are those of the request. -/
structure ParamsKept (type : String) (p q : IndexParams) : Prop where
  metric : q.metricType = p.metricType
  pq : type = "IVFPQ" ∨ type = "VEARCH" →
    q.ncentroids = p.ncentroids ∧ q.nsubvector = p.nsubvector ∧ q.hnsw = p.hnsw
  hnsw : type = "HNSW" →
    q.nlinks = p.nlinks ∧ q.efConstruction = p.efConstruction ∧ q.efSearch = p.efSearch
  ivf : type = "IVFFLAT" ∨ type = "BINARYIVF" → q.ncentroids = p.ncentroids

/-- The text that is stored for the index gives the parameters back. -/
def ParamsReach (index : ApiIndex) (p : IndexParams) (inner : InnerField) : Prop :=
  ∃ i text q, inner.index = some i ∧ i.params = some text ∧ decodeParams text = some q ∧
    ParamsKept index.type p q

def WritesParams (type : String) : Prop := type = "IVFPQ" ∨ type = "VEARCH" ∨ type = "HNSW"

theorem paramsReach_iff {f : ApiField} {index : ApiIndex} {p : IndexParams}
    (hindex : f.index = some index) (hp : index.params = some p) :
    ParamsReach index p (toInnerField goJson f) ↔ WritesParams index.type := by
  have hinner : (toInnerField goJson f).index = toInnerIndex goJson index := by
    rw [toInnerField, hindex, Option.bind_some]
  unfold ParamsReach WritesParams
  rw [hinner, toInnerIndex, hp, Option.map_some]
  by_cases hpq : index.type = "IVFPQ" ∨ index.type = "VEARCH"
  · refine ⟨fun _ => hpq.elim Or.inl fun h => Or.inr (Or.inl h), fun _ => ?_⟩
    rw [if_pos hpq]
    refine ⟨_, _, _, rfl, rfl, decodeParams_marshalParams p, rfl, fun _ => ⟨rfl, rfl, rfl⟩, ?_,
      fun _ => rfl⟩
    intro hhnsw
    rw [hhnsw] at hpq
    exact absurd hpq (by decide)
  · rw [if_neg hpq]
    by_cases hhnsw : index.type = "HNSW"
    · refine ⟨fun _ => Or.inr (Or.inr hhnsw), fun _ => ?_⟩
      rw [if_pos hhnsw]
      refine ⟨_, _, _, rfl, rfl, decodeParams_marshalHnsw _ _ _ _, rfl,
        fun h => absurd h hpq, fun _ => ⟨rfl, rfl, rfl⟩, ?_⟩
      intro hivf
      rw [hhnsw] at hivf
      exact absurd hivf (by decide)
    · rw [if_neg hhnsw]
      constructor
      · rintro ⟨i, text, q, hi, htext, -, -⟩
        cases hi
        cases htext
      · rintro (h | h | h)
        · exact absurd (Or.inl h) hpq
        · exact absurd (Or.inr h) hpq
        · exact absurd h hhnsw

/-- **Which parameters reach the engine.**  A vector field of an accepted space has an index
with parameters.  The JSON that is stored for it gives the metric and the parameters of the
request back exactly when the index is of one of the types `IVFPQ`, `VEARCH` and `HNSW`. -/
theorem params_reach_iff (s : ApiSpace) (hs : checkApiSpace s = some "") (k : Nat) (f : ApiField)
    (hf : s.fields[k]? = some f) (hvector : f.type ∈ vectorFieldTypes) :
    ∃ index p inner, f.index = some index ∧ index.params = some p ∧
      (apiSpaceToInnerSpace goJson s).fields[k]? = some inner ∧
      (ParamsReach index p inner ↔ WritesParams index.type) := by
  obtain ⟨-, hfields, -⟩ := (checkApiSpace_iff s).mp hs
  have hok := (hfields.rules f (List.mem_of_getElem? hf)).vector hvector
  obtain ⟨index, p, hindex, hindexOk⟩ := hok.index
  refine ⟨index, p, toInnerField goJson f, hindex, hindexOk.params, ?_,
    paramsReach_iff hindex hindexOk.params⟩
  rw [fields_apiSpaceToInnerSpace, List.getElem?_map, hf]
  rfl

def pictureApi (type : String) (p : IndexParams) : ApiSpace :=
  catalogApi [{ name := "front", type := "vector", dimension := 4,
                index := some { name := "by_front", type := type, params := some p } }]

def graphParams : IndexParams :=
  { metricType := "InnerProduct", nlinks := 32, efConstruction := 40, efSearch := 64 }

theorem params_reach_graph :
    ∃ inner, (apiSpaceToInnerSpace goJson (pictureApi "HNSW" graphParams)).fields[0]? = some inner ∧
      ParamsReach { name := "by_front", type := "HNSW", params := some graphParams } graphParams
        inner := by
  obtain ⟨index, p, inner, hindex, hp, hinner, hreach⟩ :=
    params_reach_iff (pictureApi "HNSW" graphParams) (by decide +kernel) 0 _ rfl (by decide)
  cases hindex
  cases hp
  exact ⟨inner, hinner, hreach.mpr (Or.inr (Or.inr rfl))⟩

/-- The metric and the centroids of an accepted `IVFFLAT` index are not stored. -/
theorem ivfflat_params_lost :
    checkApiSpace (pictureApi "IVFFLAT" centroids) = some "" ∧
      (apiSpaceToInnerSpace goJson (pictureApi "IVFFLAT" centroids)).fields
        = [{ name := "front", type := "vector", dimension := 4,
             index := some { name := "by_front", type := "IVFFLAT", params := none } }] := by
  decide +kernel

/-! ### The table of the engine -/

theorem typeIndex_of_read {s : ApiSpace} {pb : Space}
    (h : SpaceRead (apiSpaceToInnerSpace goJson s) pb) :
    pb.fields.map (fun f => (f.type, f.index)) = s.fields.map fun f =>
      (f.type, (f.index.bind (toInnerIndex goJson)).map fun i =>
        ({ name := i.name, type := i.type, params := i.params } : Index)) := by
  have hfields := h.fields
  rw [fields_apiSpaceToInnerSpace, List.forall₂_map_left_iff] at hfields
  symm
  rw [← List.forall₂_eq_eq_eq, List.forall₂_map_left_iff, List.forall₂_map_right_iff]
  refine hfields.imp fun f pb hread => ?_
  rw [hread.type, hread.index]
  rfl

/-- **The table has the index of the last vector field**, whatever vector fields are before
it. -/
theorem table_index (s : ApiSpace) (hs : checkApiSpace s = some "") (pb : Space)
    (hread : SpaceRead (apiSpaceToInnerSpace goJson s) pb) :
    ∃ f index p, (vectorFields s).getLast? = some f ∧ f.index = some index ∧
      index.params = some p ∧ (getGammaTable pb).indexType = index.type ∧
      (getGammaTable pb).indexParams
        = ((toInnerIndex goJson index).bind (·.params)).getD "" := by
  obtain ⟨-, hfields, -⟩ := (checkApiSpace_iff s).mp hs
  obtain ⟨g, hg, hvector⟩ := hfields.hasVector
  have hne : vectorFields s ≠ [] :=
    List.ne_nil_of_mem (List.mem_filter.mpr ⟨hg, by simpa using hvector⟩)
  obtain ⟨f, hlast⟩ := Option.isSome_iff_exists.mp (List.getLast?_isSome.mpr hne)
  obtain ⟨hmem, hf⟩ := List.mem_filter.mp (List.mem_of_getLast? hlast)
  obtain ⟨index, p, hindex, hok⟩ := ((hfields.rules f hmem).vector (by simpa using hf)).index
  refine ⟨f, index, p, hlast, hindex, hok.params, ?_⟩
  have hfilter : s.fields.filter (fun f => decide (f.type = "vector")) = vectorFields s := by
    refine List.filter_congr fun x _ => ?_
    simp [vectorFieldTypes]
  have htable := index_columns pb.fields { name := pb.spaceName }
  rw [typeIndex_of_read hread, List.filter_map, List.getLast?_map] at htable
  simp only [Function.comp_def, hfilter, hlast, Option.map_some, Option.getD_some, hindex,
    Option.bind_some, toInnerIndex, hok.params] at htable ⊢
  exact Prod.mk.inj htable

/-- The parameters of the last vector field are in the table of the engine exactly when its index
is of a type for which they are written. -/
theorem table_params_iff (s : ApiSpace) (hs : checkApiSpace s = some "") (pb : Space)
    (hread : SpaceRead (apiSpaceToInnerSpace goJson s) pb) :
    ∃ f index p, (vectorFields s).getLast? = some f ∧ f.index = some index ∧
      index.params = some p ∧
      ((∃ q, decodeParams (getGammaTable pb).indexParams = some q ∧ ParamsKept index.type p q) ↔
        WritesParams index.type) := by
  obtain ⟨f, index, p, hlast, hindex, hp, -, hparams⟩ := table_index s hs pb hread
  refine ⟨f, index, p, hlast, hindex, hp, ?_⟩
  rw [← paramsReach_iff hindex hp, hparams]
  have hinner : (toInnerField goJson f).index = toInnerIndex goJson index := by
    rw [toInnerField, hindex, Option.bind_some]
  unfold ParamsReach
  rw [hinner]
  constructor
  · rintro ⟨q, hq, hkept⟩
    have hempty : decodeParams "" = none := by decide
    cases hi : toInnerIndex goJson index with
    | none =>
      rw [hi] at hq
      cases hempty.symm.trans hq
    | some i =>
      cases htext : i.params with
      | none =>
        rw [hi, Option.bind_some, htext] at hq
        cases hempty.symm.trans hq
      | some text =>
        rw [hi, Option.bind_some, htext] at hq
        exact ⟨i, text, q, rfl, htext, hq, hkept⟩
  · rintro ⟨i, text, q, hi, htext, hq, hkept⟩
    refine ⟨q, ?_, hkept⟩
    rw [hi, Option.bind_some, htext]
    exact hq

end SimSearch.Cluster
