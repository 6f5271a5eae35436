import SimSearch.Master.SpaceCodec
import SimSearch.Lib.Runs

/-!
# What the validator of a new space accepts

`CheckApiSpace` of `master/entity/dto.go`, in both directions.

The loop over the fields carries two sets of names and a counter, and leaves a field at the
first test that fails.  `Passes st f` is what one turn asks for in the state `st`, and
`checkField_quiet_iff` says that the turn reports nothing exactly then.
`checkApiSpace_iff` puts the turns together: the names are distinct, every field is what its
type asks for, and there are one or two vector fields.  The second one slips through because
the counter is compared before it is raised.

A field that comes as far as its metric type without parameters stops the handler:
`checkField_none_iff` is the turn and `checkApiSpace_none_iff` the whole function.
-/

namespace SimSearch.Master

open SimSearch.Lib

/-! ### The specification -/

structure HeadOk (s : ApiSpace) : Prop where
  dbName : nameValidate s.dbName = ""
  spaceName : nameValidate s.spaceName = ""
  partitionNum : 0 < s.partitionNum ∧ s.partitionNum ≤ 100
  replicaNum : 0 < s.replicaNum ∧ s.replicaNum % 2 ≠ 0 ∧ s.replicaNum ≤ 5
  partitions : s.partitions = []
  idType : s.idType ∉ docKeyTypes

/-- The least values that each type of vector index asks for; `FLAT` asks for none. -/
@[mk_iff]
structure Minima (type : String) (p : IndexParams) : Prop where
  ivfpq : type = "IVFPQ" → 2 ≤ p.ncentroids ∧ 2 ≤ p.nsubvector ∧
    ∀ h, p.hnsw = some h → 2 ≤ h.nlinks ∧ 2 ≤ h.efConstruction ∧ 2 ≤ h.efSearch
  vearch : type = "VEARCH" → 2 ≤ p.ncentroids ∧ 2 ≤ p.nsubvector
  hnsw : type = "HNSW" → 2 ≤ p.nlinks ∧ 2 ≤ p.efConstruction ∧ 2 ≤ p.efSearch
  ivf : type = "IVFFLAT" ∨ type = "BINARYIVF" → 2 ≤ p.ncentroids

structure VectorIndexOk (index : ApiIndex) (p : IndexParams) : Prop where
  type : index.type ∈ vectorIndexTypes
  params : index.params = some p
  metric : p.metricType ∈ metricType
  minima : Minima index.type p

structure VectorOk (f : ApiField) : Prop where
  dimension : 1 ≤ f.dimension ∧ f.dimension ≤ 65536
  index : ∃ index p, f.index = some index ∧ VectorIndexOk index p

structure FieldRules (f : ApiField) : Prop where
  named : f.name ≠ ""
  indexNamed : ∀ index, f.index = some index → index.name ≠ ""
  known : f.type ∈ scalarFieldTypes ∨ f.type ∈ vectorFieldTypes
  scalar : f.type ∈ scalarFieldTypes → ∀ index, f.index = some index → index.type ∈ scalarIndexTypes
  vector : f.type ∈ vectorFieldTypes → VectorOk f

structure FieldsOk (fields : List ApiField) : Prop where
  rules : ∀ f ∈ fields, FieldRules f
  distinct : (fields.map (·.name)).Nodup
  indexDistinct : (fields.filterMap fun f => f.index.map (·.name)).Nodup
  hasVector : ∃ f ∈ fields, f.type ∈ vectorFieldTypes

def vectorFields (s : ApiSpace) : List ApiField := s.fields.filter (·.type ∈ vectorFieldTypes)

/-! ### One test -/

theorem FieldCheck.said_iff {c : Prop} [Decidable c] {st st' : FieldCheck} {m : String}
    {rest : Option FieldCheck} (hm : m ≠ "") :
    (if c then some (st.say m) else rest) = some st' ∧ st'.msg = "" ↔
      ¬ c ∧ rest = some st' ∧ st'.msg = "" := by
  constructor
  · rintro ⟨h, hmsg⟩
    obtain ⟨hc, hrest⟩ := FieldCheck.not_said h hmsg hm
    exact ⟨hc, hrest, hmsg⟩
  · rintro ⟨hc, hrest, hmsg⟩
    rw [if_neg hc]
    exact ⟨hrest, hmsg⟩

theorem FieldCheck.not_quiet_say {st st' : FieldCheck} {m : String} (hm : m ≠ "") :
    ¬ (some (st.say m) = some st' ∧ st'.msg = "") := by
  rintro ⟨h, hmsg⟩
  cases h
  exact FieldCheck.say_msg_ne hm hmsg

theorem FieldCheck.quiet_some {st st' : FieldCheck} :
    some st = some st' ∧ st'.msg = "" ↔ st.msg = "" ∧ st' = st := by
  constructor
  · rintro ⟨h, hmsg⟩
    cases h
    exact ⟨hmsg, rfl⟩
  · rintro ⟨hmsg, rfl⟩
    exact ⟨rfl, hmsg⟩

/-- A test passes on the panic of what comes after it. -/
theorem ite_some_eq_none {α : Type} {c : Prop} [Decidable c] {a : α} {rest : Option α} :
    (if c then some a else rest) = none ↔ ¬ c ∧ rest = none := by
  by_cases hc : c
  · simp [hc]
  · simp [hc]

theorem ite_text_iff {c : Prop} [Decidable c] {m rest : String} (hm : m ≠ "") :
    (if c then m else rest) = "" ↔ ¬ c ∧ rest = "" := by
  by_cases hc : c
  · simp [hc, hm]
  · simp [hc]

theorem checkIndexParams_iff {type : String} (ht : type ∈ vectorIndexTypes) (p : IndexParams) :
    checkIndexParams type p = "" ↔ Minima type p := by
  have hcases : type = "IVFPQ" ∨ type = "HNSW" ∨ type = "VEARCH" ∨ type = "IVFFLAT" ∨
      type = "BINARYIVF" ∨ type = "FLAT" := by
    simpa [vectorIndexTypes] using ht
  rw [minima_iff]
  rcases hcases with rfl | rfl | rfl | rfl | rfl | rfl
  · cases hp : p.hnsw with
    | none =>
      simp [checkIndexParams, hp]
      omega
    | some n =>
      simp [checkIndexParams, hp, ite_text_iff]
      omega
  · simp [checkIndexParams]
    omega
  · simp [checkIndexParams]
    omega
  · simp [checkIndexParams]
    omega
  · simp [checkIndexParams]
    omega
  · simp [checkIndexParams]

/-! ### One field -/

def FieldCheck.pass (st : FieldCheck) (f : ApiField) : FieldCheck where
  msg := st.msg
  fieldNames := f.name :: st.fieldNames
  indexNames := (f.index.map (·.name)).toList ++ st.indexNames
  vectorFieldNum := st.vectorFieldNum + if f.type ∈ vectorFieldTypes then 1 else 0

/-- What one turn of the loop asks of a field: the rules, new names, and room for a vector. -/
def Passes (st : FieldCheck) (f : ApiField) : Prop :=
  FieldRules f ∧ f.name ∉ st.fieldNames ∧
    (∀ index, f.index = some index → index.name ∉ st.indexNames) ∧
    (f.type ∈ vectorFieldTypes → st.vectorFieldNum < 2)

theorem not_scalar_of_vector {type : String} (h : type ∈ vectorFieldTypes) :
    type ∉ scalarFieldTypes := by
  rw [vectorFieldTypes, List.mem_singleton] at h
  rw [h]
  decide

theorem checkVectorField_quiet_iff {st st' : FieldCheck} {f : ApiField} :
    checkVectorField st f = some st' ∧ st'.msg = "" ↔
      st.msg = "" ∧ (VectorOk f ∧ st.vectorFieldNum < 2) ∧
        st' = { st with vectorFieldNum := st.vectorFieldNum + 1 } := by
  unfold checkVectorField
  rw [FieldCheck.said_iff (by decide), FieldCheck.said_iff (by decide)]
  constructor
  · rintro ⟨hnum, hdim, h⟩
    cases hindex : f.index with
    | none =>
      simp only [hindex] at h
      exact absurd h (FieldCheck.not_quiet_say (by decide))
    | some index =>
      simp only [hindex] at h
      obtain ⟨htype, h⟩ := (FieldCheck.said_iff (sprintf_type_ne (by decide) (by decide))).mp h
      have htype' : index.type ∈ vectorIndexTypes := not_not.mp htype
      cases hparams : index.params with
      | none =>
        simp only [hparams] at h
        cases h.1
      | some p =>
        simp only [hparams] at h
        obtain ⟨hmetric, h⟩ := (FieldCheck.said_iff (by decide)).mp h
        by_cases herr : checkIndexParams index.type p = ""
        · rw [if_neg (not_not_intro herr)] at h
          obtain ⟨hmsg, hst⟩ := FieldCheck.quiet_some.mp h
          refine ⟨hmsg, ⟨⟨⟨by omega, by omega⟩, index, p, hindex, htype', hparams,
            not_not.mp hmetric, (checkIndexParams_iff htype' p).mp herr⟩, by omega⟩, hst⟩
        · rw [if_pos herr] at h
          exact absurd h (FieldCheck.not_quiet_say herr)
  · rintro ⟨hmsg, ⟨⟨hdim, index, p, hindex, hok⟩, hnum⟩, rfl⟩
    have herr := (checkIndexParams_iff hok.type p).mpr hok.minima
    refine ⟨by omega, by omega, ?_, hmsg⟩
    simp only [hindex, hok.params, if_neg (not_not_intro hok.type),
      if_neg (not_not_intro hok.metric), herr, ne_eq, not_true, if_false]

theorem indexName_iff (f : ApiField) (seen : List String) :
    (¬ f.index.map (·.name) = some "" ∧ ¬ (f.index.map (·.name)).any seen.contains = true) ↔
      (∀ index, f.index = some index → index.name ≠ "") ∧
        ∀ index, f.index = some index → index.name ∉ seen := by
  cases f.index with
  | none => simp
  | some index => simp

/-- **A turn of the loop reports nothing exactly when the field passes.** -/
theorem checkField_quiet_iff (st : FieldCheck) (f : ApiField) (st' : FieldCheck) :
    checkField st f = some st' ∧ st'.msg = "" ↔ st.msg = "" ∧ Passes st f ∧ st' = st.pass f := by
  unfold checkField
  simp only
  rw [FieldCheck.said_iff (by decide), FieldCheck.said_iff (by simp),
    FieldCheck.said_iff (by decide), FieldCheck.said_iff (by simp)]
  constructor
  · rintro ⟨hname, hfresh, hindex₁, hindex₂, h⟩
    obtain ⟨hindex, hnew⟩ := (indexName_iff f st.indexNames).mp ⟨hindex₁, hindex₂⟩
    by_cases hscalar : f.type ∈ scalarFieldTypes
    · have hvector : f.type ∉ vectorFieldTypes := fun hv => not_scalar_of_vector hv hscalar
      have hpasses : (∀ index, f.index = some index → index.type ∈ scalarIndexTypes) →
          Passes st f := fun hs =>
        ⟨⟨hname, hindex, Or.inl hscalar, fun _ => hs, fun hv => absurd hv hvector⟩, hfresh, hnew,
          fun hv => absurd hv hvector⟩
      rw [if_pos hscalar] at h
      cases hix : f.index with
      | none =>
        simp only [hix] at h
        obtain ⟨hmsg, hst⟩ := FieldCheck.quiet_some.mp h
        refine ⟨hmsg, hpasses fun index hi => ?_, ?_⟩
        · rw [hix] at hi
          cases hi
        · rw [hst, FieldCheck.pass, if_neg hvector, hix]
          rfl
      | some index =>
        simp only [hix] at h
        obtain ⟨htype, h⟩ := (FieldCheck.said_iff (sprintf_type_ne (by decide) (by decide))).mp h
        obtain ⟨hmsg, hst⟩ := FieldCheck.quiet_some.mp h
        refine ⟨hmsg, hpasses fun index' hi => ?_, ?_⟩
        · rw [hix] at hi
          cases hi
          exact not_not.mp htype
        · rw [hst, FieldCheck.pass, if_neg hvector, hix]
          rfl
    · rw [if_neg hscalar] at h
      by_cases hvector : f.type ∈ vectorFieldTypes
      · rw [if_pos hvector] at h
        obtain ⟨hmsg, hok, hst⟩ := checkVectorField_quiet_iff.mp h
        refine ⟨hmsg, ⟨⟨hname, hindex, Or.inr hvector, fun hs => absurd hs hscalar,
          fun _ => hok.1⟩, hfresh, hnew, fun _ => hok.2⟩, ?_⟩
        rw [hst, FieldCheck.pass, if_pos hvector]
      · rw [if_neg hvector] at h
        exact absurd h (FieldCheck.not_quiet_say (sprintf_type_ne (by decide) (by decide)))
  · rintro ⟨hmsg, ⟨hrules, hfresh, hnew, hroom⟩, rfl⟩
    obtain ⟨hindex₁, hindex₂⟩ := (indexName_iff f st.indexNames).mpr ⟨hrules.indexNamed, hnew⟩
    refine ⟨hrules.named, hfresh, hindex₁, hindex₂, ?_⟩
    by_cases hvector : f.type ∈ vectorFieldTypes
    · rw [if_neg (not_scalar_of_vector hvector), if_pos hvector]
      refine checkVectorField_quiet_iff.mpr ⟨hmsg, ⟨hrules.vector hvector, hroom hvector⟩, ?_⟩
      rw [FieldCheck.pass, if_pos hvector]
    · have hscalar := hrules.known.resolve_right hvector
      rw [if_pos hscalar]
      refine ⟨?_, hmsg⟩
      rw [FieldCheck.pass, if_neg hvector]
      cases hix : f.index with
      | none => rfl
      | some index =>
        simp only [if_neg (not_not_intro (hrules.scalar hscalar index hix))]
        rfl

/-! ### All fields -/

section

variable (fields : List ApiField)

theorem runOk_names_iff : RunOk FieldCheck.pass (fun st f => f.name ∉ st.fieldNames) {} fields ↔
    (fields.map (·.name)).Nodup := by
  have hfresh := runOk_fresh_iff (fun f : ApiField => [f.name])
    (fun _ => List.nodup_singleton _) fields []
  have hrun : RunOk FieldCheck.pass (fun st f => ∀ k ∈ [f.name], k ∉ st.fieldNames) {} fields ↔ _ :=
    (runOk_comp_iff FieldCheck.fieldNames (fun _ _ => rfl) fields {}).trans hfresh
  simpa [List.map_eq_flatMap] using hrun

theorem runOk_indexNames_iff :
    RunOk FieldCheck.pass (fun st f => ∀ index, f.index = some index → index.name ∉ st.indexNames)
        {} fields ↔
      (fields.filterMap fun f => f.index.map (·.name)).Nodup := by
  have hfresh := runOk_fresh_iff (fun f : ApiField => (f.index.map (·.name)).toList)
    (fun f => by cases f.index <;> simp) fields []
  have hrun : RunOk FieldCheck.pass
      (fun st f => ∀ k ∈ (f.index.map (·.name)).toList, k ∉ st.indexNames) {} fields ↔ _ :=
    (runOk_comp_iff FieldCheck.indexNames (fun _ _ => rfl) fields {}).trans hfresh
  simpa [List.filterMap_eq_flatMap_toList] using hrun

theorem runOk_vectorNum_iff :
    RunOk FieldCheck.pass (fun st f => f.type ∈ vectorFieldTypes → st.vectorFieldNum < 2) {} fields
      ↔ (fields.filter (·.type ∈ vectorFieldTypes)).length ≤ 2 := by
  have hcount := runOk_count_iff (fun f : ApiField => f.type ∈ vectorFieldTypes) 2 fields 0
    (Nat.zero_le 2)
  rw [Nat.zero_add] at hcount
  exact (runOk_comp_iff FieldCheck.vectorFieldNum (fun _ _ => rfl) fields {}).trans hcount

/-- The fields pass one after the other.  The parts of `Passes` look at parts of the state
that move independently. -/
theorem runOk_passes_iff :
    RunOk FieldCheck.pass Passes {} fields ↔
      (∀ f ∈ fields, FieldRules f) ∧ (fields.map (·.name)).Nodup ∧
        (fields.filterMap fun f => f.index.map (·.name)).Nodup ∧
        (fields.filter (·.type ∈ vectorFieldTypes)).length ≤ 2 := by
  refine (runOk_and_iff fields _).trans (and_congr (runOk_const_iff fields _) ?_)
  refine (runOk_and_iff fields _).trans (and_congr (runOk_names_iff fields) ?_)
  exact (runOk_and_iff fields _).trans
    (and_congr (runOk_indexNames_iff fields) (runOk_vectorNum_iff fields))

theorem vectorFieldNum_foldl : ∀ (fields : List ApiField) (st : FieldCheck),
    (fields.foldl FieldCheck.pass st).vectorFieldNum
      = st.vectorFieldNum + (fields.filter (·.type ∈ vectorFieldTypes)).length := by
  intro fields
  induction fields with
  | nil => intro st; rfl
  | cons f fields ih =>
    intro st
    rw [List.foldl_cons, ih, FieldCheck.pass]
    by_cases hvector : f.type ∈ vectorFieldTypes
    · simp [hvector, Nat.add_assoc, Nat.add_comm]
    · simp [hvector]

end

/-! ### The validator -/

/-- The report of the loop and of the test after it. -/
def fieldReport (s : ApiSpace) : Option String :=
  (s.fields.foldlM checkField {}).map fun st =>
    st.msg ++ if st.vectorFieldNum = 0 then "There is no vector field. " else ""

/-- Either the space is refused before its fields are looked at, or its fields decide. -/
theorem checkApiSpace_cases (s : ApiSpace) :
    HeadOk s ∧ checkApiSpace s = fieldReport s ∨
      ¬ HeadOk s ∧ ∃ m, m ≠ "" ∧ checkApiSpace s = some m := by
  unfold checkApiSpace
  by_cases hdb : nameValidate s.dbName ≠ ""
  · exact Or.inr ⟨fun h => hdb h.dbName, _, by simp, if_pos hdb⟩
  rw [if_neg hdb]
  by_cases hsp : nameValidate s.spaceName ≠ ""
  · exact Or.inr ⟨fun h => hsp h.spaceName, _, by simp, if_pos hsp⟩
  rw [if_neg hsp]
  by_cases hnum : s.partitionNum ≤ 0 ∨ s.partitionNum > 100
  · refine Or.inr ⟨fun h => ?_, _, by simp, if_pos hnum⟩
    have hrange := h.partitionNum
    omega
  rw [if_neg hnum]
  by_cases hrep : s.replicaNum ≤ 0 ∨ s.replicaNum % 2 = 0 ∨ s.replicaNum > 5
  · refine Or.inr ⟨fun h => ?_, _, by simp, if_pos hrep⟩
    have hrange := h.replicaNum
    omega
  rw [if_neg hrep]
  by_cases hparts : s.partitions ≠ []
  · exact Or.inr ⟨fun h => hparts h.partitions, _, by decide, if_pos hparts⟩
  rw [if_neg hparts]
  by_cases hid : s.idType ∈ docKeyTypes
  · exact Or.inr ⟨fun h => h.idType hid, _, by decide, if_pos hid⟩
  rw [if_neg hid]
  exact Or.inl ⟨⟨not_not.mp hdb, not_not.mp hsp, by omega, by omega, not_not.mp hparts, hid⟩, rfl⟩

theorem fieldReport_iff (s : ApiSpace) :
    fieldReport s = some "" ↔ FieldsOk s.fields ∧ (vectorFields s).length ≤ 2 := by
  have hloop := foldlM_quiet_iff checkField_quiet_iff s.fields {}
  have hnum := vectorFieldNum_foldl s.fields {}
  have hpos : 0 < (vectorFields s).length ↔ ∃ f ∈ s.fields, f.type ∈ vectorFieldTypes := by
    rw [List.length_pos_iff_exists_mem]
    simp [vectorFields]
  rw [fieldReport, Option.map_eq_some_iff]
  constructor
  · rintro ⟨st, hst, hmsg⟩
    rw [String.append_eq_empty_iff] at hmsg
    obtain ⟨-, hrun, rfl⟩ := (hloop st).mp ⟨hst, hmsg.1⟩
    obtain ⟨hrules, hnames, hindexes, hle⟩ := (runOk_passes_iff s.fields).mp hrun
    refine ⟨⟨hrules, hnames, hindexes, hpos.mp ?_⟩, hle⟩
    by_contra hno
    rw [Nat.not_lt, Nat.le_zero] at hno
    rw [hnum, show (s.fields.filter _).length = 0 from hno] at hmsg
    exact absurd hmsg.2 (by decide)
  · rintro ⟨⟨hrules, hnames, hindexes, hvector⟩, hle⟩
    obtain ⟨hst, hmsg⟩ := (hloop _).mpr
      ⟨rfl, (runOk_passes_iff s.fields).mpr ⟨hrules, hnames, hindexes, hle⟩, rfl⟩
    refine ⟨_, hst, ?_⟩
    have hne : ¬ (s.fields.filter (·.type ∈ vectorFieldTypes)).length = 0 :=
      Nat.pos_iff_ne_zero.mp (hpos.mpr hvector)
    rw [hmsg, hnum, Nat.zero_add, if_neg hne]
    rfl

/-- **What the validator accepts.** -/
theorem checkApiSpace_iff (s : ApiSpace) : checkApiSpace s = some "" ↔
    HeadOk s ∧ FieldsOk s.fields ∧ (vectorFields s).length ≤ 2 := by
  rcases checkApiSpace_cases s with ⟨hhead, h⟩ | ⟨hhead, m, hm, h⟩
  · rw [h, fieldReport_iff]
    exact ⟨fun hok => ⟨hhead, hok⟩, fun hok => hok.2⟩
  · rw [h]
    exact ⟨fun heq => absurd (Option.some.inj heq) hm, fun hok => absurd hok.1 hhead⟩

/-- **The validator accepts exactly its specification**: for a space that passes the tests
before the loop and has at most one vector field, an empty report means that the names are
distinct and that every field is what its type asks for. -/
theorem fields_accepted_iff (s : ApiSpace) (hhead : HeadOk s)
    (hone : (vectorFields s).length ≤ 1) :
    checkApiSpace s = some "" ↔ FieldsOk s.fields := by
  rw [checkApiSpace_iff]
  exact ⟨fun h => h.2.1, fun h => ⟨hhead, h, by omega⟩⟩

def pictureField (name indexName : String) (params : Option IndexParams) : ApiField :=
  { name := name, type := "vector", dimension := 4,
    index := some { name := indexName, type := "IVFFLAT", params := params } }

def catalogApi (fields : List ApiField) : ApiSpace :=
  { dbName := "database", spaceName := "catalog", partitionNum := 2, replicaNum := 3,
    fields := fields }

def centroids : IndexParams := { metricType := "L2", ncentroids := 16 }

def priceField (indexType : String) : ApiField :=
  { name := "price", type := "int", index := some { name := "by_price", type := indexType } }

theorem headOk_catalog (fields : List ApiField) : HeadOk (catalogApi fields) := by
  refine ⟨?_, ?_, ?_, ?_, rfl, ?_⟩
  · show nameValidate "database" = ""
    decide
  · show nameValidate "catalog" = ""
    decide
  · show (0 : Int) < 2 ∧ (2 : Int) ≤ 100
    decide
  · show (0 : Int) < 3 ∧ (3 : Int) % 2 ≠ 0 ∧ (3 : Int) ≤ 5
    decide
  · show "" ∉ docKeyTypes
    decide

/-- A space that is accepted, and one whose scalar field has the index type of a vector. -/
theorem fields_accepted_catalog :
    FieldsOk [priceField "SCALAR", pictureField "front" "by_front" (some centroids)] ∧
      ¬ FieldsOk [priceField "FLAT", pictureField "front" "by_front" (some centroids)] := by
  constructor
  · exact (fields_accepted_iff (catalogApi _) (headOk_catalog _) (by decide)).mp
      (by decide +kernel)
  · intro h
    have hpass := (fields_accepted_iff (catalogApi _) (headOk_catalog _) (by decide)).mpr h
    exact absurd hpass (by decide +kernel)

/-- **When an accepted space has one vector field**: always, except for a space that is right
in every other respect and has two. -/
theorem one_vector_field_iff (s : ApiSpace) :
    (checkApiSpace s = some "" → (vectorFields s).length = 1) ↔
      ¬ (HeadOk s ∧ FieldsOk s.fields ∧ (vectorFields s).length = 2) := by
  constructor
  · rintro h ⟨hhead, hfields, htwo⟩
    have hone := h ((checkApiSpace_iff s).mpr ⟨hhead, hfields, by omega⟩)
    omega
  · intro h hs
    obtain ⟨hhead, hfields, hle⟩ := (checkApiSpace_iff s).mp hs
    have hpos : 0 < (vectorFields s).length := by
      obtain ⟨f, hf, hvector⟩ := hfields.hasVector
      exact List.length_pos_of_mem (List.mem_filter.mpr ⟨hf, by simpa using hvector⟩)
    have hne : (vectorFields s).length ≠ 2 := fun htwo => h ⟨hhead, hfields, htwo⟩
    omega

/-- Two vector fields are accepted. -/
theorem two_vector_fields_accepted :
    let s := catalogApi [pictureField "front" "by_front" (some centroids),
      pictureField "back" "by_back" (some centroids)]
    checkApiSpace s = some "" ∧ (vectorFields s).length = 2 := by
  decide +kernel

/-! ### Parameters that are missing -/

/-- The turn reads the metric type of parameters that are not there: every test before that
was passed. -/
structure NilParams (st : FieldCheck) (f : ApiField) : Prop where
  named : f.name ≠ ""
  fresh : f.name ∉ st.fieldNames
  vector : f.type ∈ vectorFieldTypes
  room : st.vectorFieldNum < 2
  dimension : 1 ≤ f.dimension ∧ f.dimension ≤ 65536
  index : ∃ index, f.index = some index ∧ index.name ≠ "" ∧ index.name ∉ st.indexNames ∧
    index.type ∈ vectorIndexTypes ∧ index.params = none

theorem checkVectorField_none_iff (st : FieldCheck) (f : ApiField) :
    checkVectorField st f = none ↔
      st.vectorFieldNum < 2 ∧ (1 ≤ f.dimension ∧ f.dimension ≤ 65536) ∧
        ∃ index, f.index = some index ∧ index.type ∈ vectorIndexTypes ∧ index.params = none := by
  unfold checkVectorField
  rw [ite_some_eq_none, ite_some_eq_none]
  constructor
  · rintro ⟨hnum, hdim, h⟩
    refine ⟨by omega, ⟨by omega, by omega⟩, ?_⟩
    cases hindex : f.index with
    | none =>
      simp only [hindex] at h
      cases h
    | some index =>
      simp only [hindex] at h
      obtain ⟨htype, h⟩ := ite_some_eq_none.mp h
      refine ⟨index, rfl, not_not.mp htype, ?_⟩
      cases hparams : index.params with
      | none => rfl
      | some p =>
        simp only [hparams] at h
        obtain ⟨-, h⟩ := ite_some_eq_none.mp h
        obtain ⟨-, h⟩ := ite_some_eq_none.mp h
        cases h
  · rintro ⟨hnum, hdim, index, hindex, htype, hparams⟩
    refine ⟨by omega, by omega, ?_⟩
    simp only [hindex, hparams, if_neg (not_not_intro htype)]

/-- **A turn stops the handler exactly when it reads parameters that are missing.** -/
theorem checkField_none_iff (st : FieldCheck) (f : ApiField) :
    checkField st f = none ↔ NilParams st f := by
  unfold checkField
  simp only
  rw [ite_some_eq_none, ite_some_eq_none, ite_some_eq_none, ite_some_eq_none]
  constructor
  · rintro ⟨hname, hfresh, hindex₁, hindex₂, h⟩
    obtain ⟨hindex, hnew⟩ := (indexName_iff f st.indexNames).mp ⟨hindex₁, hindex₂⟩
    by_cases hscalar : f.type ∈ scalarFieldTypes
    · rw [if_pos hscalar] at h
      cases hix : f.index with
      | none =>
        simp only [hix] at h
        cases h
      | some index =>
        simp only [hix] at h
        cases (ite_some_eq_none.mp h).2
    · rw [if_neg hscalar] at h
      by_cases hvector : f.type ∈ vectorFieldTypes
      · rw [if_pos hvector] at h
        obtain ⟨hroom, hdim, index, hix, htype, hparams⟩ := (checkVectorField_none_iff _ f).mp h
        exact ⟨hname, hfresh, hvector, hroom, hdim, index, hix, hindex index hix, hnew index hix,
          htype, hparams⟩
      · rw [if_neg hvector] at h
        cases h
  · rintro ⟨hname, hfresh, hvector, hroom, hdim, index, hix, hindex, hnew, htype, hparams⟩
    obtain ⟨hindex₁, hindex₂⟩ := (indexName_iff f st.indexNames).mpr (by
      constructor
      · intro index' hix'
        rw [hix] at hix'
        cases hix'
        exact hindex
      · intro index' hix'
        rw [hix] at hix'
        cases hix'
        exact hnew)
    refine ⟨hname, hfresh, hindex₁, hindex₂, ?_⟩
    rw [if_neg (not_scalar_of_vector hvector), if_pos hvector]
    exact (checkVectorField_none_iff _ f).mpr ⟨hroom, hdim, index, hix, htype, hparams⟩

/-- The index of a field in `ApiSpaceToInnerSpace`, with the reads through its pointers: an
outer `none` is a read through nil. -/
def readInnerIndex (json : SpaceJson) (index : Option ApiIndex) : Option (Option InnerIndex) :=
  if index.isSome then do
    let name ← index.map (·.name)
    let type ← index.map (·.type)
    let params ← index.map (·.params)
    if params.isSome then
      if type = "IVFPQ" ∨ type = "VEARCH" then do
        let p ← params
        return some { name := name, type := type, params := some (json.marshalParams p) }
      else if type = "HNSW" then do
        let p ← params
        return some { name := name, type := type,
                      params := some (json.marshalHnsw
                        { metricType := some p.metricType, nlinks := p.nlinks,
                          efConstruction := p.efConstruction, efSearch := p.efSearch }) }
      else return some { name := name, type := type, params := none }
    else return none
  else return none

/-- The converter tests a pointer before it reads through it. -/
theorem readInnerIndex_eq (json : SpaceJson) (index : Option ApiIndex) :
    readInnerIndex json index = some (index.bind (toInnerIndex json)) := by
  unfold readInnerIndex toInnerIndex
  rcases index with _ | ⟨name, type, _ | p⟩
  · rfl
  · rfl
  · by_cases hpq : type = "IVFPQ" ∨ type = "VEARCH"
    · simp [hpq]
    · by_cases hhnsw : type = "HNSW"
      · simp [hhnsw]
      · simp [hpq, hhnsw]

/-- `ValidateCreateSpaceParam` on a request that was bound: the space and the report. -/
def validateCreateSpaceParam (json : SpaceJson) (s : ApiSpace) : Option (InnerSpace × String) := do
  let fields ← s.fields.mapM fun f => (readInnerIndex json f.index).map fun index =>
    ({ name := f.name, type := f.type, dimension := f.dimension, index := index } : InnerField)
  let space : InnerSpace :=
    { dbName := s.dbName, spaceName := s.spaceName, id := s.id, partitionNum := s.partitionNum,
      replicaNum := s.replicaNum, partitions := s.partitions, idType := s.idType, ctime := s.ctime,
      mtime := s.mtime, fields := fields }
  let report ← checkApiSpace s
  return (space, report)

theorem validateCreateSpaceParam_eq (json : SpaceJson) (s : ApiSpace) :
    validateCreateSpaceParam json s
      = (checkApiSpace s).map fun report => (apiSpaceToInnerSpace json s, report) := by
  have hfields : (s.fields.mapM fun f => (readInnerIndex json f.index).map fun index =>
      ({ name := f.name, type := f.type, dimension := f.dimension, index := index } : InnerField))
      = some (apiSpaceToInnerSpace json s).fields := by
    simp only [readInnerIndex_eq, Option.map_some]
    exact List.mapM_pure
  unfold validateCreateSpaceParam
  rw [hfields]
  cases checkApiSpace s with
  | none => rfl
  | some report => rfl

/-- The validator arrives at a field whose index it reads without parameters. -/
def ReadsNil (s : ApiSpace) : Prop :=
  HeadOk s ∧ ∃ pre f post st, s.fields = pre ++ f :: post ∧
    pre.foldlM checkField {} = some st ∧ NilParams st f

theorem checkApiSpace_none_iff (s : ApiSpace) : checkApiSpace s = none ↔ ReadsNil s := by
  rcases checkApiSpace_cases s with ⟨hhead, h⟩ | ⟨hhead, m, -, h⟩
  · rw [h, fieldReport, Option.map_eq_none_iff, foldlM_eq_none_iff]
    simp only [checkField_none_iff]
    exact ⟨fun hnil => ⟨hhead, hnil⟩, fun hnil => hnil.2⟩
  · rw [h]
    exact ⟨fun heq => (nomatch heq), fun hnil => absurd hnil.1 hhead⟩

/-- **When a request is validated without a read through nil**: exactly when the validator
does not arrive at a vector field that is right so far and has an index without parameters.
In particular it is when every index of a vector field has parameters. -/
theorem validation_reads_nil_iff (json : SpaceJson) (s : ApiSpace) :
    (validateCreateSpaceParam json s = none ↔ ReadsNil s) ∧
      ((∀ f ∈ s.fields, f.type ∈ vectorFieldTypes →
          ∀ index, f.index = some index → index.params ≠ none) →
        ∃ report,
          validateCreateSpaceParam json s = some (apiSpaceToInnerSpace json s, report)) := by
  rw [validateCreateSpaceParam_eq, Option.map_eq_none_iff, checkApiSpace_none_iff]
  refine ⟨Iff.rfl, fun hparams => ?_⟩
  cases hreport : checkApiSpace s with
  | some report => exact ⟨report, rfl⟩
  | none =>
    obtain ⟨-, pre, f, post, st, hfields, -, hnil⟩ := (checkApiSpace_none_iff s).mp hreport
    obtain ⟨index, hindex, -, -, -, hnone⟩ := hnil.index
    have hmem : f ∈ s.fields := by
      rw [hfields]
      exact List.mem_append_right _ List.mem_cons_self
    exact absurd hnone (hparams f hmem hnil.vector index hindex)

/-- A vector field with an index that has a name and a type only. -/
theorem validation_panics :
    validateCreateSpaceParam goJson (catalogApi [pictureField "front" "by_front" none]) = none := by
  decide +kernel

end SimSearch.Master
