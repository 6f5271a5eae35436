import Mathlib
import SimSearch.Lib.Sprintf

/-!
# The master's data

`master/config/config.go`, `master/common/common.go` and `master/entity/*.go`: the keys
under which the master stores things in etcd, the spaces and nodes, the validation of a
new space, and the node lists from which `ValidateNameAndGetIdlePsNode` takes its
nodes.

A Go `int` is an `Int`.  A Go map is a list of entries with different keys, in the
order of insertion; the order in which the code visits it is chosen where it does.
A function that indexes a slice without a test returns `none` where Go panics.
-/

namespace SimSearch.Master

open SimSearch.Lib.Sprintf

/-! ### Configuration -/

def psNodesPrefix : String := "/nodes/ps"
def routerNodesPrefix : String := "/nodes/router"
def spacesMataPrefix : String := "/spaces/mata"
def deletedSpacesMataPrefix : String := "/deleted_spaces/mata"
def ddlLockKey : String := "/ddl/lock"
def ddlDisabledKey : String := "/cluster/ddl_disabled"
def errSpacesPrefix : String := "/error/spaces"
def errPsNodesPrefix : String := "/error/nodes/ps"
def genPsIdKey : String := "gen_ps_id"
def genSpaceIdKey : String := "gen_space_id"

def etcdValMaxLen : Nat := 100

/-- `PsNodeTTL`, a number of nanoseconds where it is used. -/
def psNodeTtl : Nat := 5

def docKeyTypes : List String := ["long", "string"]
def scalarFieldTypes : List String := ["int", "long", "float", "double", "string", "stringarray"]
def scalarIndexTypes : List String := ["SCALAR"]
def vectorFieldTypes : List String := ["vector"]
def vectorIndexTypes : List String := ["IVFPQ", "HNSW", "VEARCH", "IVFFLAT", "BINARYIVF", "FLAT"]
def metricType : List String := ["L2", "InnerProduct"]

/-! ### Keys -/

def getSpaceEtcdKey (dbName spaceName : String) : String :=
  spacesMataPrefix ++ "/" ++ dbName ++ "/" ++ spaceName

def getDeletedSpaceEtcdKey (dbName spaceName : String) (spaceId : Int) : String :=
  deletedSpacesMataPrefix ++ "/" ++ dbName ++ "/" ++ spaceName ++ "/" ++ toString spaceId

def getErrSpaceEtcdKey (dbName spaceName : String) (spaceId : Int) : String :=
  errSpacesPrefix ++ "/" ++ dbName ++ "/" ++ spaceName ++ "/" ++ toString spaceId

def getPsNodeName (ip : String) (port : Int) : String := ":" ++ ip ++ ":" ++ toString port ++ ":"

def getPsRegisterKey (ip : String) (port id : Int) : String :=
  psNodesPrefix ++ "/" ++ getPsNodeName ip port ++ toString id

def getErrPsNodeEtcdKey (ip : String) (port id : Int) : String :=
  errPsNodesPrefix ++ "/" ++ getPsNodeName ip port ++ toString id

def getPartitionGroupName (dbName spaceName : String) (partitionId : Int) : String :=
  dbName ++ ":" ++ spaceName ++ ":" ++ toString partitionId

/-- `strings.Split(key, ":")`. -/
def splitColon (key : String) : List String := (key.toList.splitOn ':').map String.ofList

/-- The value of `strconv.Atoi`, with its error dropped: zero for a text that is no
number, and the nearest number for one that does not fit. -/
def atoi (s : String) : Int :=
  let cs := s.toList
  let ds := if cs.head? = some '-' ∨ cs.head? = some '+' then cs.tail else cs
  if ds = [] ∨ ds.all Char.isDigit = false then 0
  else
    let v : Int := ds.foldl (fun n c => 10 * n + ((c.toNat : Int) - 48)) 0
    let v := if cs.head? = some '-' then -v else v
    max (-2 ^ 63) (min v (2 ^ 63 - 1))

/-- The number that a text of digits with or without a sign stands for. -/
def decimal (s : String) : Option Int :=
  let cs := s.toList
  let ds := if cs.head? = some '-' ∨ cs.head? = some '+' then cs.tail else cs
  if ds = [] ∨ ds.all Char.isDigit = false then none
  else
    let v : Int := ds.foldl (fun n c => 10 * n + ((c.toNat : Int) - 48)) 0
    some (if cs.head? = some '-' then -v else v)

/-- The values of the type `int`, and of `int64`. -/
def GoInt (n : Int) : Prop := -2 ^ 63 ≤ n ∧ n < 2 ^ 63

instance (n : Int) : Decidable (GoInt n) := inferInstanceAs (Decidable (_ ∧ _))

theorem goInt_toInt64 (n : Int64) : GoInt n.toInt := ⟨n.le_toInt, n.toInt_lt⟩

/-- `strconv.ParseInt` in base ten, with 64 bits. -/
def parseInt64 (s : String) : Option Int := (decimal s).filter fun v => GoInt v

theorem atoi_eq (s : String) :
    atoi s = ((decimal s).map fun v => max (-2 ^ 63) (min v (2 ^ 63 - 1))).getD 0 := by
  unfold atoi decimal
  simp only
  split_ifs <;> rfl

theorem foldl_digits : ∀ (ds : List Char) (n : Nat), (∀ c ∈ ds, c.isDigit = true) →
    ds.foldl (fun (v : Int) c => 10 * v + ((c.toNat : Int) - 48)) n
      = (Nat.ofDigitChars 10 ds n : Nat) := by
  intro ds
  induction ds with
  | nil => intro n _; rfl
  | cons c r ih =>
    intro n h
    have hc : 48 ≤ c.toNat := by
      have hdigit := h c List.mem_cons_self
      simp only [Char.isDigit, Bool.and_eq_true, decide_eq_true_eq] at hdigit
      exact hdigit.1
    have hcast : 10 * (n : Int) + ((c.toNat : Int) - 48)
        = ((10 * n + (c.toNat - 48) : Nat) : Int) := by omega
    rw [List.foldl_cons, hcast, ih _ fun x hx => h x (List.mem_cons_of_mem _ hx)]
    rfl

theorem toList_toString (n : Int) : (toString n).toList
    = if 0 ≤ n then Nat.toDigits 10 n.natAbs else '-' :: Nat.toDigits 10 n.natAbs := by
  cases n with
  | ofNat n =>
    rw [if_pos (show 0 ≤ Int.ofNat n from Int.natCast_nonneg n)]
    show (Nat.repr n).toList = _
    simp [Nat.repr]
  | negSucc n =>
    rw [if_neg (by omega)]
    show ("-" ++ Nat.repr (n + 1)).toList = _
    simp [Nat.repr, String.toList_append]

theorem decimal_toString (n : Int) : decimal (toString n) = some n := by
  have hdigits : ∀ c ∈ Nat.toDigits 10 n.natAbs, c.isDigit = true := fun c hc =>
    Nat.isDigit_of_mem_toDigits (by decide) (by decide) hc
  have hall : (Nat.toDigits 10 n.natAbs).all Char.isDigit = true := List.all_eq_true.mpr hdigits
  have hvalue : (Nat.toDigits 10 n.natAbs).foldl
      (fun (v : Int) c => 10 * v + ((c.toNat : Int) - 48)) 0 = n.natAbs := by
    have hfold := foldl_digits _ 0 hdigits
    rw [Nat.ofDigitChars_ten_toDigits] at hfold
    exact hfold
  unfold decimal
  rw [toList_toString]
  by_cases hn : 0 ≤ n
  · -- the first digit is no sign
    have hsign : ∀ c, c.isDigit = false → (Nat.toDigits 10 n.natAbs).head? ≠ some c := by
      intro c hc hhead
      rw [hdigits c (List.mem_of_mem_head? hhead)] at hc
      cases hc
    simp only [if_pos hn, hsign '-' (by decide), hsign '+' (by decide), or_self, if_false,
      Nat.toDigits_ne_nil, hall, Bool.true_eq_false, hvalue, Int.natAbs_of_nonneg hn]
  · simp only [if_neg hn, List.head?_cons, true_or, if_true, List.tail_cons,
      Nat.toDigits_ne_nil, hall, Bool.true_eq_false, or_self, if_false, hvalue]
    congr 1
    omega

theorem toString_inj {n m : Int} (h : toString n = toString m) : n = m := by
  have hn := decimal_toString n
  rw [h, decimal_toString] at hn
  exact (Option.some.inj hn).symm

theorem atoi_toString {n : Int} (h : GoInt n) : atoi (toString n) = n := by
  obtain ⟨hlow, hhigh⟩ := h
  rw [atoi_eq, decimal_toString, Option.map_some, Option.getD_some]
  omega

theorem parseInt64_toString {n : Int} (h : GoInt n) : parseInt64 (toString n) = some n := by
  rw [parseInt64, decimal_toString]
  exact Option.filter_eq_some_iff.mpr ⟨rfl, decide_eq_true h⟩

def parsePsRegisterKey (key : String) : Option (String × Int × Int) :=
  match splitColon key with
  | _ :: ip :: port :: id :: _ => some (ip, atoi port, atoi id)
  | _ => none

def getRouterNodeEtcdKey (key : String) : Option (String × Int) :=
  match splitColon key with
  | _ :: ip :: port :: _ => some (ip, atoi port)
  | _ => none

/-! ### Spaces and nodes -/

structure Replica where
  psId : Int := 0
  psIp : String := ""
  psPort : Int := 0
  isLeader : Int := 0
  nodeStatus : String := ""
  msg : String := ""
  deriving DecidableEq, Repr

def Replica.name (r : Replica) : String := getPsNodeName r.psIp r.psPort

structure Partition where
  partitionId : Int := 0
  groupName : String := ""
  replicas : List Replica := []
  ctime : String := ""
  mtime : String := ""
  deriving DecidableEq, Repr

structure InnerIndex where
  name : String := ""
  type : String := ""
  params : Option String := none
  deriving DecidableEq, Repr

structure InnerField where
  name : String := ""
  type : String := ""
  dimension : Int := 0
  index : Option InnerIndex := none
  deriving DecidableEq, Repr

structure InnerSpace where
  dbName : String := ""
  spaceName : String := ""
  id : Int := 0
  partitionNum : Int := 0
  replicaNum : Int := 0
  fields : List InnerField := []
  partitions : List Partition := []
  idType : String := ""
  ctime : String := ""
  mtime : String := ""
  deriving DecidableEq, Repr

def InnerSpace.replicas (sp : InnerSpace) : List Replica := sp.partitions.flatMap (·.replicas)

/-- The key of a space in `NameToSpace`. -/
def InnerSpace.fullName (sp : InnerSpace) : String := sp.dbName ++ ":" ++ sp.spaceName

structure Hnsw where
  metricType : Option String := none
  nlinks : Int := 0
  efConstruction : Int := 0
  efSearch : Int := 0
  deriving DecidableEq, Repr

structure IndexParams where
  metricType : String := ""
  trainingThreshold : Int := 0
  ncentroids : Int := 0
  nsubvector : Int := 0
  nlinks : Int := 0
  efConstruction : Int := 0
  efSearch : Int := 0
  threadNum : Int := 0
  hnsw : Option Hnsw := none
  deriving DecidableEq, Repr

structure ApiIndex where
  name : String := ""
  type : String := ""
  params : Option IndexParams := none
  deriving DecidableEq, Repr

structure ApiField where
  name : String := ""
  type : String := ""
  dimension : Int := 0
  index : Option ApiIndex := none
  deriving DecidableEq, Repr

structure ApiSpace where
  dbName : String := ""
  spaceName : String := ""
  id : Int := 0
  partitionNum : Int := 0
  replicaNum : Int := 0
  fields : List ApiField := []
  partitions : List Partition := []
  idType : String := ""
  ctime : String := ""
  mtime : String := ""
  deriving DecidableEq, Repr

/-- `encoding/json` on a space.  `unmarshal` has no error: `DeserializeFromByte` returns
the outer `err`, which stays nil, and leaves what was filled in. -/
structure SpaceJson where
  marshal : InnerSpace → String
  unmarshal : String → InnerSpace
  marshalParams : IndexParams → String
  marshalHnsw : Hnsw → String

/-! ### Validation -/

/-- `unicode.IsLetter` on a code point below 256. -/
def isLetterLatin1 (n : Nat) : Bool :=
  (65 ≤ n && n ≤ 90) || (97 ≤ n && n ≤ 122) || n == 170 || n == 181 || n == 186
    || (192 ≤ n && n ≤ 214) || (216 ≤ n && n ≤ 246) || (248 ≤ n && n ≤ 255)

def isNameChar (c : Char) : Bool :=
  ('a' ≤ c && c ≤ 'z') || ('A' ≤ c && c ≤ 'Z') || ('0' ≤ c && c ≤ '9') || c == '_' || c == '-'

def nameValidate (s : String) : String :=
  if s.utf8ByteSize ≤ 5 then "长度应该 > 5"
  else
    let first := (s.toList.flatMap String.utf8EncodeChar).head?.map UInt8.toNat
    if isLetterLatin1 (first.getD 0) = false then "首字母应该为大/小写字母"
    else if s.toList.all isNameChar = false then "应该只包含大小字母、数字、'-' 或者 '_'"
    else ""

theorem isNameChar_of_nameValidate {s : String} (h : nameValidate s = "") :
    ∀ c ∈ s.toList, isNameChar c = true := by
  unfold nameValidate at h
  simp only at h
  split_ifs at h with h1 h2 h3
  · exact absurd h (by decide)
  · exact absurd h (by decide)
  · exact absurd h (by decide)
  · simpa using h3

/-- What the loop of `CheckApiSpace` carries along. -/
structure FieldCheck where
  msg : String := ""
  fieldNames : List String := []
  indexNames : List String := []
  vectorFieldNum : Nat := 0

def FieldCheck.say (st : FieldCheck) (msg : String) : FieldCheck := { st with msg := st.msg ++ msg }

/-- The parameters that each type of vector index needs. -/
def checkIndexParams (type : String) (p : IndexParams) : String :=
  if type = "IVFPQ" then
    if p.ncentroids < 2 ∨ p.nsubvector < 2 then
      "IVFPQ index, ncentroids and nsubvector should be setted. "
    else
      match p.hnsw with
      | some h =>
        if h.nlinks < 2 ∨ h.efConstruction < 2 ∨ h.efSearch < 2 then
          "IVFPQ HNSW index, efSearch and nlinks and efConstruction should be setted. "
        else ""
      | none => ""
  else if type = "HNSW" then
    if p.nlinks < 2 ∨ p.efConstruction < 2 ∨ p.efSearch < 2 then
      "HNSW index, efSearch and nlinks and efConstruction should be setted. "
    else ""
  else if type = "IVFFLAT" then
    if p.ncentroids < 2 then "IVFFLAT index, ncentroids should be setted. " else ""
  else if type = "VEARCH" then
    if p.ncentroids < 2 ∨ p.nsubvector < 2 then
      "VEARCH index, ncentroids and nsubvector should be setted. "
    else ""
  else if type = "FLAT" then ""
  else if type = "BINARYIVF" then
    if p.ncentroids < 2 then "BINARYIVF index, ncentroids should be setted. " else ""
  else "vector index type errr, it is in [IVFPQ, HNSW, IVFFLAT, VEARCH, FLAT, BINARYIVF]; "

/-- The branch for a vector field; the parameters of its index are read without a test
for nil. -/
def checkVectorField (st : FieldCheck) (field : ApiField) : Option FieldCheck :=
  if st.vectorFieldNum > 1 then
    some (st.say "has 2 vector field, now only allow 1 vector field. ")
  else if field.dimension < 1 ∨ field.dimension > 65536 then
    some (st.say "vector Dimension, should in [1, 65536]. ")
  else
    match field.index with
    | none => some (st.say "please set vector index info. ")
    | some index =>
      if index.type ∉ vectorIndexTypes then
        some (st.say (sprintf ("vector index type:" ++ index.type
          ++ " is failed, it should is %v. ") [vectorIndexTypes]))
      else
        match index.params with
        | none => none
        | some p =>
          if p.metricType ∉ metricType then
            some (st.say (sprintf "metric_type should is %v. " [metricType]))
          else
            let err := checkIndexParams index.type p
            if err ≠ "" then some (st.say err)
            else some { st with vectorFieldNum := st.vectorFieldNum + 1 }

/-- One turn of the loop of `CheckApiSpace`.  The type of the request is part of the format of
`Sprintf`. -/
def checkField (st : FieldCheck) (field : ApiField) : Option FieldCheck :=
  if field.name = "" then some (st.say "Field name is null. ")
  else if field.name ∈ st.fieldNames then
    some (st.say ("Field name:" ++ field.name ++ " is repeated. "))
  else
    let st := { st with fieldNames := field.name :: st.fieldNames }
    let indexName := field.index.map (·.name)
    if indexName = some "" then some (st.say "Field Index name is null. ")
    else if indexName.any st.indexNames.contains then
      some (st.say ("index name:" ++ indexName.getD "" ++ " is repeated. "))
    else
      let st := { st with indexNames := indexName.toList ++ st.indexNames }
      if field.type ∈ scalarFieldTypes then
        match field.index with
        | some index =>
          if index.type ∉ scalarIndexTypes then
            some (st.say (sprintf ("scalar index type:" ++ index.type
              ++ " is failed, it should is %v") [scalarIndexTypes]))
          else some st
        | none => some st
      else if field.type ∈ vectorFieldTypes then checkVectorField st field
      else
        some (st.say (sprintf ("Field type:" ++ field.type ++ " is error, it should is %v or %v. ")
          [scalarFieldTypes, vectorFieldTypes]))

/-- `CheckApiSpace`.  A key type is refused when it is one of those that the message
names. -/
def checkApiSpace (s : ApiSpace) : Option String :=
  if nameValidate s.dbName ≠ "" then some ("DbName 格式错误：" ++ nameValidate s.dbName)
  else if nameValidate s.spaceName ≠ "" then
    some ("Space Name 格式错误：" ++ nameValidate s.spaceName)
  else if s.partitionNum ≤ 0 ∨ s.partitionNum > 100 then
    some ("PartitionNum[" ++ toString s.partitionNum ++ "] error, num range [1, 100]")
  else if s.replicaNum ≤ 0 ∨ s.replicaNum % 2 = 0 ∨ s.replicaNum > 5 then
    some ("ReplicaNum[" ++ toString s.replicaNum ++ "] error, it should in (1, 3, 5)")
  else if s.partitions ≠ [] then some "CreateSpace api, Partitions info should is null"
  else if s.idType ∈ docKeyTypes then
    some (sprintf "CreateSpace api, _id_type only support %v." [docKeyTypes])
  else
    (s.fields.foldlM checkField {}).map fun st =>
      st.msg ++ if st.vectorFieldNum = 0 then "There is no vector field. " else ""

/-! ### What is accepted -/

def FieldOk (f : ApiField) : Prop :=
  f.type ∈ scalarFieldTypes ∨
    f.type ∈ vectorFieldTypes ∧ 1 ≤ f.dimension ∧ f.dimension ≤ 65536

theorem FieldCheck.say_msg_ne {st : FieldCheck} {m : String} (hm : m ≠ "") :
    (st.say m).msg ≠ "" := by
  intro h
  rw [FieldCheck.say, String.append_eq_empty_iff] at h
  exact hm h.2

theorem FieldCheck.not_said {c : Prop} [Decidable c] {st st' : FieldCheck} {m : String}
    {rest : Option FieldCheck} (h : (if c then some (st.say m) else rest) = some st')
    (hmsg : st'.msg = "") (hm : m ≠ "") : ¬ c ∧ rest = some st' := by
  by_cases hc : c
  · rw [if_pos hc, Option.some.injEq] at h
    rw [← h] at hmsg
    exact absurd hmsg (say_msg_ne hm)
  · rw [if_neg hc] at h
    exact ⟨hc, h⟩

theorem sprintf_type_ne {pre type post : String} {args : List (List String)}
    (h : '%' ∉ pre.toList) (hpre : pre ≠ "") :
    sprintf (pre ++ type ++ post) args ≠ "" := by
  rw [String.append_assoc]
  exact sprintf_ne_empty h hpre _ _

theorem checkVectorField_ok {st st' : FieldCheck} {f : ApiField}
    (h : checkVectorField st f = some st') (hmsg : st'.msg = "") :
    st.msg = "" ∧ (1 ≤ f.dimension ∧ f.dimension ≤ 65536) ∧ st'.fieldNames = st.fieldNames := by
  unfold checkVectorField at h
  obtain ⟨-, h⟩ := FieldCheck.not_said h hmsg (by decide)
  obtain ⟨hdim, h⟩ := FieldCheck.not_said h hmsg (by decide)
  cases hindex : f.index with
  | none =>
    simp only [hindex] at h
    cases h
    exact absurd hmsg (FieldCheck.say_msg_ne (by decide))
  | some index =>
    simp only [hindex] at h
    obtain ⟨-, h⟩ := FieldCheck.not_said h hmsg (sprintf_type_ne (by decide) (by decide))
    cases hparams : index.params with
    | none =>
      simp only [hparams] at h
      cases h
    | some p =>
      simp only [hparams] at h
      obtain ⟨-, h⟩ := FieldCheck.not_said h hmsg (by decide)
      by_cases hparam : checkIndexParams index.type p = ""
      · rw [if_neg (not_not_intro hparam)] at h
        cases h
        exact ⟨hmsg, ⟨by omega, by omega⟩, rfl⟩
      · rw [if_pos hparam] at h
        cases h
        exact absurd hmsg (FieldCheck.say_msg_ne hparam)

/-- **A turn of the loop that reports nothing**: nothing was reported before, the field is
one that is accepted, and its name is new. -/
theorem checkField_ok {st st' : FieldCheck} {f : ApiField} (h : checkField st f = some st')
    (hmsg : st'.msg = "") :
    st.msg = "" ∧ FieldOk f ∧ f.name ∉ st.fieldNames ∧
      st'.fieldNames = f.name :: st.fieldNames := by
  unfold checkField at h
  simp only at h
  obtain ⟨-, h⟩ := FieldCheck.not_said h hmsg (by decide)
  obtain ⟨hnew, h⟩ := FieldCheck.not_said h hmsg (by simp)
  obtain ⟨-, h⟩ := FieldCheck.not_said h hmsg (by decide)
  obtain ⟨-, h⟩ := FieldCheck.not_said h hmsg (by simp)
  by_cases hscalar : f.type ∈ scalarFieldTypes
  · rw [if_pos hscalar] at h
    cases hindex : f.index with
    | none =>
      simp only [hindex] at h
      cases h
      exact ⟨hmsg, Or.inl hscalar, hnew, rfl⟩
    | some index =>
      simp only [hindex] at h
      obtain ⟨-, h⟩ := FieldCheck.not_said h hmsg (sprintf_type_ne (by decide) (by decide))
      cases h
      exact ⟨hmsg, Or.inl hscalar, hnew, rfl⟩
  · rw [if_neg hscalar] at h
    by_cases hvector : f.type ∈ vectorFieldTypes
    · rw [if_pos hvector] at h
      obtain ⟨hold, hdim, hnames⟩ := checkVectorField_ok h hmsg
      exact ⟨hold, Or.inr ⟨hvector, hdim⟩, hnew, hnames⟩
    · rw [if_neg hvector] at h
      cases h
      exact absurd hmsg (FieldCheck.say_msg_ne (sprintf_type_ne (by decide) (by decide)))

/-- The loop: every field is accepted, and no two have one name. -/
theorem checkFields_ok : ∀ {fields : List ApiField} {st st' : FieldCheck},
    fields.foldlM checkField st = some st' → st'.msg = "" →
    st.msg = "" ∧ (∀ f ∈ fields, FieldOk f ∧ f.name ∉ st.fieldNames) ∧
      (fields.map (·.name)).Nodup := by
  intro fields
  induction fields with
  | nil =>
    intro st st' h hmsg
    rw [List.foldlM_nil] at h
    cases h
    exact ⟨hmsg, fun _ hf => (nomatch hf), List.nodup_nil⟩
  | cons f fields ih =>
    intro st st' h hmsg
    rw [List.foldlM_cons] at h
    obtain ⟨st₁, h₁, h₂⟩ := Option.bind_eq_some_iff.mp h
    obtain ⟨hmsg₁, hrest, hnodup⟩ := ih h₂ hmsg
    obtain ⟨hmsg₀, hok, hnew, hnames⟩ := checkField_ok h₁ hmsg₁
    refine ⟨hmsg₀, ?_, ?_⟩
    · intro g hg
      rcases List.mem_cons.mp hg with rfl | hg
      · exact ⟨hok, hnew⟩
      · obtain ⟨hgok, hgnew⟩ := hrest g hg
        rw [hnames] at hgnew
        exact ⟨hgok, fun hin => hgnew (List.mem_cons_of_mem _ hin)⟩
    · rw [List.map_cons, List.nodup_cons]
      refine ⟨fun hin => ?_, hnodup⟩
      obtain ⟨g, hg, hname⟩ := List.mem_map.mp hin
      have hgnew := (hrest g hg).2
      rw [hnames, hname] at hgnew
      exact hgnew List.mem_cons_self

structure Accepted (s : ApiSpace) : Prop where
  dbName : nameValidate s.dbName = ""
  spaceName : nameValidate s.spaceName = ""
  partitionNum : 0 < s.partitionNum ∧ s.partitionNum ≤ 100
  replicaNum : 0 < s.replicaNum ∧ s.replicaNum % 2 ≠ 0 ∧ s.replicaNum ≤ 5
  partitions : s.partitions = []
  idType : s.idType ∉ docKeyTypes
  fields : ∀ f ∈ s.fields, FieldOk f
  names : (s.fields.map (·.name)).Nodup

theorem not_refused {c : Prop} [Decidable c] {m : String} {rest : Option String}
    (h : (if c then some m else rest) = some "") (hm : m ≠ "") : ¬ c ∧ rest = some "" := by
  by_cases hc : c
  · rw [if_pos hc, Option.some.injEq] at h
    exact absurd h hm
  · rw [if_neg hc] at h
    exact ⟨hc, h⟩

theorem accepted_of_checkApiSpace {s : ApiSpace} (h : checkApiSpace s = some "") : Accepted s := by
  unfold checkApiSpace at h
  obtain ⟨hdb, h⟩ := not_refused h (by simp)
  obtain ⟨hsp, h⟩ := not_refused h (by simp)
  obtain ⟨hnum, h⟩ := not_refused h (by simp)
  obtain ⟨hrep, h⟩ := not_refused h (by simp)
  obtain ⟨hparts, h⟩ := not_refused h (by decide)
  obtain ⟨hid, h⟩ := not_refused h (by decide)
  obtain ⟨st, hst, hmsg⟩ := Option.map_eq_some_iff.mp h
  rw [String.append_eq_empty_iff] at hmsg
  obtain ⟨-, hfields, hnames⟩ := checkFields_ok hst hmsg.1
  exact ⟨not_not.mp hdb, not_not.mp hsp, ⟨by omega, by omega⟩, ⟨by omega, by omega, by omega⟩,
    not_not.mp hparts, hid, fun f hf => (hfields f hf).1, hnames⟩

/-- A space that passes has valid names, no partitions and numbers in range. -/
theorem checkApiSpace_ok {s : ApiSpace} (h : checkApiSpace s = some "") :
    nameValidate s.dbName = "" ∧ nameValidate s.spaceName = "" ∧ 0 < s.partitionNum ∧
      0 < s.replicaNum ∧ s.partitions = [] := by
  have hs := accepted_of_checkApiSpace h
  exact ⟨hs.dbName, hs.spaceName, hs.partitionNum.1, hs.replicaNum.1, hs.partitions⟩

/-- The index of a field, converted; it is dropped when it has no parameters. -/
def toInnerIndex (json : SpaceJson) (index : ApiIndex) : Option InnerIndex :=
  index.params.map fun p =>
    { name := index.name, type := index.type,
      params :=
        if index.type = "IVFPQ" ∨ index.type = "VEARCH" then some (json.marshalParams p)
        else if index.type = "HNSW" then
          some (json.marshalHnsw { metricType := some p.metricType, nlinks := p.nlinks,
                                   efConstruction := p.efConstruction, efSearch := p.efSearch })
        else none }

def apiSpaceToInnerSpace (json : SpaceJson) (s : ApiSpace) : InnerSpace :=
  { dbName := s.dbName, spaceName := s.spaceName, id := s.id, partitionNum := s.partitionNum,
    replicaNum := s.replicaNum, partitions := s.partitions, idType := s.idType, ctime := s.ctime,
    mtime := s.mtime,
    fields := s.fields.map fun f =>
      { name := f.name, type := f.type, dimension := f.dimension,
        index := f.index.bind (toInnerIndex json) } }

/-! ### Node lists -/

/-- An assignment to a Go map. -/
def goAssign {β : Type} (m : List (String × β)) (k : String) (v : β) : List (String × β) :=
  if m.any (fun e => e.1 == k) then m.map (fun e => if e.1 = k then (k, v) else e)
  else m ++ [(k, v)]

/-- One turn of the loop of `RepDeserializeFromByte`; the first node of a name counts. -/
def addPsNode (m : List (String × Replica)) (nodeKey : String) : Option (List (String × Replica)) :=
  (parsePsRegisterKey nodeKey).map fun (ip, port, id) =>
    if getPsNodeName ip port ∈ m.map Prod.fst then m
    else m ++ [(getPsNodeName ip port, { psId := id, psIp := ip, psPort := port })]

def repDeserializeFromByte (nodeKeys : List String) : Option (List (String × Replica)) :=
  nodeKeys.foldlM addPsNode []

/-- `RouterReplicaList.DeserializeFromByte`; the keys of a scan are all different. -/
def routerDeserializeFromByte (nodeKeys : List String) : Option (List (String × Int)) :=
  nodeKeys.mapM getRouterNodeEtcdKey

def deserializeFromByteList (json : SpaceJson) (vals : List String) : List (String × InnerSpace) :=
  vals.foldl (fun m v => goAssign m (json.unmarshal v).fullName (json.unmarshal v)) []

/-- `SpaceList.GetAllPsMap`, over the spaces in the order they are visited. -/
def getAllPsMap (spaces : List InnerSpace) : List (String × Replica) :=
  (spaces.flatMap InnerSpace.replicas).foldl (fun m r => goAssign m r.name r) []

/-- `ReplicaList.GetAllIdlePsKeys`, over the nodes in the order they are visited. -/
def getAllIdlePsKeys (nodes : List (String × Replica)) (busy : List (List (String × Replica))) :
    List Replica :=
  (nodes.filter fun e => !busy.any fun m => (m.map Prod.fst).contains e.1).map Prod.snd

/-- The nodes are listed under their own names, each once. -/
structure PsNodes (m : List (String × Replica)) : Prop where
  named : ∀ e ∈ m, e.1 = e.2.name
  nodup : (m.map Prod.fst).Nodup

theorem psNodes_add {m m' : List (String × Replica)} {key : String} (hm : PsNodes m)
    (h : addPsNode m key = some m') : PsNodes m' := by
  unfold addPsNode at h
  rw [Option.map_eq_some_iff] at h
  obtain ⟨⟨ip, port, id⟩, -, rfl⟩ := h
  simp only
  by_cases hin : getPsNodeName ip port ∈ m.map Prod.fst
  · rw [if_pos hin]
    exact hm
  · rw [if_neg hin]
    refine ⟨fun e he => ?_, ?_⟩
    · rcases List.mem_append.mp he with he | he
      · exact hm.named e he
      · rw [List.mem_singleton] at he
        subst he
        rfl
    · rw [List.map_append, List.nodup_append]
      refine ⟨hm.nodup, by simp, ?_⟩
      intro a ha b hb hab
      rw [List.map_singleton, List.mem_singleton] at hb
      rw [hab, hb] at ha
      exact hin ha

theorem psNodes_repDeserialize {keys : List String} {m : List (String × Replica)}
    (h : repDeserializeFromByte keys = some m) : PsNodes m := by
  have hfold : ∀ (ks : List String) (m₀ : List (String × Replica)), PsNodes m₀ →
      ks.foldlM addPsNode m₀ = some m → PsNodes m := by
    intro ks
    induction ks with
    | nil =>
      intro m₀ hm₀ h
      rw [List.foldlM_nil] at h
      cases h
      exact hm₀
    | cons k r ih =>
      intro m₀ hm₀ h
      rw [List.foldlM_cons] at h
      obtain ⟨m₁, h₁, h₂⟩ := Option.bind_eq_some_iff.mp h
      exact ih m₁ (psNodes_add hm₀ h₁) h₂
  exact hfold keys [] ⟨fun _ he => (nomatch he), List.nodup_nil⟩ h

theorem mem_keys_goAssign {β : Type} (m : List (String × β)) (k : String) (v : β) (x : String) :
    x ∈ (goAssign m k v).map Prod.fst ↔ x = k ∨ x ∈ m.map Prod.fst := by
  unfold goAssign
  by_cases h : m.any (fun e => e.1 == k) = true
  · rw [if_pos h]
    have hkeys : (m.map (fun e => if e.1 = k then (k, v) else e)).map Prod.fst
        = m.map Prod.fst := by
      rw [List.map_map]
      refine List.map_congr_left fun e _ => ?_
      by_cases he : e.1 = k
      · simp [he]
      · simp [he]
    rw [hkeys]
    obtain ⟨e, he, hek⟩ := List.any_eq_true.mp h
    have hk : k ∈ m.map Prod.fst := List.mem_map.mpr ⟨e, he, by simpa using hek⟩
    constructor
    · exact Or.inr
    · rintro (rfl | hx)
      · exact hk
      · exact hx
  · rw [if_neg h, List.map_append, List.mem_append]
    simp [or_comm]

theorem mem_keys_foldl_goAssign {α β : Type} (key : α → String) (val : α → β) (x : String) :
    ∀ (l : List α) (m : List (String × β)),
      x ∈ (l.foldl (fun m a => goAssign m (key a) (val a)) m).map Prod.fst
        ↔ x ∈ m.map Prod.fst ∨ ∃ a ∈ l, key a = x := by
  intro l
  induction l with
  | nil => intro m; simp
  | cons a l ih =>
    intro m
    rw [List.foldl_cons, ih, mem_keys_goAssign]
    constructor
    · rintro ((rfl | hm) | ⟨b, hb, hbx⟩)
      · exact Or.inr ⟨a, List.mem_cons_self, rfl⟩
      · exact Or.inl hm
      · exact Or.inr ⟨b, List.mem_cons_of_mem _ hb, hbx⟩
    · rintro (hm | ⟨b, hb, hbx⟩)
      · exact Or.inl (Or.inr hm)
      · rcases List.mem_cons.mp hb with rfl | hb
        · exact Or.inl (Or.inl hbx.symm)
        · exact Or.inr ⟨b, hb, hbx⟩

theorem mem_keys_getAllPsMap (spaces : List InnerSpace) (x : String) :
    x ∈ (getAllPsMap spaces).map Prod.fst ↔ ∃ sp ∈ spaces, ∃ r ∈ sp.replicas, r.name = x := by
  unfold getAllPsMap
  refine (mem_keys_foldl_goAssign Replica.name (fun r => r) x _ _).trans ?_
  simp only [List.map_nil, List.not_mem_nil, false_or, List.mem_flatMap]
  constructor
  · rintro ⟨r, ⟨sp, hsp, hr⟩, hx⟩
    exact ⟨sp, hsp, r, hr, hx⟩
  · rintro ⟨sp, hsp, r, hr, hx⟩
    exact ⟨r, ⟨sp, hsp, hr⟩, hx⟩

theorem mem_keys_deserializeFromByteList (json : SpaceJson) (vals : List String) (x : String) :
    x ∈ (deserializeFromByteList json vals).map Prod.fst ↔
      ∃ v ∈ vals, (json.unmarshal v).fullName = x := by
  unfold deserializeFromByteList
  refine (mem_keys_foldl_goAssign (fun v => (json.unmarshal v).fullName) json.unmarshal x _
    _).trans ?_
  simp

theorem foldl_goAssign_of_nodup {α β : Type} (key : α → String) (val : α → β) :
    ∀ (l : List α) (m : List (String × β)), (l.map key).Nodup →
      (∀ a ∈ l, key a ∉ m.map Prod.fst) →
      l.foldl (fun m a => goAssign m (key a) (val a)) m = m ++ l.map fun a => (key a, val a) := by
  intro l
  induction l with
  | nil => intro m _ _; simp
  | cons a l ih =>
    intro m hnodup hnew
    rw [List.map_cons, List.nodup_cons] at hnodup
    have hassign : goAssign m (key a) (val a) = m ++ [(key a, val a)] := by
      unfold goAssign
      refine if_neg fun h => hnew a List.mem_cons_self ?_
      obtain ⟨e, he, hek⟩ := List.any_eq_true.mp h
      exact List.mem_map.mpr ⟨e, he, by simpa using hek⟩
    rw [List.foldl_cons, hassign, ih _ hnodup.2]
    · simp
    · intro b hb hin
      rw [List.map_append, List.mem_append, List.map_singleton, List.mem_singleton] at hin
      rcases hin with hin | hin
      · exact hnew b (List.mem_cons_of_mem _ hb) hin
      · exact hnodup.1 (List.mem_map.mpr ⟨b, hb, hin⟩)

theorem deserializeFromByteList_of_nodup {json : SpaceJson} {vals : List String}
    (h : (vals.map fun v => (json.unmarshal v).fullName).Nodup) :
    (deserializeFromByteList json vals).map Prod.snd = vals.map json.unmarshal := by
  have hlist := foldl_goAssign_of_nodup (fun v => (json.unmarshal v).fullName) json.unmarshal vals
    [] h fun _ _ hin => (nomatch hin)
  unfold deserializeFromByteList
  rw [hlist, List.nil_append, List.map_map]
  rfl

/-- **The idle nodes have different names, and none that is busy.** -/
theorem getAllIdlePsKeys_spec {nodes : List (String × Replica)}
    {busy : List (List (String × Replica))} (hn : PsNodes nodes) :
    ((getAllIdlePsKeys nodes busy).map Replica.name).Nodup ∧
      ∀ r ∈ getAllIdlePsKeys nodes busy, ∀ m ∈ busy, r.name ∉ m.map Prod.fst := by
  have hnames : (getAllIdlePsKeys nodes busy).map Replica.name
      = (nodes.filter fun e => !busy.any fun m => (m.map Prod.fst).contains e.1).map Prod.fst := by
    rw [getAllIdlePsKeys, List.map_map]
    refine List.map_congr_left fun e he => ?_
    exact (hn.named e (List.mem_of_mem_filter he)).symm
  constructor
  · rw [hnames]
    exact hn.nodup.sublist (List.filter_sublist.map _)
  · intro r hr m hm hin
    unfold getAllIdlePsKeys at hr
    obtain ⟨e, he, rfl⟩ := List.mem_map.mp hr
    rw [List.mem_filter] at he
    have hbusy : (busy.any fun m => (m.map Prod.fst).contains e.1) = true := by
      refine List.any_eq_true.mpr ⟨m, hm, ?_⟩
      rw [List.contains_iff_mem, hn.named e he.1]
      exact hin
    rw [hbusy] at he
    cases he.2

end SimSearch.Master
