import SimSearch.Router.Groups
import SimSearch.Lib.Verdicts

/-!
# What the answers of `Get` and `Upsert` report

`Get` asks each partition for its ids, takes the first answer without an error, and keeps an
error or a document for each id.  `PartitionConnetion.verdict` is that decision for one id, as
a function of what the PS answered, and `SpaceConnection.verdict` the one of the id's
partition.  `sorts_getDocs` says that the two maps of the loops hold exactly these verdicts,
so the lists of the response are the ids, split in two (`get_accounts`).

`Upsert` keeps errors only, under the key of the document.  `mem_upsertDocs` says which keys
have one.  All keys are the empty text, and the code is taken from the number of documents, so
the response is right exactly when the request has no documents (`upsert_reports_iff`).
-/

namespace SimSearch.Router

open SimSearch.Lib

/-! ### Ids that are accepted -/

/-- What an accepted list says of its first id, whatever the type of the ids. -/
theorem checkPbIdsFrom_head {space : Space} {st : List String} {key : String}
    {keys : List String} (h : checkPbIdsFrom space st (key :: keys) = "") :
    key ∉ st ∧ checkPbIdsFrom space (key :: st) keys = "" := by
  rw [checkPbIdsFrom] at h
  by_cases hempty : key = ""
  · rw [if_pos hempty] at h
    exact absurd h (by decide)
  rw [if_neg hempty] at h
  have hnext : (if key ∈ st then "Duplicate document key: " ++ key
      else checkPbIdsFrom space (key :: st) keys) = "" := by
    by_cases hlong : space.idType = longSdtype
    · simp only [if_pos hlong] at h
      cases hkey : strToInt64 key with
      | error status =>
        rw [hkey] at h
        exact absurd h (by simp)
      | ok v =>
        rw [hkey] at h
        exact h
    · simp only [if_neg hlong] at h
      exact h
  by_cases hseen : key ∈ st
  · rw [if_pos hseen] at hnext
    exact absurd hnext (by simp)
  · rw [if_neg hseen] at hnext
    exact ⟨hseen, hnext⟩

theorem nodup_of_checkPbIds {ids : List String} {space : Space} (h : checkPbIds ids space = "") :
    ids.Nodup := by
  have hrun : ∀ ids st, checkPbIdsFrom space st ids = "" → ids.Nodup ∧ ∀ key ∈ ids, key ∉ st := by
    intro ids
    induction ids with
    | nil => intro st _; simp
    | cons key ids ih =>
      intro st h
      obtain ⟨hnew, hrest⟩ := checkPbIdsFrom_head h
      obtain ⟨hnodup, hdisj⟩ := ih _ hrest
      refine ⟨List.nodup_cons.mpr ⟨fun hmem => hdisj key hmem List.mem_cons_self, hnodup⟩, ?_⟩
      exact List.forall_mem_cons.mpr
        ⟨hnew, fun k hk hst => hdisj k hk (List.mem_cons_of_mem _ hst)⟩
  exact (hrun ids [] h).1

theorem keyGroups_of_checkPbIds (hasher : String → UInt64) {conn : SpaceConnection}
    {ids : List String} (h : checkPbIds ids conn.pbSpace = "") :
    keyGroups hasher conn ids = .ok (hashKeys hasher ids conn.partitionNum) := by
  unfold keyGroups
  simp only
  rw [h, if_neg (by simp)]

/-! ### The verdict of one id -/

/-- What a response of the PS says of `key`: a document counts before a failure, and of two
entries for one id the later one. -/
def verdictOf (resp : GetResponse) (key : String) : Except String Document :=
  match resp.documents.reverse.find? (fun doc => doc.id = key),
      resp.failedDocs.reverse.find? (fun doc => doc.id = key) with
  | some doc, _ => .ok doc
  | none, some failed => .error failed.msg
  | none, none => .error "Key not found in response"

/-- What `PartitionConnetion::GetDocs` decides for `key` when it is asked for `docKeys`. -/
def PartitionConnetion.verdict (conn : PartitionConnetion) (docKeys : List String)
    (key : String) : Except String Document :=
  if conn.hasOpt = false then .error "***** two buffer partion_opt is null *****"
  else
    match conn.tryGet docKeys (List.range 3) "" with
    | .error oneMsg => .error ("GetDocs from Ps error, msg:" ++ oneMsg)
    | .ok resp => verdictOf resp key

theorem id_of_verdictOf {resp : GetResponse} {key : String} {doc : Document}
    (h : verdictOf resp key = .ok doc) : doc.id = key := by
  unfold verdictOf at h
  cases hfind : resp.documents.reverse.find? (fun doc => decide (doc.id = key)) with
  | some d =>
    simp only [hfind, Except.ok.injEq] at h
    have hid := List.find?_some hfind
    rw [← h]
    exact of_decide_eq_true hid
  | none =>
    cases hfail : resp.failedDocs.reverse.find? (fun doc => decide (doc.id = key)) with
    | some failed =>
      simp only [hfind, hfail] at h
      cases h
    | none =>
      simp only [hfind, hfail] at h
      cases h

theorem id_of_verdict {conn : PartitionConnetion} {docKeys : List String} {key : String}
    {doc : Document} (h : conn.verdict docKeys key = .ok doc) : doc.id = key := by
  unfold PartitionConnetion.verdict at h
  by_cases hopt : conn.hasOpt = false
  · rw [if_pos hopt] at h
    cases h
  · rw [if_neg hopt] at h
    cases htry : conn.tryGet docKeys (List.range 3) "" with
    | error oneMsg =>
      simp only [htry] at h
      cases h
    | ok resp =>
      simp only [htry] at h
      exact id_of_verdictOf h

/-- `add_err_msg` is the loop for one error. -/
theorem foldl_sortKey_error (msg : String) (keys : List String) :
    ∀ (err : Std.TreeMap String String) (docs : Std.TreeMap String Document),
      keys.foldl (sortKey fun _ => .error msg) (err, docs)
        = (keys.foldl (fun err key => err.insert key msg) err, docs) := by
  induction keys with
  | nil => intro err docs; rfl
  | cons key keys ih => intro err docs; exact ih _ _

/-- `PartitionConnetion::GetDocs` sorts the ids by their verdicts. -/
theorem getDocs_eq_foldl (conn : PartitionConnetion) (docKeys : List String) :
    conn.getDocs docKeys = docKeys.foldl (sortKey (conn.verdict docKeys)) (∅, ∅) := by
  unfold PartitionConnetion.getDocs
  by_cases hopt : conn.hasOpt = false
  · have hverdict : conn.verdict docKeys
        = fun _ => .error "***** two buffer partion_opt is null *****" := by
      funext key
      unfold PartitionConnetion.verdict
      rw [if_pos hopt]
    simp only [if_pos hopt]
    rw [hverdict, foldl_sortKey_error]
  · simp only [if_neg hopt]
    cases htry : conn.tryGet docKeys (List.range 3) "" with
    | error oneMsg =>
      have hverdict : conn.verdict docKeys
          = fun _ => .error ("GetDocs from Ps error, msg:" ++ oneMsg) := by
        funext key
        simp only [PartitionConnetion.verdict, if_neg hopt, htry]
      rw [hverdict, foldl_sortKey_error]
    | ok resp =>
      have hverdict : conn.verdict docKeys = verdictOf resp := by
        funext key
        simp only [PartitionConnetion.verdict, if_neg hopt, htry]
      rw [hverdict]
      refine List.foldl_ext _ _ _ fun acc key _ => ?_
      unfold sortKey verdictOf
      cases hfind : resp.documents.reverse.find? (fun doc => decide (doc.id = key)) with
      | some d => rfl
      | none =>
        cases hfail : resp.failedDocs.reverse.find? (fun doc => decide (doc.id = key)) with
        | some failed => rfl
        | none => rfl

/-! ### The verdicts of a request -/

section

variable (hasher : String → UInt64) (conn : SpaceConnection) (ids : List String)

def keysOf (p : Int) : List String :=
  ids.filter fun k => decide (partitionIdx hasher conn.partitionNum k = p)

/-- The verdict of the partition of `key`, which is asked for its ids of the request. -/
def SpaceConnection.verdict (key : String) : Except String Document :=
  let p := partitionIdx hasher conn.partitionNum key
  (conn.partitionList p).verdict (keysOf hasher conn ids p) key

theorem keysOf_of_mem {e : Int × List String}
    (he : e ∈ (hashKeys hasher ids conn.partitionNum).toList) :
    e.2 = keysOf hasher conn ids e.1 := by
  have hget := Std.TreeMap.mem_toList_iff_getElem?_eq_some.mp he
  rw [← ((getElem?_eq_some_iff_group fun _ => []).mp hget).2, hashKeys_group]
  rfl

theorem sorts_partition (p : Int) :
    Sorts (conn.verdict hasher ids) (· ∈ keysOf hasher conn ids p)
      ((conn.partitionList p).getDocs (keysOf hasher conn ids p)) := by
  rw [getDocs_eq_foldl]
  refine (sorts_foldl _ _).congr (fun _ => Iff.rfl) fun k hk => ?_
  have hp : partitionIdx hasher conn.partitionNum k = p := by
    unfold keysOf at hk
    rw [List.mem_filter, decide_eq_true_eq] at hk
    exact hk.2
  unfold SpaceConnection.verdict
  simp only [hp]

/-- Over the groups: `P` are the ids of the groups that were asked before. -/
theorem sorts_groups (grps : List (Int × List String))
    (hgrps : ∀ e ∈ grps, e.2 = keysOf hasher conn ids e.1) :
    ∀ (P : String → Prop) acc, Sorts (conn.verdict hasher ids) P acc →
      Sorts (conn.verdict hasher ids) (fun k => P k ∨ ∃ e ∈ grps, k ∈ e.2)
        (grps.foldl (fun acc e =>
          let one := (conn.partitionList e.1).getDocs e.2
          (assignAll acc.1 one.1, assignAll acc.2 one.2)) acc) := by
  induction grps with
  | nil =>
    intro P acc h
    exact h.congr (fun k => by simp) fun _ _ => rfl
  | cons e grps ih =>
    intro P acc h
    obtain ⟨he, hgrps⟩ := List.forall_mem_cons.mp hgrps
    have hone : Sorts (conn.verdict hasher ids) (· ∈ e.2)
        ((conn.partitionList e.1).getDocs e.2) := by
      rw [he]
      exact sorts_partition hasher conn ids e.1
    refine (ih hgrps _ _ (h.assign hone)).congr (fun k => ?_) fun _ _ => rfl
    rw [List.exists_mem_cons_iff, or_assoc]

/-- **The maps of `SpaceConnection::GetDocs` hold the verdict of each id.** -/
theorem sorts_getDocs :
    Sorts (conn.verdict hasher ids) (· ∈ ids)
      (conn.getDocs (hashKeys hasher ids conn.partitionNum)) := by
  have hgroup := fun e he => @keysOf_of_mem hasher conn ids e he
  refine (sorts_groups hasher conn ids _ hgroup _ _ (sorts_empty _)).congr (fun k => ?_)
    fun _ _ => rfl
  rw [false_or]
  constructor
  · rintro ⟨e, he, hk⟩
    rw [hgroup e he] at hk
    exact List.mem_of_mem_filter hk
  · intro hk
    obtain ⟨ks, hks, hmem⟩ := (key_in_hashKeys hk _).mpr rfl
    exact ⟨(_, ks), Std.TreeMap.mem_toList_iff_getElem?_eq_some.mpr hks, hmem⟩

theorem id_of_spaceVerdict {key : String} {doc : Document}
    (h : conn.verdict hasher ids key = .ok doc) : doc.id = key := id_of_verdict h

end

/-! ### `Get` -/

section

variable {hasher : String → UInt64} {conn : SpaceConnection} {req : IdsRequest}

/-- The lists of the response are the ids in the order of the request, each with its verdict,
and the code tells whether there is an error. -/
theorem get_of_checkPbIds (hids : checkPbIds req.ids conn.pbSpace = "") :
    (get hasher (some conn) "" req).documents
        = req.ids.filterMap (fun key => (conn.verdict hasher req.ids key).toOption) ∧
      (get hasher (some conn) "" req).failedDocs
        = req.ids.filterMap (fun key => (errorOf (conn.verdict hasher req.ids key)).map
            fun msg => { id := key, msg := msg }) ∧
      ((get hasher (some conn) "" req).code = 0
        ↔ ∀ key ∈ req.ids, errorOf (conn.verdict hasher req.ids key) = none) := by
  have hsorts := sorts_getDocs hasher conn req.ids
  rcases hr : conn.getDocs (hashKeys hasher req.ids conn.partitionNum) with ⟨errIds, docsRes⟩
  rw [hr] at hsorts
  have hdocs : req.ids.filterMap (fun key => if errIds.contains key then none else docsRes[key]?)
      = req.ids.filterMap (fun key => (conn.verdict hasher req.ids key).toOption) := by
    refine List.filterMap_congr fun key hkey => ?_
    rw [Std.TreeMap.contains_eq_isSome_getElem?, hsorts.getElem?_error hkey,
      hsorts.getElem?_ok hkey]
    cases conn.verdict hasher req.ids key with
    | error msg => rfl
    | ok doc => rfl
  have hsize : errIds.size = 0 ↔
      ∀ key ∈ req.ids, errorOf (conn.verdict hasher req.ids key) = none := hsorts.size_eq_zero
  simp only [get, decide_true, keyGroups_of_checkPbIds hasher hids, hr, hdocs]
  refine ⟨?_, ?_, ?_⟩
  · split
    · rfl
    · rfl
  · split
    all_goals
      refine List.filterMap_congr fun key hkey => ?_
      rw [hsorts.getElem?_error hkey, hsorts.getElem?_ok hkey]
      cases conn.verdict hasher req.ids key with
      | error msg => rfl
      | ok doc => rfl
  · rw [← hsize]
    split
    · next hpos =>
      have hcode : (103 : Int32) ≠ 0 := by decide
      exact ⟨fun h => absurd h hcode, fun h => by omega⟩
    · next hzero =>
      exact ⟨fun _ => by omega, fun _ => rfl⟩

/-- The response accounts for each of `ids` once: as a document with this id, in the order of
the request, or as a failure; and the code tells whether there is a failure. -/
structure Accounts (ids : List String) (resp : GetResponse) : Prop where
  once : (resp.documents.map Document.id ++ resp.failedDocs.map DocStatus.id).Perm ids
  nodup : (resp.documents.map Document.id ++ resp.failedDocs.map DocStatus.id).Nodup
  order : (resp.documents.map Document.id).Sublist ids
  code : resp.code = 0 ↔ resp.failedDocs = []

/-- **`Get` accounts for every id exactly once**, whatever the PS answer, and each id has an
entry in one of the two maps, so that the last branch of the loop is never taken. -/
theorem get_accounts (hasher : String → UInt64) (conn : SpaceConnection) (req : IdsRequest)
    (hids : checkPbIds req.ids conn.pbSpace = "") :
    Accounts req.ids (get hasher (some conn) "" req) ∧
      ∀ key ∈ req.ids,
        key ∈ (conn.getDocs (hashKeys hasher req.ids conn.partitionNum)).1 ∨
          key ∈ (conn.getDocs (hashKeys hasher req.ids conn.partitionNum)).2 := by
  obtain ⟨hdocs, hfailed, hcode⟩ := @get_of_checkPbIds hasher conn req hids
  have hok : (get hasher (some conn) "" req).documents.map Document.id
      = req.ids.filter fun key => (conn.verdict hasher req.ids key).isOk := by
    rw [hdocs]
    exact map_filterMap_ok (fun key doc h => id_of_spaceVerdict hasher conn req.ids h) req.ids
  have herr : (get hasher (some conn) "" req).failedDocs.map DocStatus.id
      = req.ids.filter fun key => !(conn.verdict hasher req.ids key).isOk := by
    rw [hfailed]
    exact map_filterMap_error (fun _ _ => rfl) req.ids
  have hperm : ((get hasher (some conn) "" req).documents.map Document.id
      ++ (get hasher (some conn) "" req).failedDocs.map DocStatus.id).Perm req.ids := by
    rw [hok, herr]
    exact verdicts_perm _ _
  refine ⟨⟨hperm, hperm.nodup_iff.mpr (nodup_of_checkPbIds hids), ?_, ?_⟩, fun key hkey => ?_⟩
  · rw [hok]
    exact List.filter_sublist
  · rw [hcode, hfailed, List.filterMap_eq_nil_iff]
    simp only [Option.map_eq_none_iff]
  · have hsorts := sorts_getDocs hasher conn req.ids
    rw [Std.TreeMap.mem_iff_isSome_getElem?, Std.TreeMap.mem_iff_isSome_getElem?,
      hsorts.getElem?_error hkey, hsorts.getElem?_ok hkey]
    cases conn.verdict hasher req.ids key with
    | error msg => exact Or.inl rfl
    | ok doc => exact Or.inr rfl

end

/-- Two partitions; a first call of the PS fails, and what it answers then holds an id that
was not asked for. -/
def answeringConn : SpaceConnection where
  pbSpace := twoPartitions.pbSpace
  partitionList _ :=
    { dbName := "db", spaceName := "s", hasOpt := true, serializeToString := fun _ => some []
      raftWrite := fun _ _ _ => ("", { success := some true })
      psGet := fun i _ =>
        if i = 0 then ("rpc failed", {})
        else ("", { documents := [docWithId "1", docWithId "9"]
                    failedDocs := [{ id := "2", msg := "no such document" }] }) }

theorem get_accounts_three :
    checkPbIds ["2", "1", "3"] answeringConn.pbSpace = "" ∧
      Accounts ["2", "1", "3"]
        (get libstdcxxHash (some answeringConn) "" { ids := ["2", "1", "3"] }) :=
  ⟨by decide, (get_accounts libstdcxxHash answeringConn { ids := ["2", "1", "3"] } (by decide)).1⟩

/-! ### `Upsert` -/

def PartitionConnetion.blockRequest (conn : PartitionConnetion) (key : String) : BlockRequest where
  dbName := conn.dbName
  spaceName := conn.spaceName
  implType := .upsert
  keyType := .string
  key := key

/-- The raft write of a document was acknowledged: it was serialized, `Write` returned no
error, and the response says `success`. -/
def PartitionConnetion.Acknowledged (conn : PartitionConnetion) (j : Nat) (info : PbDocInfo) :
    Prop :=
  ∃ binary resp, conn.serializeToString info.pbDoc = some binary ∧
    conn.raftWrite j (conn.blockRequest info.key) binary = ("", resp) ∧
    resp.success.getD false = true

theorem upsertDoc_eq_none_iff {conn : PartitionConnetion} {j : Nat} {info : PbDocInfo} :
    conn.upsertDoc j info = none ↔ conn.Acknowledged j info := by
  unfold PartitionConnetion.upsertDoc PartitionConnetion.Acknowledged
  cases hbin : conn.serializeToString info.pbDoc with
  | none => simp
  | some binary =>
    rcases hwrite : conn.raftWrite j (conn.blockRequest info.key) binary with ⟨oneMsg, resp⟩
    unfold PartitionConnetion.blockRequest at hwrite ⊢
    simp only [hwrite]
    constructor
    · intro h
      split_ifs at h with hfail
      obtain ⟨hmsg, hsucc⟩ := not_or.mp hfail
      refine ⟨binary, resp, rfl, ?_, Bool.not_eq_false _ ▸ hsucc⟩
      rw [hwrite, not_not.mp hmsg]
    · rintro ⟨b, r, hb, hw, hsucc⟩
      cases hb
      rw [hwrite] at hw
      cases hw
      rw [if_neg (by simp [hsucc])]

theorem mem_upsertDocs {conn : PartitionConnetion} {grp : DocsGroup} {key : String} :
    key ∈ conn.upsertDocs grp ↔ ∃ (j : Nat) (info : PbDocInfo), grp.pbDocInfos[j]? = some info ∧
      info.key = key ∧ ¬ conn.Acknowledged j info := by
  unfold PartitionConnetion.upsertDocs
  refine (Adds.foldl (S := fun (e : PbDocInfo × Nat) p =>
    e.1.key = p ∧ ¬ conn.Acknowledged e.2 e.1) ?_ _ _).trans ?_
  · intro m e p
    simp only
    cases hdoc : conn.upsertDoc e.2 e.1 with
    | none =>
      rw [upsertDoc_eq_none_iff] at hdoc
      simp [hdoc]
    | some msg =>
      have hack : ¬ conn.Acknowledged e.2 e.1 := by
        rw [← upsertDoc_eq_none_iff, hdoc]
        simp
      rw [mem_insert_iff]
      simp [hack]
  · rw [or_iff_right Std.TreeMap.not_mem_emptyc]
    constructor
    · rintro ⟨⟨info, j⟩, he, hkey, hack⟩
      exact ⟨j, info, List.mk_mem_zipIdx_iff_getElem?.mp he, hkey, hack⟩
    · rintro ⟨j, info, he, hkey, hack⟩
      exact ⟨(info, j), List.mk_mem_zipIdx_iff_getElem?.mpr he, hkey, hack⟩

/-- A document that an upsert writes, with its place: the `j`-th one that the partition `p` is
sent. -/
def Written (grps : Std.TreeMap Int DocsGroup) (p : Int) (j : Nat) (info : PbDocInfo) : Prop :=
  ∃ g, grps[p]? = some g ∧ g.pbDocInfos[j]? = some info

theorem mem_space_upsertDocs {conn : SpaceConnection} {grps : Std.TreeMap Int DocsGroup}
    {key : String} :
    key ∈ conn.upsertDocs grps ↔ ∃ p j info, Written grps p j info ∧ info.key = key ∧
      ¬ (conn.partitionList p).Acknowledged j info := by
  unfold SpaceConnection.upsertDocs
  refine (Adds.foldl (S := fun (e : Int × DocsGroup) p =>
    p ∈ (conn.partitionList e.1).upsertDocs e.2) (fun m e p => mem_assign) _ _).trans ?_
  simp only [mem_upsertDocs]
  rw [or_iff_right Std.TreeMap.not_mem_emptyc]
  constructor
  · rintro ⟨e, he, j, info, hinfo, hkey, hack⟩
    exact ⟨e.1, j, info, ⟨e.2, Std.TreeMap.mem_toList_iff_getElem?_eq_some.mp he, hinfo⟩, hkey,
      hack⟩
  · rintro ⟨p, j, info, ⟨g, hg, hinfo⟩, hkey, hack⟩
    exact ⟨(p, g), Std.TreeMap.mem_toList_iff_getElem?_eq_some.mpr hg, j, info, hinfo, hkey, hack⟩

theorem mem_failedOf {keys : List String} {err : Std.TreeMap String String} {id : String} :
    id ∈ (failedOf keys err).map DocStatus.id ↔ id ∈ keys ∧ id ∈ err := by
  unfold failedOf
  simp only [List.mem_map, List.mem_filterMap, Option.map_eq_some_iff,
    Std.TreeMap.mem_iff_isSome_getElem?, Option.isSome_iff_exists]
  constructor
  · rintro ⟨status, ⟨key, hkey, msg, hmsg, rfl⟩, rfl⟩
    exact ⟨hkey, msg, hmsg⟩
  · rintro ⟨hkey, msg, hmsg⟩
    exact ⟨_, ⟨id, hkey, msg, hmsg, rfl⟩, rfl⟩

/-- What is written, is a document of the request, under the empty text. -/
theorem written_upsertGroups {hasher : String → UInt64} {conn : SpaceConnection}
    {docs : List Document} {p : Int} {j : Nat} {info : PbDocInfo}
    (h : Written (upsertGroups hasher conn docs) p j info) :
    info.key = "" ∧ info.pbDoc ∈ docs := by
  obtain ⟨g, hg, hinfo⟩ := h
  obtain ⟨-, rfl⟩ := (getElem?_eq_some_iff_group newDocsGroup).mp hg
  have hmem := List.mem_of_getElem? hinfo
  unfold upsertGroups at hmem
  rw [hashDocs_group, zipWith_upsertDocKeys, List.mem_filter, List.mem_map] at hmem
  obtain ⟨⟨doc, hdoc, rfl⟩, -⟩ := hmem
  exact ⟨rfl, hdoc⟩

/-- The response names the documents whose write was not acknowledged and no others, and its
code tells whether there is one. -/
structure UpsertReports (hasher : String → UInt64) (conn : SpaceConnection)
    (docs : List Document) (resp : UpsertResponse) : Prop where
  failed : ∀ p j info, Written (upsertGroups hasher conn docs) p j info →
    (info.pbDoc.id ∈ resp.failedDocs.map DocStatus.id
      ↔ ¬ (conn.partitionList p).Acknowledged j info)
  code : resp.code = 0 ↔ resp.failedDocs = []

section

variable {hasher : String → UInt64} {conn : SpaceConnection} {req : UpsertRequest}

theorem upsert_of_checkPbDoc (hdocs : ∀ doc ∈ req.documents, checkPbDocIn doc conn.pbSpace = "") :
    (upsert hasher (some conn) "" req).failedDocs
        = failedOf (upsertDocKeys req.documents)
            (conn.upsertDocs (upsertGroups hasher conn req.documents)) ∧
      ((upsert hasher (some conn) "" req).code = 0 ↔ req.documents = []) := by
  have hfind : (req.documents.map (checkPbDocIn · conn.pbSpace)).find?
      (fun m => decide (m ≠ "")) = none := by
    rw [List.find?_eq_none]
    intro m hm
    obtain ⟨doc, hdoc, rfl⟩ := List.mem_map.mp hm
    simp [hdocs doc hdoc]
  have hlen : (upsertDocKeys req.documents).length > 0 ↔ req.documents ≠ [] := by
    unfold upsertDocKeys
    rw [List.length_replicate]
    exact List.length_pos_iff
  simp only [upsert, decide_true, hfind, hlen]
  by_cases hnil : req.documents = []
  · rw [if_neg (not_not.mpr hnil)]
    exact ⟨rfl, fun _ => hnil, fun _ => rfl⟩
  · rw [if_pos hnil]
    have hcode : (103 : Int32) ≠ 0 := by decide
    exact ⟨rfl, fun h => absurd h hcode, fun h => absurd h hnil⟩

end

/-- The failed documents of an upsert: there are none exactly when every write was
acknowledged, and each has the empty id. -/
theorem failedDocs_upsert {hasher : String → UInt64} {conn : SpaceConnection}
    {docs : List Document} {resp : UpsertResponse}
    (hresp : resp.failedDocs = failedOf (upsertDocKeys docs)
      (conn.upsertDocs (upsertGroups hasher conn docs))) :
    (resp.failedDocs = [] ↔ ∀ p j info, Written (upsertGroups hasher conn docs) p j info →
        (conn.partitionList p).Acknowledged j info) ∧
      ∀ id ∈ resp.failedDocs.map DocStatus.id, id = "" := by
  have hmem : ∀ id, id ∈ resp.failedDocs.map DocStatus.id ↔ id ∈ upsertDocKeys docs ∧
      id ∈ conn.upsertDocs (upsertGroups hasher conn docs) := by
    intro id
    rw [hresp]
    exact mem_failedOf
  have hkeys : ∀ id ∈ upsertDocKeys docs, id = "" := fun id h => List.eq_of_mem_replicate h
  refine ⟨?_, fun id hid => hkeys id ((hmem id).mp hid).1⟩
  rw [← List.map_eq_nil_iff (f := DocStatus.id), List.eq_nil_iff_forall_not_mem]
  constructor
  · intro hnone p j info hw
    obtain ⟨hkey, hdoc⟩ := written_upsertGroups hw
    by_contra hack
    refine hnone "" ((hmem "").mpr ⟨?_, mem_space_upsertDocs.mpr ⟨p, j, info, hw, hkey, hack⟩⟩)
    unfold upsertDocKeys
    exact List.mem_replicate.mpr ⟨Nat.ne_of_gt (List.length_pos_of_mem hdoc), rfl⟩
  · intro hall id hid
    obtain ⟨p, j, info, hw, -, hack⟩ := mem_space_upsertDocs.mp ((hmem id).mp hid).2
    exact hack (hall p j info hw)

/-- **When an upsert reports what failed**: only when there is nothing to write.  What is
true of every request is that `failed_docs` is empty exactly when all writes were
acknowledged; but its entries carry no id. -/
theorem upsert_reports_iff (hasher : String → UInt64) (conn : SpaceConnection)
    (req : UpsertRequest) (hdocs : ∀ doc ∈ req.documents, checkPbDocIn doc conn.pbSpace = "") :
    (UpsertReports hasher conn req.documents (upsert hasher (some conn) "" req)
        ↔ req.documents = []) ∧
      ((upsert hasher (some conn) "" req).failedDocs = []
        ↔ ∀ p j info, Written (upsertGroups hasher conn req.documents) p j info →
            (conn.partitionList p).Acknowledged j info) ∧
      ∀ id ∈ (upsert hasher (some conn) "" req).failedDocs.map DocStatus.id, id = "" := by
  obtain ⟨hfailed, hcode⟩ := @upsert_of_checkPbDoc hasher conn req hdocs
  obtain ⟨hnone, hempty⟩ := failedDocs_upsert hfailed
  refine ⟨⟨fun h => ?_, fun hnil => ⟨?_, ?_⟩⟩, hnone, hempty⟩
  · by_contra hnil
    -- the code is not `0`, so some write failed; its document has an id, and no entry has one
    have hsome : ¬ ∀ p j info, Written (upsertGroups hasher conn req.documents) p j info →
        (conn.partitionList p).Acknowledged j info := by
      rw [← hnone, ← h.code, hcode]
      exact hnil
    push Not at hsome
    obtain ⟨p, j, info, hw, hack⟩ := hsome
    have hid := hempty _ ((h.failed p j info hw).mpr hack)
    have hdoc := hdocs info.pbDoc (written_upsertGroups hw).2
    unfold checkPbDocIn at hdoc
    rw [if_pos hid] at hdoc
    exact absurd hdoc (by decide)
  · intro p j info hw
    have hdoc := (written_upsertGroups hw).2
    rw [hnil] at hdoc
    cases hdoc
  · rw [hcode, hnone]
    refine ⟨fun _ p j info hw => ?_, fun _ => hnil⟩
    have hdoc := (written_upsertGroups hw).2
    rw [hnil] at hdoc
    cases hdoc

theorem upsert_reports_one :
    (∀ doc ∈ [docWithId "1"], checkPbDocIn doc twoPartitions.pbSpace = "") ∧
      ¬ UpsertReports libstdcxxHash twoPartitions [docWithId "1"]
        (upsert libstdcxxHash (some twoPartitions) "" { documents := [docWithId "1"] }) ∧
      UpsertReports libstdcxxHash twoPartitions []
        (upsert libstdcxxHash (some twoPartitions) "" { documents := [] }) :=
  ⟨by decide, fun h => absurd ((upsert_reports_iff libstdcxxHash twoPartitions
      { documents := [docWithId "1"] } (by decide)).1.mp h) (by simp),
    (upsert_reports_iff libstdcxxHash twoPartitions { documents := [] } (by simp)).1.mpr rfl⟩

/-- The write of the document `1` is acknowledged, no document is reported as failed, and the
code is `103`. -/
theorem upsert_acknowledged_103 :
    (∀ doc ∈ [docWithId "1"], checkPbDocIn doc twoPartitions.pbSpace = "") ∧
      (upsert libstdcxxHash (some twoPartitions) "" { documents := [docWithId "1"] }).code = 103 ∧
      ¬ UpsertReports libstdcxxHash twoPartitions [docWithId "1"]
        (upsert libstdcxxHash (some twoPartitions) "" { documents := [docWithId "1"] }) := by
  have hcode : (upsert libstdcxxHash (some twoPartitions) ""
      { documents := [docWithId "1"] }).code = 103 := by decide
  have hfailed : (upsert libstdcxxHash (some twoPartitions) ""
      { documents := [docWithId "1"] }).failedDocs = [] := by decide
  refine ⟨by decide, hcode, fun h => ?_⟩
  have hzero := h.code.mpr hfailed
  rw [hcode] at hzero
  exact absurd hzero (by decide)

end SimSearch.Router
