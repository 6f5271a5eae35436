import SimSearch.Master.Register
import SimSearch.Router.Lookup
import SimSearch.Router.Startup
import SimSearch.Lib.Separators

/-!
# Keys that master, router and PS share

`GenSpaceKey`, `GetPsRegisterKV` and `GenRouterNodeKey` of `common/common.cc` on one side,
`NameValidate` and the encoders and decoders of `master/common/common.go` on the other.

* A name may have the dash that `GenSpaceKey` joins with.  `genSpaceKey_injOn_iff` says
  which names then have one key: those where the dash between the two names is at another
  place.
* The connections of a router are those of the spaces it was given (`given_of_found`), so
  names that are kept apart by their keys are kept apart by the router.
* The key of a node has its parts between colons (`splitColon_address`), which no number has
  and no IP, so it parses to what it was made of.
-/

namespace SimSearch.Cluster

open SimSearch.Lib SimSearch.Master SimSearch.Router

/-! ### Keys of spaces -/

theorem genSpaceKey_eq_iff {db sp db' sp' : String} :
    genSpaceKey db sp = genSpaceKey db' sp' ↔
      (db = db' ∧ sp = sp') ∨ (∃ mid, db' = db ++ "-" ++ mid ∧ sp = mid ++ "-" ++ sp') ∨
        ∃ mid, db = db' ++ "-" ++ mid ∧ sp' = mid ++ "-" ++ sp :=
  join_eq_iff (c := '-') rfl

/-- No two of the names are one text with the dash at different places. -/
def DashesApart (S : Set (String × String)) : Prop :=
  ∀ db mid sp, (db, mid ++ "-" ++ sp) ∈ S → (db ++ "-" ++ mid, sp) ∉ S

theorem append_dash_ne (db mid : String) : db ++ "-" ++ mid ≠ db := by
  intro h
  have hlen := congrArg String.length h
  rw [String.length_append, String.length_append] at hlen
  have hdash : "-".length = 1 := rfl
  omega

theorem genSpaceKey_injOn_iff (S : Set (String × String)) :
    Set.InjOn (fun p : String × String => genSpaceKey p.1 p.2) S ↔ DashesApart S := by
  constructor
  · intro h db mid sp hmem hmem'
    have hkeys : genSpaceKey db (mid ++ "-" ++ sp) = genSpaceKey (db ++ "-" ++ mid) sp :=
      genSpaceKey_eq_iff.mpr (Or.inr (Or.inl ⟨mid, rfl, rfl⟩))
    have heq := h hmem hmem' hkeys
    exact append_dash_ne db mid (congrArg Prod.fst heq).symm
  · rintro h ⟨db, sp⟩ hp ⟨db', sp'⟩ hp' hkeys
    rcases genSpaceKey_eq_iff.mp hkeys with ⟨hdb, hsp⟩ | ⟨mid, hdb, hsp⟩ | ⟨mid, hdb, hsp⟩
    · exact Prod.ext hdb hsp
    · simp only at hdb hsp
      subst hdb hsp
      exact absurd hp' (h _ _ _ hp)
    · simp only at hdb hsp
      subst hdb hsp
      exact absurd hp (h _ _ _ hp')

/-! ### The connections of a router -/

/-- A lookup by two names, in a router that was given only spaces of `S`. -/
def KeptApart (S : Set (String × String)) : Prop :=
  ∀ (env : Router.Env) (maxSpaceNum : Nat) (w : Startup) (s : Router.State),
    maxSpaceNum < 2 ^ 15 → w.spaces.length ≤ 32767 →
    (∀ space ∈ w.spaces, Router.Space.names space ∈ S) →
    Reach (Router.step env) (AddsOnly fun space => Router.Space.names space ∈ S)
      (init env maxSpaceNum w).2 s →
    ∀ db sp conn, (db, sp) ∈ S → getSpaceConn env s.manager (genSpaceKey db sp) = .found conn →
      Router.Space.names conn.pbSpace = (db, sp)

/-- **When the keys of spaces are distinct**: exactly when no two of the names are one text
with the dash at different places.  Then a router that was given such spaces, in any run,
finds under two names no space of other names. -/
theorem space_keys_distinct_iff (S : Set (String × String)) :
    (Set.InjOn (fun p : String × String => genSpaceKey p.1 p.2) S ↔ DashesApart S) ∧
      (DashesApart S → KeptApart S) := by
  refine ⟨genSpaceKey_injOn_iff S, ?_⟩
  intro hapart env maxSpaceNum w s hmax hlen hw h db sp conn hmem hfound
  have hin := given_of_found hw h hfound
  have hkey : conn.spaceKey = genSpaceKey db sp := by
    have hsound := (lookup_sound env maxSpaceNum hmax w hlen s (h.mono fun _ _ _ => trivial)).1
      (genSpaceKey db sp)
    rcases hsound with ⟨msg, hnull⟩ | ⟨conn', hconn', hkey⟩
    · rw [hfound] at hnull
      cases hnull
    · rw [hfound, Lookup.found.injEq] at hconn'
      rw [hconn']
      exact hkey
  exact (genSpaceKey_injOn_iff S).mpr hapart hin hmem hkey

/-- Database names without a dash. -/
theorem space_keys_distinct_noDash :
    Set.InjOn (fun p : String × String => genSpaceKey p.1 p.2)
      { p | nameValidate p.1 = "" ∧ nameValidate p.2 = "" ∧ '-' ∉ p.1.toList } := by
  refine (space_keys_distinct_iff _).1.mpr ?_
  rintro db mid sp - ⟨-, -, hdash⟩
  refine hdash ?_
  show '-' ∈ (db ++ "-" ++ mid).toList
  rw [toList_join (c := '-') rfl]
  exact List.mem_append_right _ List.mem_cons_self

def dashedSpace : Space := { dbName := "dbname", spaceName := "images-large0" }
def dashedDb : Space := { dbName := "dbname-images", spaceName := "large0" }

def dashedRouter : Router.State :=
  Router.step libEnv (init libEnv 1000 noSpaces).2 (.addSpace dashedSpace)

/-- The master accepts both spaces, and the router refuses the second one and finds the first
one under its names. -/
theorem dashes_merge_spaces :
    (∀ space ∈ [dashedSpace, dashedDb],
      nameValidate space.dbName = "" ∧ nameValidate space.spaceName = "") ∧
      Router.Space.names dashedSpace ≠ Router.Space.names dashedDb ∧
      genSpaceKey dashedSpace.dbName dashedSpace.spaceName
        = genSpaceKey dashedDb.dbName dashedDb.spaceName ∧
      (addSpace libEnv dashedRouter dashedDb).1
        = "space_key:dbname-images-large0 is already exist, not add." ∧
      ∃ conn, getSpaceConn libEnv dashedRouter.manager
          (genSpaceKey dashedDb.dbName dashedDb.spaceName) = .found conn ∧
        Router.Space.names conn.pbSpace = Router.Space.names dashedSpace := by
  refine ⟨by decide +kernel, by decide, by decide, by decide +kernel, ?_⟩
  exact ⟨connOf libEnv dashedSpace, by rfl, rfl⟩

/-! ### Keys of nodes -/

/-- `_ps_register_prefix` and `_router_register_prefix` of `config/conf.cc`. -/
def psRegisterPrefix : String := "/nodes/ps/"
def routerRegisterPrefix : String := "/nodes/router/"

def getPsRegisterKV (ip : String) (port psId : Int32) : String × String :=
  (psRegisterPrefix ++ ":" ++ ip ++ ":" ++ toString port.toInt ++ ":" ++ toString psId.toInt,
    toString port.toInt)

def genRouterNodeKey (nodeIp : String) (port : Int32) : String :=
  routerRegisterPrefix ++ ":" ++ nodeIp ++ ":" ++ toString port.toInt

theorem goInt_toInt32 (n : Int32) : GoInt n.toInt := by
  have hlow := n.le_toInt
  have hhigh := n.toInt_lt
  exact ⟨by omega, by omega⟩

theorem getPsRegisterKV_key (ip : String) (port psId : Int32) :
    (getPsRegisterKV ip port psId).1 = getPsRegisterKey ip port.toInt psId.toInt := by
  have hpre : psRegisterPrefix = psNodesPrefix ++ "/" := rfl
  simp only [getPsRegisterKV, getPsRegisterKey, getPsNodeName, hpre, String.append_assoc]

theorem getRouterNodeEtcdKey_genRouterNodeKey {ip : String} (hip : ':' ∉ ip.toList) (port : Int32) :
    getRouterNodeEtcdKey (genRouterNodeKey ip port) = some (ip, port.toInt) := by
  have hassoc : genRouterNodeKey ip port
      = routerRegisterPrefix ++ ":" ++ (ip ++ ":" ++ toString port.toInt) := by
    simp only [genRouterNodeKey, String.append_assoc]
  unfold getRouterNodeEtcdKey
  rw [hassoc, splitColon_append (by decide), splitColon_append hip, splitColon_toString]
  simp only [atoi_toString (goInt_toInt32 port)]

/-- The prefix of an address is one of the keys of this address only: a key of port `8080`
does not start with the prefix of port `80`. -/
theorem startsWith_address_iff {ip ip' : String} (hip : ':' ∉ ip.toList) (hip' : ':' ∉ ip'.toList)
    (port port' id' : Int) :
    startsWith (addressPrefix psNodesPrefix ip port) (getPsRegisterKey ip' port' id') = true ↔
      ip = ip' ∧ port = port' := by
  constructor
  · intro h
    obtain ⟨rest, hrest⟩ := exists_of_startsWith h
    have hsplit := congrArg splitColon hrest
    have hkey : getPsRegisterKey ip' port' id'
        = addressPrefix psNodesPrefix ip' port' ++ toString id' := rfl
    rw [hkey, splitColon_address (by decide) hip', splitColon_address (by decide) hip] at hsplit
    simp only [List.cons.injEq, true_and] at hsplit
    exact ⟨hsplit.1.symm, toString_inj hsplit.2.1.symm⟩
  · rintro ⟨rfl, rfl⟩
    exact startsWith_register ip port id'

/-- **The keys of nodes decode to what was encoded**, in both languages: for an IP without a
colon and all ports and ids of Go's `int` and C++'s `int`, the decoders invert the encoders, the
two encoders agree, and the prefix that `register` scans is a prefix of the keys of its own
address only. -/
theorem node_keys_decode (ip : String) (hip : ':' ∉ ip.toList) :
    (∀ port id : Int64,
      parsePsRegisterKey (getPsRegisterKey ip port.toInt id.toInt)
        = some (ip, port.toInt, id.toInt) ∧
      parsePsRegisterKey (getErrPsNodeEtcdKey ip port.toInt id.toInt)
        = some (ip, port.toInt, id.toInt)) ∧
    (∀ port id : Int32,
      (getPsRegisterKV ip port id).1 = getPsRegisterKey ip port.toInt id.toInt) ∧
    (∀ port : Int32, getRouterNodeEtcdKey (genRouterNodeKey ip port) = some (ip, port.toInt)) ∧
    ∀ ip' : String, ':' ∉ ip'.toList → ∀ port port' id' : Int,
      (startsWith (addressPrefix psNodesPrefix ip port) (getPsRegisterKey ip' port' id') = true ↔
        ip = ip' ∧ port = port') := by
  refine ⟨fun port id => ⟨?_, ?_⟩, getPsRegisterKV_key ip,
    getRouterNodeEtcdKey_genRouterNodeKey hip, fun ip' hip' => startsWith_address_iff hip hip'⟩
  · exact parse_register hip (goInt_toInt64 port) (goInt_toInt64 id)
  · exact parse_addressKey (by decide) hip (goInt_toInt64 port) (goInt_toInt64 id)

theorem node_keys_decode_local :
    parsePsRegisterKey (getPsRegisterKey "10.0.0.1" 80 11) = some ("10.0.0.1", 80, 11) ∧
      startsWith (addressPrefix psNodesPrefix "10.0.0.1" 80) (getPsRegisterKey "10.0.0.1" 8080 1)
        ≠ true := by
  obtain ⟨hparse, -, -, hscan⟩ := node_keys_decode "10.0.0.1" (by decide)
  refine ⟨(hparse 80 11).1, fun h => ?_⟩
  exact absurd ((hscan "10.0.0.1" (by decide) 80 8080 1).mp h).2 (by decide)

end SimSearch.Cluster
