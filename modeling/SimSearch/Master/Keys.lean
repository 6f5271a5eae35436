import SimSearch.Master.Footprint
import SimSearch.Lib.Separators

/-!
# The keys that the master writes

The encoders of `master/common/common.go` and the key of a space in `NameToSpace`.  A name
that `NameValidate` accepts has no `/` and no `:`, so the parts of a key can be told apart from
the left (`Lib.join_inj`), and the number at the end is what is left.  The prefixes of the
other keys differ from `SpacesMataPrefix` before it ends, so a scan of it finds only spaces.
-/

namespace SimSearch.Master

open SimSearch.Lib

/-! ### Names -/

abbrev Name := { s : String // nameValidate s = "" }

theorem Name.not_mem (n : Name) {c : Char} (hc : isNameChar c = false) : c ∉ n.1.toList := by
  intro hmem
  rw [isNameChar_of_nameValidate n.2 c hmem] at hc
  cases hc

theorem Name.cut {sep : String} {c : Char} (hsep : sep.toList = [c]) (hc : isNameChar c = false)
    {n n' : Name} {r r' : String} (h : n.1 ++ sep ++ r = n'.1 ++ sep ++ r') : n = n' ∧ r = r' := by
  obtain ⟨hn, hr⟩ := join_inj hsep (n.not_mem hc) (n'.not_mem hc) h
  exact ⟨Subtype.ext hn, hr⟩

theorem append_cancel_left {pre a b : String} (h : pre ++ a = pre ++ b) : a = b := by
  have hlists := congrArg String.toList h
  rw [String.toList_append, String.toList_append] at hlists
  exact String.toList_inj.mp (List.append_cancel_left hlists)

/-! ### Keys of spaces -/

/-- The part of a key below its prefix, for a database name and what follows it. -/
theorem below_cut {pre : String} {db db' : Name} {r r' : String}
    (h : pre ++ "/" ++ db.1 ++ "/" ++ r = pre ++ "/" ++ db'.1 ++ "/" ++ r') :
    db = db' ∧ r = r' := by
  have hassoc : ∀ (x : Name) (y : String),
      pre ++ "/" ++ x.1 ++ "/" ++ y = (pre ++ "/") ++ (x.1 ++ "/" ++ y) := by
    intro x y
    simp only [String.append_assoc]
  rw [hassoc, hassoc] at h
  exact Name.cut rfl rfl (append_cancel_left h)

theorem below_id_cut {pre : String} {db db' sp sp' : Name} {id id' : Int}
    (h : pre ++ "/" ++ db.1 ++ "/" ++ sp.1 ++ "/" ++ toString id
      = pre ++ "/" ++ db'.1 ++ "/" ++ sp'.1 ++ "/" ++ toString id') :
    db = db' ∧ sp = sp' ∧ id = id' := by
  have hassoc : ∀ (x y : Name) (n : Int),
      pre ++ "/" ++ x.1 ++ "/" ++ y.1 ++ "/" ++ toString n
        = pre ++ "/" ++ x.1 ++ "/" ++ (y.1 ++ "/" ++ toString n) := by
    intro x y n
    simp only [String.append_assoc]
  rw [hassoc, hassoc] at h
  obtain ⟨hdb, hrest⟩ := below_cut h
  obtain ⟨hsp, hid⟩ := Name.cut rfl rfl hrest
  exact ⟨hdb, hsp, toString_inj hid⟩

theorem groupName_cut {db db' sp sp' : Name} {id id' : Int}
    (h : getPartitionGroupName db sp id = getPartitionGroupName db' sp' id') :
    db = db' ∧ sp = sp' ∧ id = id' := by
  have hassoc : ∀ (x y : Name) (n : Int),
      getPartitionGroupName x y n = x.1 ++ ":" ++ (y.1 ++ ":" ++ toString n) := by
    intro x y n
    simp only [getPartitionGroupName, String.append_assoc]
  rw [hassoc, hassoc] at h
  obtain ⟨hdb, hrest⟩ := Name.cut rfl rfl h
  obtain ⟨hsp, hid⟩ := Name.cut rfl rfl hrest
  exact ⟨hdb, hsp, toString_inj hid⟩

/-! ### Keys of other things -/

/-- The keys of the other encoders: deleted spaces, spaces and nodes with an error, PS nodes
and routers, the lock, below whose key the mutex of etcd puts one for each session, and the
flag that stops DDL. -/
def otherKeys (db sp ip rest : String) (port id : Int) : List String :=
  [getDeletedSpaceEtcdKey db sp id, getErrSpaceEtcdKey db sp id, getPsRegisterKey ip port id,
    routerNodesPrefix ++ rest, getErrPsNodeEtcdKey ip port id, ddlLockKey ++ rest, ddlDisabledKey]

/-- No key of another encoder starts like that of a space. -/
theorem not_startsWith_otherKeys (db sp ip rest : String) (port id : Int) :
    ∀ key ∈ otherKeys db sp ip rest port id, startsWith spacesMataPrefix key = false := by
  intro key hkey
  simp only [otherKeys, List.mem_cons, List.not_mem_nil, or_false, getDeletedSpaceEtcdKey,
    getErrSpaceEtcdKey, getPsRegisterKey, getErrPsNodeEtcdKey, String.append_assoc] at hkey
  rcases hkey with rfl | rfl | rfl | rfl | rfl | rfl | rfl
  · exact startsWith_append_eq_false fun l => rfl
  · exact startsWith_append_eq_false fun l => rfl
  · exact startsWith_append_eq_false fun l => rfl
  · exact startsWith_append_eq_false fun l => rfl
  · exact startsWith_append_eq_false fun l => rfl
  · exact startsWith_append_eq_false fun l => rfl
  · rfl

/-- **The keys of the master are unambiguous**: each encoder of a space is injective on the
names that the master accepts and all numbers, and a scan of `SpacesMataPrefix` matches no key
of another encoder. -/
theorem master_keys_unambiguous :
    Function.Injective (fun p : Name × Name => getSpaceEtcdKey p.1 p.2) ∧
      Function.Injective (fun p : Name × Name × Int => getDeletedSpaceEtcdKey p.1 p.2.1 p.2.2) ∧
      Function.Injective (fun p : Name × Name × Int => getErrSpaceEtcdKey p.1 p.2.1 p.2.2) ∧
      Function.Injective (fun p : Name × Name × Int => getPartitionGroupName p.1 p.2.1 p.2.2) ∧
      Function.Injective (fun p : Name × Name =>
        ({ dbName := p.1, spaceName := p.2 } : InnerSpace).fullName) ∧
      ∀ (db sp ip rest : String) (port id : Int), ∀ key ∈ otherKeys db sp ip rest port id,
        startsWith spacesMataPrefix key = false := by
  refine ⟨?_, ?_, ?_, ?_, ?_, not_startsWith_otherKeys⟩
  · intro p p' h
    obtain ⟨hdb, hsp⟩ := below_cut h
    exact Prod.ext hdb (Subtype.ext hsp)
  · intro p p' h
    obtain ⟨hdb, hsp, hid⟩ := below_id_cut h
    exact Prod.ext hdb (Prod.ext hsp hid)
  · intro p p' h
    obtain ⟨hdb, hsp, hid⟩ := below_id_cut h
    exact Prod.ext hdb (Prod.ext hsp hid)
  · intro p p' h
    obtain ⟨hdb, hsp, hid⟩ := groupName_cut h
    exact Prod.ext hdb (Prod.ext hsp hid)
  · intro p p' h
    obtain ⟨hdb, hsp⟩ := Name.cut rfl rfl h
    exact Prod.ext hdb (Subtype.ext hsp)

end SimSearch.Master
