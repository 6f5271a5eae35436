import SimSearch.Master.Etcd
import SimSearch.Lib.Stm

/-!
# Ids from etcd

`NewIDGenerate` and `STM` of `master/etcdcluster/etcd_client.go`.  The id leaves the
transaction through the variable `nextID`, which every run of the function writes, and the
function has a branch for a key that is not set.

The calls are transactions on the cell of the key (`Lib.Stm`).  `serial_ids` says what a run
of the function alone gives: ids that follow each other without a gap, the last one stored.
With the serial order of the commits (`Stm.Inv`) these are the ids of any interleaving.

`newIDGenerate_refines` connects this to the machine of `SimSearch.Master.Etcd`, where the
whole transaction is one operation.
-/

namespace SimSearch.Master

open SimSearch.Lib Stm

/-! ### The transaction -/

/-- The parameter and the variable of a call of `NewIDGenerate`. -/
structure IdVars where
  base : Int64
  nextID : Int := 0
  deriving DecidableEq, Repr

/-- The sum `intv + 1` of two `int64` values. -/
def succ64 (n : Int) : Int := if n = 2 ^ 63 - 1 then -2 ^ 63 else n + 1

/-- The function that `NewIDGenerate` hands to `STM`; a key that is not set reads as the empty
text. -/
def idBody (vars : IdVars) (val : Option String) : IdVars × Except String (Option String) :=
  let v := val.getD ""
  if v = "" then ({ vars with nextID := vars.base.toInt }, .ok (some (toString vars.base.toInt)))
  else
    match parseInt64 v with
    | none => (vars, .error ("increment id error in storage :" ++ v))
    | some intv =>
      ({ vars with nextID := succ64 intv }, .ok (some (toString (succ64 intv))))

/-- `NewIDGenerate`: `nextID` is returned when `STM` has no error. -/
def newIDGenerate : Txn IdVars (Option String) String Int where
  body := idBody
  result vars := vars.nextID

abbrev IdState := State IdVars (Option String) String Int

abbrev IdEvent := Event IdVars String

def idStep : IdState → IdEvent → IdState := step newIDGenerate

def Below (val : Option String) : Prop := ∀ n, parseInt64 (val.getD "") = some n → n < 2 ^ 63 - 1

def CounterBelow (s : IdState) (_ : IdEvent) : Prop := Below s.val

def commitIds (cs : List (Commit IdVars (Option String))) : List Int :=
  cs.map fun c => c.vars.nextID

def idsFrom (first : Int) (n : Nat) : List Int := (List.range n).map fun k : Nat => first + k

/-! ### One run of the function -/

theorem toString_ne_empty (n : Int) : toString n ≠ "" := by
  intro h
  have hnone : decimal (toString n) = none := by
    rw [h]
    rfl
  rw [decimal_toString] at hnone
  cases hnone

theorem parseInt64_goInt {v : String} {n : Int} (h : parseInt64 v = some n) : GoInt n := by
  rw [parseInt64, Option.filter_eq_some_iff] at h
  exact of_decide_eq_true h.2

/-- What the function does when it has no error: it takes the base for a key without a value,
and the next number otherwise, and puts what it takes. -/
theorem idBody_ok {vars vars' : IdVars} {val new : Option String}
    (h : idBody vars val = (vars', .ok new)) :
    vars'.base = vars.base ∧ new = some (toString vars'.nextID) ∧
      ((val.getD "" = "" ∧ vars'.nextID = vars.base.toInt) ∨
        ∃ n, parseInt64 (val.getD "") = some n ∧ vars'.nextID = succ64 n) := by
  unfold idBody at h
  simp only at h
  by_cases hv : val.getD "" = ""
  · rw [if_pos hv, Prod.mk.injEq, Except.ok.injEq] at h
    obtain ⟨rfl, rfl⟩ := h
    exact ⟨rfl, rfl, Or.inl ⟨hv, rfl⟩⟩
  · rw [if_neg hv] at h
    cases hp : parseInt64 (val.getD "") with
    | none =>
      simp only [hp] at h
      cases (Prod.mk.inj h).2
    | some n =>
      simp only [hp, Prod.mk.injEq, Except.ok.injEq] at h
      obtain ⟨rfl, rfl⟩ := h
      exact ⟨rfl, rfl, Or.inr ⟨n, rfl, rfl⟩⟩

theorem nextID_of_stored {vars vars' : IdVars} {id : Int} {new : Option String} (hid : GoInt id)
    (hbelow : Below (some (toString id)))
    (h : idBody vars (some (toString id)) = (vars', .ok new)) : vars'.nextID = id + 1 := by
  obtain ⟨-, -, hcase⟩ := idBody_ok h
  rcases hcase with ⟨hempty, -⟩ | ⟨n, hn, hnext⟩
  · exact absurd hempty (toString_ne_empty id)
  · rw [Option.getD_some, parseInt64_toString hid, Option.some.injEq] at hn
    subst hn
    have hlt := hbelow id (parseInt64_toString hid)
    rw [hnext, succ64, if_neg (by omega)]

/-! ### The ids of a serial run -/

theorem idsFrom_succ (first : Int) (n : Nat) :
    idsFrom first (n + 1) = idsFrom first n ++ [first + (n : Int)] := by
  rw [idsFrom, List.range_succ, List.map_append]
  rfl

theorem pairwise_idsFrom (first : Int) (n : Nat) : (idsFrom first n).Pairwise (· < ·) := by
  rw [idsFrom, List.pairwise_map]
  exact List.pairwise_lt_range.imp fun h => by omega

/-- The first id: the base for a key without a value, and else the number after the stored
one. -/
def FirstId (start : Option String) (base : Int64) (id : Int) : Prop :=
  (start.getD "" = "" ∧ id = base.toInt) ∨ ∃ n, parseInt64 (start.getD "") = some n ∧ id = n + 1

theorem firstId_of_body {vars vars' : IdVars} {val new : Option String} (hbelow : Below val)
    (h : idBody vars val = (vars', .ok new)) :
    FirstId val vars'.base vars'.nextID ∧ GoInt vars'.nextID := by
  obtain ⟨hbase, -, hcase⟩ := idBody_ok h
  rcases hcase with ⟨hempty, hid⟩ | ⟨n, hn, hid⟩
  · rw [hid, hbase]
    exact ⟨Or.inl ⟨hempty, rfl⟩, goInt_toInt64 _⟩
  · have hlt := hbelow n hn
    obtain ⟨hlow, hhigh⟩ := parseInt64_goInt hn
    have hnext : vars'.nextID = n + 1 := by rw [hid, succ64, if_neg (by omega)]
    rw [hnext]
    exact ⟨Or.inr ⟨n, hn, rfl⟩, by omega, by omega⟩

/-- **The ids of a serial run follow each other**, from the first one on, and the last one is
stored. -/
theorem serial_ids {start val : Option String} {cs : List (Commit IdVars (Option String))}
    (h : Serial newIDGenerate start cs val) (hbelow : ∀ c ∈ cs, Below c.old) :
    (cs = [] ∧ val = start) ∨
      ∃ first, (∃ c, cs.head? = some c ∧ FirstId start c.vars.base first) ∧
        commitIds cs = idsFrom first cs.length ∧
        GoInt (first + ((cs.length : Int) - 1)) ∧
        val = some (toString (first + ((cs.length : Int) - 1))) := by
  induction h with
  | nil => exact Or.inl ⟨rfl, rfl⟩
  | @snoc cs v new t vars vars' hs hbody ih =>
    have hlast : Below v := hbelow ⟨t, vars', v, new⟩ (by simp)
    have hnew := (idBody_ok hbody).2.1
    refine Or.inr ?_
    rcases ih fun c hc => hbelow c (List.mem_append_left _ hc) with
      ⟨rfl, rfl⟩ | ⟨first, ⟨c, hc, hfirst⟩, hids, hgo, rfl⟩
    · -- the first commit
      obtain ⟨hfirst, hgo⟩ := firstId_of_body hlast hbody
      have hone : vars'.nextID + ((([] ++ [(⟨t, vars', v, new⟩ :
          Commit IdVars (Option String))]).length : Int) - 1) = vars'.nextID := by simp
      refine ⟨vars'.nextID, ⟨_, rfl, hfirst⟩, ?_, ?_, ?_⟩
      · simp [commitIds, idsFrom]
      · rw [hone]
        exact hgo
      · rw [hone, hnew]
    · -- a later one reads the id of the commit before it
      have hnext := nextID_of_stored hgo hlast hbody
      have hlen : ((cs ++ [(⟨t, vars', some (toString (first + ((cs.length : Int) - 1))), new⟩ :
          Commit IdVars (Option String))]).length : Int) = cs.length + 1 := by simp
      have hid : vars'.nextID = first + cs.length := by omega
      have hlt := hlast _ (parseInt64_toString hgo)
      refine ⟨first, ⟨c, ?_, hfirst⟩, ?_, ?_, ?_⟩
      · rw [List.head?_append, hc]
        rfl
      · rw [List.length_append, List.length_singleton, idsFrom_succ, ← hids, commitIds, commitIds,
          List.map_append, List.map_singleton, hid]
      · obtain ⟨hlow, -⟩ := hgo
        rw [hlen]
        exact ⟨by omega, by omega⟩
      · rw [hlen, hnew, hid]
        congr 2
        omega

/-! ### Any interleaving -/

def returned (s : IdState) (t : Nat) : Option Int :=
  match s.calls t with
  | some ⟨_, .done (.ok id)⟩ => some id
  | _ => none

theorem returned_eq_some {s : IdState} {t : Nat} {id : Int} (h : returned s t = some id) :
    ∃ vars, s.calls t = some ⟨vars, .done (.ok id)⟩ := by
  unfold returned at h
  split at h
  · next vars id' ht =>
    cases h
    exact ⟨vars, ht⟩
  · cases h

/-- The transaction of the call `t` was committed before that of the call `u`. -/
def CommittedBefore (s : IdState) (t u : Nat) : Prop :=
  ∃ (i j : Nat) (ci cj : Commit IdVars (Option String)), i < j ∧ s.commits[i]? = some ci ∧
    s.commits[j]? = some cj ∧ ci.call = t ∧ cj.call = u

section

variable {start : Option String} {s : IdState}

theorem inv_ids (h : Reach idStep CounterBelow { val := start } s) :
    Inv newIDGenerate start Below s :=
  inv_reach (fun _ _ hev => hev) h

/-- The ids of the commits, whatever was stored at the start. -/
theorem commitIds_reach (h : Reach idStep CounterBelow { val := start } s) :
    ∃ first, commitIds s.commits = idsFrom first s.commits.length ∧
      ∀ c, s.commits.head? = some c → FirstId start c.vars.base first := by
  have hinv := inv_ids h
  rcases serial_ids hinv.serial hinv.olds with ⟨hnil, -⟩ | ⟨first, ⟨c, hc, hfirst⟩, hids, -⟩
  · rw [hnil]
    exact ⟨0, rfl, fun c hc => (nomatch hc)⟩
  · refine ⟨first, hids, fun c' hc' => ?_⟩
    rw [hc, Option.some.injEq] at hc'
    rw [← hc']
    exact hfirst

theorem committed_of_returned (h : Reach idStep CounterBelow { val := start } s) {t : Nat}
    {id : Int} (ht : returned s t = some id) :
    ∃ c ∈ s.commits, c.call = t ∧ c.vars.nextID = id := by
  obtain ⟨vars, hcall⟩ := returned_eq_some ht
  exact (inv_ids h).ok t vars id hcall

theorem commit_unique (h : Reach idStep CounterBelow { val := start } s)
    {c c' : Commit IdVars (Option String)} (hc : c ∈ s.commits) (hc' : c' ∈ s.commits)
    (heq : c.call = c'.call) : c = c' :=
  List.inj_on_of_nodup_map (inv_ids h).once hc hc' heq

theorem nextID_lt_of_before (h : Reach idStep CounterBelow { val := start } s) {i j : Nat}
    {ci cj : Commit IdVars (Option String)} (hij : i < j) (hi : s.commits[i]? = some ci)
    (hj : s.commits[j]? = some cj) : ci.vars.nextID < cj.vars.nextID := by
  obtain ⟨first, hids, -⟩ := commitIds_reach h
  have hsorted : (s.commits.map fun c => c.vars.nextID).Pairwise (· < ·) := by
    have hpair := pairwise_idsFrom first s.commits.length
    rw [← hids] at hpair
    exact hpair
  rw [List.pairwise_map, List.pairwise_iff_getElem] at hsorted
  obtain ⟨hi', rfl⟩ := List.getElem?_eq_some_iff.mp hi
  obtain ⟨hj', rfl⟩ := List.getElem?_eq_some_iff.mp hj
  exact hsorted i j hi' hj' hij

end

/-- **Global ids never repeat.**  In every state that any interleaving of calls reaches, with
transactions that conflict, are run again or fail, while the counter is below the greatest
`int64`: two calls that returned without an error have different ids, the one that committed
later has the greater one, and for a key that was not set the ids of the commits are the base
and the numbers after it, without a gap. -/
theorem ids_never_repeat (start : Option String) (s : IdState)
    (h : Reach idStep CounterBelow { val := start } s) :
    (∀ t u i j, returned s t = some i → returned s u = some j → t ≠ u → i ≠ j) ∧
      (∀ t u i j, returned s t = some i → returned s u = some j → CommittedBefore s t u → i < j) ∧
      (∀ t i, returned s t = some i → ∃ c ∈ s.commits, c.call = t ∧ c.vars.nextID = i) ∧
      (start.getD "" = "" → ∀ c, s.commits.head? = some c →
        commitIds s.commits = idsFrom c.vars.base.toInt s.commits.length) := by
  refine ⟨?_, ?_, fun t i => committed_of_returned h, ?_⟩
  · intro t u i j ht hu hne hij
    obtain ⟨c, hc, hct, hci⟩ := committed_of_returned h ht
    obtain ⟨c', hc', hcu, hcj⟩ := committed_of_returned h hu
    obtain ⟨a, ha⟩ := List.getElem?_of_mem hc
    obtain ⟨b, hb⟩ := List.getElem?_of_mem hc'
    rcases Nat.lt_trichotomy a b with hab | rfl | hab
    · have hlt := nextID_lt_of_before h hab ha hb
      omega
    · rw [ha, Option.some.injEq] at hb
      rw [hb, hcu] at hct
      exact hne hct.symm
    · have hlt := nextID_lt_of_before h hab hb ha
      omega
  · rintro t u i j ht hu ⟨a, b, ca, cb, hab, ha, hb, hcat, hcbu⟩
    obtain ⟨c, hc, hct, hci⟩ := committed_of_returned h ht
    obtain ⟨c', hc', hcu, hcj⟩ := committed_of_returned h hu
    have heq : ca = c := commit_unique h (List.mem_of_getElem? ha) hc (by rw [hcat, hct])
    have heq' : cb = c' := commit_unique h (List.mem_of_getElem? hb) hc' (by rw [hcbu, hcu])
    have hlt := nextID_lt_of_before h hab ha hb
    rw [heq, heq', hci, hcj] at hlt
    exact hlt
  · intro hempty c hc
    obtain ⟨first, hids, hfirst⟩ := commitIds_reach h
    rw [hids]
    rcases hfirst c hc with ⟨-, hbase⟩ | ⟨n, hn, -⟩
    · rw [hbase]
    · -- an empty text is no number
      rw [hempty] at hn
      cases hn

instance (val : Option String) : Decidable (Below val) :=
  decidable_of_iff ((parseInt64 (val.getD "")).all fun n => decide (n < 2 ^ 63 - 1)) <| by
    unfold Below
    cases parseInt64 (val.getD "") with
    | none => simp
    | some n => simp

instance (s : IdState) (ev : IdEvent) : Decidable (CounterBelow s ev) :=
  inferInstanceAs (Decidable (Below s.val))

/-- Two calls read the key before it is set.  The second one commits first, so the other one
runs again; the answer to a third call is lost after its commit. -/
def contendedCalls : List IdEvent :=
  [.start 0 ⟨0, 0⟩, .start 1 ⟨0, 0⟩, .run 0 none, .run 1 none, .commit 1 .answered,
    .commit 0 .answered, .run 0 none, .commit 0 .answered, .start 2 ⟨0, 0⟩, .run 2 none,
    .commit 2 (.lost "context deadline exceeded"), .start 3 ⟨0, 0⟩, .run 3 none,
    .commit 3 .answered]

def contended : IdState := contendedCalls.foldl idStep { val := none }

theorem ids_never_repeat_contended :
    returned contended 1 = some 0 ∧ returned contended 0 = some 1 ∧ returned contended 2 = none ∧
      returned contended 3 = some 3 ∧ (1 : Int) ≠ 3 ∧
      commitIds contended.commits = idsFrom 0 4 := by
  have hreach : Reach idStep CounterBelow { val := none } contended :=
    reach_of_runOk contendedCalls _ Reach.start (by decide +kernel)
  obtain ⟨hne, -, -, hids⟩ := ids_never_repeat none contended hreach
  have h0 : returned contended 0 = some 1 := by decide +kernel
  have h3 : returned contended 3 = some 3 := by decide +kernel
  have hfirst : contended.commits.head?
      = some ⟨1, ⟨0, 0⟩, none, some "0"⟩ := by decide +kernel
  refine ⟨by decide +kernel, h0, by decide +kernel, h3, hne 0 3 1 3 h0 h3 (by decide), ?_⟩
  exact (hids rfl _ hfirst).trans (by decide +kernel)

/-! ### The transaction as one operation -/

def newIds (net : Network) (t : Nat) (key : String) : Nat → World net →
    List (Except String Int) × World net
  | 0, w => ([], w)
  | n + 1, w =>
    let (ids, w) := newIds net t key n w
    let (id, w) := exec net t w (.newId key) none
    (ids ++ [id], w)

theorem nextId_of_commit {vars vars' : IdVars} {val new : Option String} (hbase : vars'.base = 0)
    (h : idBody vars val = (vars', .ok new)) :
    nextId val = some vars'.nextID ∧ new = some (toString vars'.nextID) := by
  obtain ⟨hsame, hnew, hcase⟩ := idBody_ok h
  refine ⟨?_, hnew⟩
  rcases hcase with ⟨hempty, hid⟩ | ⟨n, hn, hid⟩
  · rw [hid, ← hsame, hbase]
    cases val with
    | none => rfl
    | some v =>
      rw [Option.getD_some] at hempty
      rw [hempty]
      rfl
  · cases val with
    | none => cases hn
    | some v =>
      rw [Option.getD_some] at hn
      have hne : v ≠ "" := by
        intro hv
        rw [hv] at hn
        cases hn
      simp only [nextId, if_neg hne, hn, Option.map_some, hid, succ64]

theorem newIds_of_serial (net : Network) (t : Nat) (key : String) {start val : Option String}
    {cs : List (Commit IdVars (Option String))} (h : Serial newIDGenerate start cs val)
    (hbase : ∀ c ∈ cs, c.vars.base = 0) {w : World net} (hw : w.etcd[key]? = start) :
    (newIds net t key cs.length w).1 = (commitIds cs).map .ok ∧
      (newIds net t key cs.length w).2.etcd[key]? = val := by
  induction h with
  | nil => exact ⟨rfl, hw⟩
  | @snoc cs v new u vars vars' hs hbody ih =>
    obtain ⟨hids, hval⟩ := ih fun c hc => hbase c (List.mem_append_left _ hc)
    obtain ⟨hnext, hnew⟩ := nextId_of_commit (hbase ⟨u, vars', v, new⟩ (by simp)) hbody
    rw [List.length_append, List.length_singleton]
    simp only [newIds, exec, hval, hnext]
    constructor
    · rw [hids, commitIds, commitIds, List.map_append, List.map_append]
      rfl
    · rw [Std.TreeMap.getElem?_insert_self, hnew]

/-- **The interleaved transactions refine the operation of the machine**: the calls with the
base zero, as the master makes them, leave the key as the operation does when it is called
once for every commit, in commit order, and they take the ids that it gives. -/
theorem newIDGenerate_refines (net : Network) (t : Nat) (key : String) {start : Option String}
    {s : IdState} (h : Reach idStep CounterBelow { val := start } s)
    (hbase : ∀ c ∈ s.commits, c.vars.base = 0) {w : World net} (hw : w.etcd[key]? = start) :
    (newIds net t key s.commits.length w).1 = (commitIds s.commits).map .ok ∧
      (newIds net t key s.commits.length w).2.etcd[key]? = s.val :=
  newIds_of_serial net t key (inv_ids h).serial hbase hw

end SimSearch.Master
