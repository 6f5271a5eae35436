import SimSearch.Master.Mutex

/-!
# The key that disables DDL

`DdlDisabledKey` is put before a request calls the PS nodes and removed when they have
all acknowledged; a request that finds it gives up.  `deleteSpace` removes it as well
when a node has failed.

The theorem is about runs in which the nodes acknowledge every PS request of a delete, no
delete loses its last attempt at the lock and all calls to etcd succeed.  Each thread keeps
to a discipline that its own calls show (`gateProtocol`): it writes and calls nodes only
under the lock and after it has found the key absent, and when it unlocks after a failed PS
request, its last word on the key was the put.  From this follow three invariants of the
cluster: the key is there as long as that thread holds the lock (`Covered`), afterwards
nobody who holds the lock has found it absent (`Closed`), and so requests that come later
touch nothing (`Refused`).
-/

namespace SimSearch.Master

open SimSearch.Lib Program

variable {net : Network} {t : Nat} {i : Request}

/-! ### What the calls of a thread show -/

def Body.isPs : Body → Bool
  | .psCreate _ _ | .psDelete _ _ => true
  | .routerCreate _ | .routerDelete _ _ => false

def PsFailure : (Σ o, Res o) → Prop
  | ⟨.post task, r⟩ => task.body.isPs = true ∧ Reply.ok r = false
  | _ => False

instance : DecidablePred PsFailure
  | ⟨.post task, r⟩ => inferInstanceAs (Decidable (task.body.isPs = true ∧ Reply.ok r = false))
  | ⟨.newSession, _⟩ | ⟨.tryLock _, _⟩ | ⟨.unlock, _⟩ | ⟨.get _, _⟩ | ⟨.put _ _, _⟩
  | ⟨.delete _, _⟩ | ⟨.scan _, _⟩ | ⟨.newId _, _⟩ | ⟨.now, _⟩ | ⟨.order _, _⟩ => instDecidableFalse

def FailedPs (tr : Trace Op Res) : Prop := ∃ e ∈ tr, PsFailure e

/-- The key was found absent. -/
def Entered (tr : Trace Op Res) : Prop := (⟨.get ddlDisabledKey, .ok none⟩ : Σ o, Res o) ∈ tr

/-- The key was put, and not deleted since. -/
def GateUp (tr : Trace Op Res) : Prop :=
  ∃ v tr₁ tr₂, tr = tr₁ ++ ⟨.put ddlDisabledKey v, .ok ()⟩ :: tr₂ ∧
    ∀ e ∈ tr₂, e.1 ≠ .delete ddlDisabledKey

theorem failedPs_append {tr tr' : Trace Op Res} :
    FailedPs (tr ++ tr') ↔ FailedPs tr ∨ FailedPs tr' := by
  simp only [FailedPs, List.mem_append, or_and_right, exists_or]

theorem failedPs_singleton {e : Σ o, Res o} : FailedPs [e] ↔ PsFailure e := by
  simp [FailedPs]

theorem failedPs_nil : ¬ FailedPs [] := fun ⟨_, h, _⟩ => (nomatch h)

theorem PsFailure.touches {e : Σ o, Res o} (h : PsFailure e) : Touches e.1 := by
  obtain ⟨o, r⟩ := e
  cases o <;> first | exact h.elim | trivial

theorem failedPs_snoc {tr : Trace Op Res} {e : Σ o, Res o} (h : ¬ FailedPs tr)
    (he : ¬ PsFailure e) : ¬ FailedPs (tr ++ [e]) := by
  rw [failedPs_append, failedPs_singleton]
  exact fun hor => hor.elim h he

theorem entered_append {tr tr' : Trace Op Res} :
    Entered (tr ++ tr') ↔ Entered tr ∨ Entered tr' := List.mem_append

theorem entered_snoc {tr : Trace Op Res} {e : Σ o, Res o} (h : ¬ Entered tr)
    (he : e ≠ ⟨.get ddlDisabledKey, .ok none⟩) : ¬ Entered (tr ++ [e]) := by
  rw [entered_append]
  exact fun hor => hor.elim h fun hin => he (List.mem_singleton.mp hin).symm

theorem gateUp_put (tr : Trace Op Res) (v : String) :
    GateUp (tr ++ [⟨.put ddlDisabledKey v, .ok ()⟩]) :=
  ⟨v, tr, [], rfl, fun _ h => (nomatch h)⟩

theorem GateUp.snoc {tr : Trace Op Res} (h : GateUp tr) {e : Σ o, Res o}
    (he : e.1 ≠ .delete ddlDisabledKey) : GateUp (tr ++ [e]) := by
  obtain ⟨v, tr₁, tr₂, rfl, hafter⟩ := h
  refine ⟨v, tr₁, tr₂ ++ [e], by simp, fun x hx => ?_⟩
  rcases List.mem_append.mp hx with hx | hx
  · exact hafter x hx
  · rw [List.mem_singleton.mp hx]
    exact he

/-- What the last call did for `GateUp`. -/
theorem GateUp.cases {tr : Trace Op Res} {e : Σ o, Res o} (h : GateUp (tr ++ [e])) :
    (∃ v, e = ⟨.put ddlDisabledKey v, .ok ()⟩) ∨
      (GateUp tr ∧ e.1 ≠ .delete ddlDisabledKey) := by
  obtain ⟨v, tr₁, tr₂, heq, hafter⟩ := h
  rcases List.eq_nil_or_concat tr₂ with rfl | ⟨tr₃, e', rfl⟩
  · obtain ⟨-, he⟩ := List.append_inj' heq rfl
    exact Or.inl ⟨v, List.singleton_inj.mp he⟩
  · have heq' : tr ++ [e] = (tr₁ ++ ⟨.put ddlDisabledKey v, .ok ()⟩ :: tr₃) ++ [e'] := by
      rw [heq]
      simp
    obtain ⟨rfl, he⟩ := List.append_inj' heq' rfl
    cases List.singleton_inj.mp he
    refine Or.inr ⟨⟨v, tr₁, tr₃, rfl, fun x hx => hafter x ?_⟩, hafter e ?_⟩
    · simp [hx]
    · simp

/-! ### Replies -/

/-- **No reply is lost.** -/
theorem parallelExecute_listed (tasks : List Task) :
    (parallelExecute tasks).Yields fun tr rs =>
      ∀ task r, (⟨.post task, r⟩ : Σ o, Res o) ∈ tr → r ∈ rs := by
  refine (parallelExecute_exchanges tasks).mono ?_
  rintro tr rs ⟨-, hperm⟩ task r hmem
  exact (List.of_mem_zip (hperm.mem_iff.mp (mem_exchanges.mpr hmem))).2

theorem parallelCreatePsSpace_clean (space : InnerSpace) :
    (parallelCreatePsSpace space).Yields fun tr failed => failed = some [] → ¬ FailedPs tr := by
  refine yields_seq ((parallelExecute_listed (psCreateTasks space)).mono ?_)
  rintro tr rs hlisted hnil ⟨⟨o, r⟩, hmem, hfail⟩
  rw [List.append_nil] at hmem
  cases o with
  | post task =>
    have hok := failedIdxs_nil hnil r (hlisted task r hmem)
    exact absurd hok (by rw [hfail.2]; decide)
  | _ => exact hfail

/-! ### The key in the store -/

def Disabled (w : World net) : Prop := w.etcd[ddlDisabledKey]?.isSome = true

instance (w : World net) : Decidable (Disabled w) :=
  inferInstanceAs (Decidable (w.etcd[ddlDisabledKey]?.isSome = true))

theorem exec_disabled (w : World net) (o : Op) (c : Choice net o) (ho : o ≠ .delete ddlDisabledKey)
    (hw : Disabled w) : Disabled (exec net t w o c).2 := by
  have hinsert : ∀ k v : String, (w.etcd.insert k v)[ddlDisabledKey]?.isSome = true := by
    intro k v
    rw [Std.TreeMap.getElem?_insert]
    split_ifs
    · rfl
    · exact hw
  cases o with
  | put k v =>
    cases c with
    | none => exact hinsert k v
    | some e => exact hw
  | delete k =>
    cases c with
    | none =>
      have hne : ¬ compare k ddlDisabledKey = .eq := by
        intro heq
        rw [Std.LawfulEqCmp.eq_of_compare heq] at ho
        exact ho rfl
      show (w.etcd.erase k)[ddlDisabledKey]?.isSome = true
      rw [Std.TreeMap.getElem?_erase, if_neg hne]
      exact hw
    | some e => exact hw
  | newId k =>
    simp only [exec]
    cases c with
    | some e => exact hw
    | none =>
      cases nextId w.etcd[k]? with
      | none => exact hw
      | some n => exact hinsert k _
  | tryLock n =>
    simp only [exec]
    split_ifs <;> exact hw
  | unlock =>
    simp only [exec]
    split_ifs <;> exact hw
  | _ => exact hw

theorem exec_put_disabled (w : World net) (v : String) {c : Choice net (.put ddlDisabledKey v)}
    (h : (exec net t w (.put ddlDisabledKey v) c).1 = .ok ()) :
    Disabled (exec net t w (.put ddlDisabledKey v) c).2 := by
  cases c with
  | some e => cases h
  | none =>
    show (w.etcd.insert ddlDisabledKey v)[ddlDisabledKey]?.isSome = true
    rw [Std.TreeMap.getElem?_insert_self]
    rfl

theorem not_entered_of_disabled (w : World net) (o : Op) (c : Choice net o) (hw : Disabled w) :
    (⟨o, (exec net t w o c).1⟩ : Σ o, Res o) ≠ ⟨.get ddlDisabledKey, .ok none⟩ := by
  intro heq
  cases o with
  | get key =>
    obtain ⟨hkey, hres⟩ := Sigma.mk.inj heq
    cases hkey
    have hres := eq_of_heq hres
    cases c with
    | some e => cases hres
    | none =>
      have hnone : w.etcd[ddlDisabledKey]? = none := Except.ok.inj hres
      rw [Disabled, hnone] at hw
      cases hw
  | _ => cases (Sigma.mk.inj heq).1

/-! ### The discipline of a thread -/

/-- A request writes and calls nodes under the lock, once it has found the key absent; it
tries for the lock before it looks; and if a PS request has failed, its last word on the
key is the put when it unlocks.  The worlds that are allowed acknowledge the PS requests of
a delete. -/
def gateProtocol (net : Network) : Protocol (master net) Request where
  inv _ := True
  rely t w w' := World.lock w' = some t ↔ World.lock w = some t
  allow t i _ w o c := etcdUp net o c = true ∧ LastTryTaken net t i w o c ∧
    (i.isDelete = true → ¬ PsFailure ⟨o, (exec net t w o c).1⟩)
  pre t _ tr w o := (Touches o → World.lock w = some t ∧ NoUnlock tr ∧ Entered tr) ∧
    (∀ n, o = .tryLock n → ¬ Entered tr) ∧
    (o = .unlock → FailedPs tr → World.lock w = some t ∧ GateUp tr)
  rely_refl := lock_rely_refl net
  rely_trans := lock_rely_trans net

theorem gate_fair (w : World net) (o : Op) (c : Choice net o) :
    (gateProtocol net).Fair t w (exec net t w o c).2 :=
  ⟨trivial, fun _ hu => exec_lock_other w o c hu⟩

/-- The thread is at work: it has the lock and has found the key absent. -/
def Working (t : Nat) (tr : Trace Op Res) (w : World net) : Prop :=
  w.lock = some t ∧ NoUnlock tr ∧ Entered tr

theorem Working.rely {tr : Trace Op Res} {w w' : World net} (h : Working t tr w)
    (hr : (gateProtocol net).rely t w w') : Working t tr w' := ⟨hr.mpr h.1, h.2⟩

theorem Working.pre {tr : Trace Op Res} {w : World net} (h : Working t tr w) {o : Op}
    (ho : ¬ LockOp o) : (gateProtocol net).pre t i tr w o := by
  refine ⟨fun _ => h, fun n hn => ?_, fun hn => ?_⟩
  · subst hn
    exact absurd trivial ho
  · subst hn
    exact absurd trivial ho

theorem Working.exec {tr : Trace Op Res} {w : World net} (h : Working t tr w) {o : Op}
    (ho : ¬ LockOp o) (c : Choice net o) :
    Working t (tr ++ [⟨o, (exec net t w o c).1⟩]) (exec net t w o c).2 := by
  refine ⟨(exec_lock w c ho).trans h.1, h.2.1.snoc ?_, entered_append.mpr (Or.inl h.2.2)⟩
  rintro rfl
  exact ho trivial

/-- **At work a thread may do anything that keeps `X`**, a property of its calls. -/
theorem safe_working {α : Type} {p : Prog α} {allowed : Op → Prop} {X : Trace Op Res → Prop}
    (hlock : ∀ o, allowed o → ¬ LockOp o)
    (hX : ∀ tr (e : Σ o, Res o), allowed e.1 → X tr → X (tr ++ [e])) (hp : p.Uses allowed)
    {tr : Trace Op Res} {w : World net} (hw : Working t tr w) (hx : X tr) :
    Safe (gateProtocol net) t i (fun _ tr w => Working t tr w ∧ X tr) p tr w := by
  refine safe_of_uses (M := master net) (P := gateProtocol net)
    (K := fun tr (w : World net) => Working t tr w ∧ X tr) ?_ ?_ hp ⟨hw, hx⟩
  · exact fun tr w w' h hr _ => ⟨h.1.rely hr, h.2⟩
  · rintro tr w o ho ⟨hw, hx⟩ -
    exact ⟨hw.pre (hlock o ho), fun c _ =>
      ⟨gate_fair w o c, hw.exec (hlock o ho) c, hX tr _ ho hx⟩⟩

/-- The key stays put as long as the thread does not delete it. -/
theorem safe_gateUp {α : Type} {p : Prog α} {allowed : Op → Prop}
    (hlock : ∀ o, allowed o → ¬ LockOp o) (hdel : ¬ allowed (.delete ddlDisabledKey))
    (hp : p.Uses allowed) {tr : Trace Op Res} {w : World net} (hw : Working t tr w)
    (hup : GateUp tr) :
    Safe (gateProtocol net) t i (fun _ tr w => Working t tr w ∧ GateUp tr) p tr w :=
  safe_working hlock (fun _ _ he h => h.snoc fun heq => hdel (heq ▸ he)) hp hw hup

def Settled (t : Nat) (tr : Trace Op Res) (w : World net) : Prop :=
  Working t tr w ∧ (FailedPs tr → GateUp tr)

theorem settled_ret {α : Type} {a : α} {tr : Trace Op Res} {w : World net}
    (h : Settled t tr w) :
    Safe (gateProtocol net) t i (fun _ tr w => Settled t tr w) (.ret a) tr w :=
  safe_ret fun _ hr _ => ⟨h.1.rely hr, h.2⟩

theorem safe_clean {α : Type} {p : Prog α} {allowed : Op → Prop}
    (hlock : ∀ o, allowed o → ¬ LockOp o)
    (hpost : ∀ task : Task, task.body.isPs = true → ¬ allowed (.post task)) (hp : p.Uses allowed)
    {tr : Trace Op Res} {w : World net} (hw : Working t tr w) (hclean : ¬ FailedPs tr) :
    Safe (gateProtocol net) t i (fun _ tr w => Working t tr w ∧ ¬ FailedPs tr) p tr w := by
  refine safe_working hlock (fun tr e he h => failedPs_snoc h fun hfail => ?_) hp hw hclean
  obtain ⟨o, r⟩ := e
  cases o with
  | post task => exact hpost task hfail.1 he
  | _ => exact hfail

theorem safe_closeGate {α : Type} {v : String} {f : Res (.put ddlDisabledKey v) → Prog α}
    {Q : α → Trace Op Res → World net → Prop} {tr : Trace Op Res} {w : World net}
    (hw : Working t tr w) (hclean : ¬ FailedPs tr)
    (hf : ∀ r tr' w', Working t tr' w' → GateUp tr' → ¬ FailedPs tr' →
      Safe (gateProtocol net) t i Q (f r) tr' w') :
    Safe (gateProtocol net) t i Q (perform (.put ddlDisabledKey v) >>= f) tr w := by
  refine safe_perform fun w₁ hr _ => ⟨(hw.rely hr).pre fun h => h, fun c hc => ?_⟩
  obtain rfl : c = none := Option.isNone_iff_eq_none.mp hc.1
  have hput := (hw.rely hr).exec (o := .put ddlDisabledKey v) (fun h => h) none
  exact ⟨gate_fair w₁ _ _, hf _ _ _ hput (gateUp_put tr v) (failedPs_snoc hclean fun h => h)⟩

/-! ### The work of a create -/

theorem safe_createClean {α : Type} {p : Prog α} (hp : p.Uses ReadOp) {tr : Trace Op Res}
    {w : World net} (hw : Working t tr w) (hclean : ¬ FailedPs tr) :
    Safe (gateProtocol net) t i (fun _ tr w => Working t tr w ∧ ¬ FailedPs tr) p tr w :=
  safe_clean ReadOp.not_lockOp (fun _ _ h => h) hp hw hclean

theorem settled_createFilled (json : SpaceJson) (pre : String) (sp : InnerSpace)
    {tr : Trace Op Res} {w : World net} (hw : Working t tr w) (hclean : ¬ FailedPs tr) :
    Safe (gateProtocol net) t i (fun _ tr w => Settled t tr w) (createFilled json pre sp) tr w := by
  have hcreate : ∀ {α : Type} {p : Prog α}, p.Uses (CreateOp sp.dbName sp.spaceName) →
      ∀ {tr : Trace Op Res} {w : World net}, Working t tr w → GateUp tr →
        Safe (gateProtocol net) t i (fun _ tr w => Working t tr w ∧ GateUp tr) p tr w :=
    fun hp _ _ hw hup => safe_gateUp CreateOp.not_lockOp (fun h => h) hp hw hup
  refine safe_closeGate hw hclean fun _ tr₁ w₁ hw₁ hup₁ hclean₁ => ?_
  refine safe_seq ((safe_yields (hcreate (uses_parallelCreatePsSpace sp) hw₁ hup₁)
    (parallelCreatePsSpace_clean sp)).mono ?_)
  rintro failed _ w₂ - ⟨⟨hw₂, hup₂⟩, tr₂, rfl, hnone⟩
  rcases failed with _ | _ | ⟨j, js⟩
  · exact settled_ret ⟨hw₂, fun _ => hup₂⟩
  · -- nobody failed: the space is stored and the key removed
    have hclean₂ : ¬ FailedPs (tr₁ ++ tr₂) := by
      rw [failedPs_append]
      exact fun h => h.elim hclean₁ (hnone rfl)
    refine safe_perform fun w₃ hr _ => ⟨(hw₂.rely hr).pre fun h => h, fun c hc => ?_⟩
    obtain rfl : c = none := Option.isNone_iff_eq_none.mp hc.1
    refine ⟨gate_fair w₃ _ _, ?_⟩
    have hput := (hw₂.rely hr).exec (o := .put (getSpaceEtcdKey sp.dbName sp.spaceName)
      (json.marshal sp)) (fun h => h) none
    have hopen : (perform (.delete ddlDisabledKey)).Uses (· = .delete ddlDisabledKey) :=
      uses_perform rfl
    refine safe_seq ((safe_clean (fun o ho => by rw [ho]; exact fun h => h)
      (fun _ _ h => (nomatch h)) hopen hput (failedPs_snoc hclean₂ fun h => h)).mono ?_)
    rintro _ tr₄ w₄ - ⟨hw₄, hclean₄⟩
    exact settled_ret ⟨hw₄, fun h => absurd h hclean₄⟩
  · have hfailed : (createFailed sp (getErrSpaceEtcdKey sp.dbName sp.spaceName sp.id)
        (pre ++ ", Create ps space failed, deadly error; ") (j :: js)).Uses
          (CreateOp sp.dbName sp.spaceName) :=
        (uses_createFailed (.errSpace _ _ _) _ _).mono UndoOp.createOp
    refine safe_seq ((hcreate hfailed hw₂ hup₂).mono ?_)
    rintro r tr₃ w₃ - ⟨hw₃, hup₃⟩
    exact settled_ret ⟨hw₃, fun _ => hup₃⟩

theorem settled_createPsSpaceImpl (json : SpaceJson) (space : InnerSpace) (idle : List Replica)
    {tr : Trace Op Res} {w : World net} (hw : Working t tr w) (hclean : ¬ FailedPs tr) :
    Safe (gateProtocol net) t i (fun _ tr w => Settled t tr w)
      (createPsSpaceImpl json space idle) tr w := by
  have hnow : (perform .now).Uses ReadOp := uses_perform trivial
  refine safe_seq ((safe_createClean hnow hw hclean).mono ?_)
  rintro time tr₁ w₁ - ⟨hw₁, hclean₁⟩
  by_cases hlen : (idle.length : Int) < space.partitionNum * space.replicaNum
  · simp only [if_pos hlen]
    exact settled_ret ⟨hw₁, fun h => absurd h hclean₁⟩
  · simp only [if_neg hlen]
    have hid : (perform (.newId genSpaceIdKey)).Uses (· = .newId genSpaceIdKey) := uses_perform rfl
    refine safe_seq ((safe_clean (fun o ho => by rw [ho]; exact fun h => h)
      (fun _ _ h => (nomatch h)) hid hw₁ hclean₁).mono ?_)
    rintro id tr₂ w₂ - ⟨hw₂, hclean₂⟩
    exact settled_createFilled json _ (filledSpace space idle time _) hw₂ hclean₂

theorem settled_addRouterSpace (sp : InnerSpace) {tr : Trace Op Res} {w : World net}
    (h : Settled t tr w) :
    Safe (gateProtocol net) t i (fun _ tr w => Settled t tr w) (addRouterSpace sp) tr w := by
  have hp : (addRouterSpace sp).Uses fun o => ReadOp o ∨
      ∃ task : Task, task.body = .routerCreate sp ∧ o = .post task :=
    uses_routerCreate (fun _ => Or.inl) fun task hbody => Or.inr ⟨task, hbody, rfl⟩
  refine safe_working (X := fun tr => FailedPs tr → GateUp tr) ?_ ?_ hp h.1 h.2
  · rintro o (ho | ⟨task, -, rfl⟩)
    · exact ReadOp.not_lockOp o ho
    · exact fun hlock => hlock
  · rintro tr ⟨o, r⟩ ho hX hfail
    have hquiet : ¬ PsFailure ⟨o, r⟩ ∧ o ≠ .delete ddlDisabledKey := by
      rcases ho with ho | ⟨task, hbody, rfl⟩
      · cases o <;> first | exact ho.elim | exact ⟨fun h => h, fun h => (nomatch h)⟩
      · refine ⟨fun h => ?_, fun h => (nomatch h)⟩
        have hps : task.body.isPs = true := h.1
        rw [hbody] at hps
        cases hps
    rw [failedPs_append, failedPs_singleton] at hfail
    exact (hX (hfail.resolve_right hquiet.1)).snoc hquiet.2

theorem safe_look {α : Type} {o : Op} {f : Res o → Prog α}
    {Q : α → Trace Op Res → World net → Prop} {tr : Trace Op Res} {w : World net} (ho : ReadOp o)
    (hw : w.lock = some t)
    (hf : ∀ r w', World.lock w' = some t →
      Safe (gateProtocol net) t i Q (f r) (tr ++ [⟨o, r⟩]) w') :
    Safe (gateProtocol net) t i Q (perform o >>= f) tr w := by
  refine safe_perform fun w₁ hr _ => ⟨⟨fun htouch => ?_, fun n hn => ?_, fun hn => ?_⟩, fun c _ => ?_⟩
  · cases o <;> first | exact ho.elim | exact htouch.elim
  · subst hn
    exact ho.elim
  · subst hn
    exact ho.elim
  · refine ⟨gate_fair w₁ o c, hf _ _ ((exec_lock w₁ c (ReadOp.not_lockOp o ho)).trans ?_)⟩
    exact hr.mpr hw

def Owed (t : Nat) (tr : Trace Op Res) (w : World net) : Prop :=
  FailedPs tr → w.lock = some t ∧ GateUp tr

theorem Settled.owed {tr : Trace Op Res} {w : World net} (h : Settled t tr w) : Owed t tr w :=
  fun hfail => ⟨h.1.1, h.2 hfail⟩

theorem owed_ret {α : Type} {a : α} {tr : Trace Op Res} {w : World net} (h : ¬ FailedPs tr) :
    Safe (gateProtocol net) t i (fun _ tr w => Owed t tr w) (.ret a) tr w :=
  safe_ret fun _ _ _ hfail => absurd hfail h

theorem owed_createLocked (json : SpaceJson) (space : InnerSpace) {tr : Trace Op Res}
    {w : World net} (hw : w.lock = some t) (hno : NoUnlock tr) (hclean : ¬ FailedPs tr) :
    Safe (gateProtocol net) t i (fun _ tr w => Owed t tr w) (createLocked json space) tr w := by
  refine safe_look trivial hw fun val w₁ hw₁ => ?_
  have hclean₁ := failedPs_snoc (e := ⟨.get ddlDisabledKey, val⟩) hclean fun h => h
  rcases val with _ | _ | val
  · exact owed_ret hclean₁
  · have hwork : Working t (tr ++ [⟨.get ddlDisabledKey, .ok none⟩]) w₁ :=
      ⟨hw₁, hno.snoc fun h => (nomatch h), List.mem_append_right _ (List.mem_singleton_self _)⟩
    refine safe_seq ((safe_createClean (uses_validateName json space) hwork hclean₁).mono ?_)
    rintro r tr₂ w₂ - ⟨hw₂, hclean₂⟩
    rcases r with _ | _ | idle
    · exact owed_ret hclean₂
    · exact owed_ret hclean₂
    refine safe_seq ((settled_createPsSpaceImpl json space idle hw₂ hclean₂).mono ?_)
    rintro res tr₃ w₃ - hset
    rcases res with _ | ⟨sp, abled, msg⟩
    · exact (settled_ret hset).mono fun _ _ _ _ h => h.owed
    · by_cases hmsg : msg ≠ ""
      · simp only [if_pos hmsg]
        exact (settled_ret hset).mono fun _ _ _ _ h => h.owed
      · simp only [if_neg hmsg]
        refine safe_seq ((settled_addRouterSpace sp hset).mono fun r tr₄ w₄ _ hset₄ => ?_)
        cases r <;> exact (settled_ret hset₄).mono fun _ _ _ _ h => h.owed
  · exact owed_ret hclean₁

/-! ### The work of a delete -/

/-- A delete has no failed PS request, whatever it calls. -/
theorem safe_deleteWork {α : Type} {p : Prog α} (hp : p.Uses fun o => ¬ LockOp o)
    (hdel : i.isDelete = true) {tr : Trace Op Res} {w : World net} (hw : Working t tr w)
    (hclean : ¬ FailedPs tr) :
    Safe (gateProtocol net) t i (fun _ tr w => Working t tr w ∧ ¬ FailedPs tr) p tr w := by
  refine safe_of_uses (M := master net) (P := gateProtocol net)
    (K := fun tr (w : World net) => Working t tr w ∧ ¬ FailedPs tr) ?_ ?_ hp ⟨hw, hclean⟩
  · exact fun tr w w' h hr _ => ⟨h.1.rely hr, h.2⟩
  · rintro tr w o ho ⟨hw, hclean⟩ -
    refine ⟨hw.pre ho, fun c hc => ⟨gate_fair w o c, hw.exec ho c, ?_⟩⟩
    exact failedPs_snoc hclean (hc.2.2 hdel)

theorem owed_deleteBody (json : SpaceJson) (req : DeleteSpaceRequest) (hdel : i.isDelete = true)
    {tr : Trace Op Res} {w : World net} (hw : w.lock = some t) (hno : NoUnlock tr)
    (hclean : ¬ FailedPs tr) :
    Safe (gateProtocol net) t i (fun _ tr w => Owed t tr w) (deleteBody json req) tr w := by
  refine safe_look trivial hw fun val w₁ hw₁ => ?_
  have hclean₁ := failedPs_snoc (e := ⟨.get (getSpaceEtcdKey req.dbName req.spaceName), val⟩) hclean
    fun h => h
  rcases val with _ | _ | detail
  · exact owed_ret hclean₁
  · exact owed_ret hclean₁
  · refine safe_look trivial hw₁ fun val w₂ hw₂ => ?_
    have hclean₂ := failedPs_snoc (e := ⟨.get ddlDisabledKey, val⟩) hclean₁ fun h => h
    rcases val with _ | _ | val
    · exact owed_ret hclean₂
    · have hwork : Working t (tr ++ [⟨.get (getSpaceEtcdKey req.dbName req.spaceName),
          .ok (some detail)⟩] ++ [⟨.get ddlDisabledKey, .ok none⟩]) w₂ := by
        refine ⟨hw₂, NoUnlock.snoc (hno.snoc ?_) ?_, List.mem_append_right _ List.mem_cons_self⟩
        · exact fun h => (nomatch h)
        · exact fun h => (nomatch h)
      have hfound := (uses_deleteFound json req detail).mono DeleteOp.not_lockOp
      refine (safe_deleteWork hfound hdel hwork hclean₂).mono ?_
      exact fun _ tr₃ w₃ _ h hfail => absurd hfail h.2
    · exact owed_ret hclean₂

/-! ### All requests -/

theorem owed_registerLocked (json : SpaceJson) (req : RegisterRequest) {tr : Trace Op Res}
    {w : World net} (hclean : ¬ FailedPs tr) :
    Safe (gateProtocol net) t i (fun _ tr w => Owed t tr w) (registerLocked json req) tr w := by
  have hsafe := safe_of_uses (M := master net) (P := gateProtocol net) (t := t) (i := i)
    (K := fun tr _ => ¬ FailedPs tr) (fun _ _ _ h _ _ => h) ?_ (uses_registerLocked json req)
    (s := w) hclean
  · exact hsafe.mono fun _ _ _ _ h hfail => absurd hfail h
  · intro tr w o ho hclean _
    refine ⟨⟨fun htouch => ?_, fun n hn => ?_, fun hn => ?_⟩, fun c _ =>
      ⟨gate_fair w o c, failedPs_snoc hclean fun hfail => ?_⟩⟩
    · cases o <;> first | exact ho.elim | exact htouch.elim
    · subst hn
      exact ho.elim
    · subst hn
      exact ho.elim
    · cases o <;> first | exact ho.elim | exact hfail.elim

theorem frameRule_gate (i : Request) :
    FrameRule (gateProtocol net) t i
      (fun tr _ => NoUnlock tr ∧ ¬ Entered tr ∧ ¬ FailedPs tr) (Owed t) where
  lock _ _ h := h
  stable _ _ _ h _ _ := h
  enter tr w o ho h _ := by
    obtain ⟨hno, hent, hclean⟩ := h
    refine ⟨⟨fun htouch => ?_, fun _ _ => hent, fun hn => ?_⟩, fun c _ =>
      ⟨gate_fair w o c, hno.snoc ?_, entered_snoc hent fun heq => ?_,
        failedPs_snoc hclean fun hfail => ?_⟩⟩
    · cases o <;> first | exact ho.elim | exact htouch.elim
    · subst hn
      exact ho.elim
    · rintro rfl
      exact ho
    · rw [(Sigma.mk.inj heq).1] at ho
      exact ho
    · cases o <;> first | exact ho.elim | exact hfail.elim
  giveUp _ _ h hfail := absurd hfail h.2.2
  stableU _ _ _ h hr _ hfail := ⟨hr.mpr (h hfail).1, (h hfail).2⟩
  leave tr w h _ :=
    ⟨⟨fun htouch => htouch.elim, fun _ hn => (nomatch hn), fun _ => h⟩,
      fun c _ => gate_fair w .unlock c⟩

/-- **Every request keeps to the discipline.** -/
theorem safe_gate (json : SpaceJson) (t : Nat) (i : Request) (w : World net) :
    Safe (gateProtocol net) t i (fun _ _ _ => True) (serve json i) [] w := by
  refine (frameRule_gate i).safe (S := i.isDelete = true) (fun _ _ => ?_)
    (fun hdel _ _ _ hc => hc.2.1 rfl hdel) ?_ ?_ ?_ w
  · exact ⟨fun e he => (nomatch he), fun h => (nomatch h), failedPs_nil⟩
  · exact fun api _ _ tr w h hw => owed_createLocked json _ hw h.1 h.2.2
  · rintro req rfl b tr w ⟨h, hlock, hdel⟩
    exact owed_deleteBody json req rfl (hlock (hdel rfl)) h.1 h.2.2
  · exact fun req _ tr w h _ => owed_registerLocked json req h.2.2

/-! ### Runs -/

instance : DecidablePred FailedPs := fun tr =>
  inferInstanceAs (Decidable (∃ e ∈ tr, PsFailure e))

/-- The next call of the thread is a PS request of a delete, and it fails. -/
def deleteFails (c : Cluster net) (t : Nat) (pick : (o : Op) → Choice net o) : Bool :=
  match c.threads t with
  | some ⟨.delete _, _, .call o _⟩ => decide (PsFailure ⟨o, (exec net t c.state o (pick o)).1⟩)
  | _ => false

theorem acknowledged_of_not_deleteFails {c : Cluster net} {pick : (o : Op) → Choice net o}
    (h : deleteFails c t pick = false) {tr : Trace Op Res} {o : Op} {k : Res o → Prog Outcome}
    (ht : c.threads t = some ⟨i, tr, .call o k⟩) (hdel : i.isDelete = true) :
    ¬ PsFailure ⟨o, (exec net t c.state o (pick o)).1⟩ := by
  cases i with
  | delete req =>
    simp only [deleteFails, ht, decide_eq_false_iff_not] at h
    exact h
  | create req => cases hdel
  | register req => cases hdel

/-- All calls to etcd succeed, no delete loses its last attempt at the lock, and no PS
request of a delete fails.  From outside anything may change but the lock. -/
def DdlRun (c : Cluster net) : Event (master net) Request → Prop
  | .spawn _ _ => True
  | .act t pick => nextUp c t pick = true ∧ lastTryLost c t pick = false ∧
      deleteFails c t pick = false
  | .env w => World.lock w = World.lock c.state

/-- Besides, nobody from outside removes the key. -/
def Unremoved (c : Cluster net) : Event (master net) Request → Prop
  | .spawn _ _ => True
  | .act t pick => nextUp c t pick = true ∧ lastTryLost c t pick = false ∧
      deleteFails c t pick = false
  | .env w => World.lock w = World.lock c.state ∧ (Disabled c.state → Disabled w)

theorem Unremoved.ddlRun {c : Cluster net} {e : Event (master net) Request} (h : Unremoved c e) :
    DdlRun c e := by
  cases e with
  | spawn t i => trivial
  | act t pick => exact h
  | env w => exact h.1

theorem ddlRun_ok (c : Cluster net) (e : Event (master net) Request) (h : DdlRun c e) :
    (gateProtocol net).Ok c e := by
  cases e with
  | spawn t i => trivial
  | env w =>
    refine ⟨trivial, fun t => ?_⟩
    show World.lock w = some t ↔ World.lock c.state = some t
    rw [show World.lock w = World.lock c.state from h]
  | act t pick =>
    intro i tr o k ht
    obtain ⟨hup, htry, hack⟩ := h
    exact ⟨etcdUp_of_nextUp hup ht, lastTryTaken_of_not_lost htry ht,
      acknowledged_of_not_deleteFails hack ht⟩

abbrev Disciplined (c : Cluster net) : Prop :=
  AllSafe (gateProtocol net) (fun _ _ _ _ _ => True) c

theorem disciplined_reach {json : SpaceJson} {c₀ c : Cluster net} (h₀ : Disciplined c₀)
    (h : Reach (step (serve json)) DdlRun c₀ c) : Disciplined c :=
  safe_reach (fun t i w _ => safe_gate json t i w) h₀ (h.mono ddlRun_ok)

/-- Who removes the key holds the lock and has found the key absent. -/
theorem Disciplined.entered_of_delete {c : Cluster net} (h : Disciplined c) {i : Request}
    {tr : Trace Op Res} {k : Res (.delete ddlDisabledKey) → Prog Outcome}
    (ht : c.threads t = some ⟨i, tr, .call (.delete ddlDisabledKey) k⟩) :
    World.lock c.state = some t ∧ Entered tr :=
  ⟨((h.pre ht).1 trivial).1, ((h.pre ht).1 trivial).2.2⟩

/-- As long as `t` works with the key up, the key is in the store. -/
def Covered (t : Nat) (c : Cluster net) : Prop :=
  c.All fun u th w => u = t → NoUnlock th.trace → GateUp th.trace →
    World.lock w = some t ∧ Disabled w

theorem covered_step {json : SpaceJson} {c : Cluster net} {e : Event (master net) Request}
    (hsafe : Disciplined c) (hc : Covered t c) (he : Unremoved c e) :
    Covered t (step (serve json) c e) := by
  refine all_step hc ?_ ?_ ?_
  · rintro u i - - - - ⟨v, tr₁, tr₂, htr, -⟩
    exact absurd htr (by simp)
  · intro u pick i tr o k _ hu
    refine ⟨?_, ?_⟩
    · rintro rfl hno hup
      rcases hup.cases with ⟨v, hput⟩ | ⟨hup', hkeep⟩
      · cases (Sigma.mk.inj hput).1
        have hlock := ((hsafe.pre hu).1 trivial).1
        refine ⟨exec_lock_self c.state (.put ddlDisabledKey v) (pick (.put ddlDisabledKey v))
          (fun h => (nomatch h)) hlock, ?_⟩
        exact exec_put_disabled (t := u) c.state v (eq_of_heq (Sigma.mk.inj hput).2)
      · have hno' : NoUnlock tr := fun x hx => hno x (List.mem_append_left _ hx)
        obtain ⟨hlock, hdis⟩ := hc u _ hu rfl hno' hup'
        have hne : o ≠ .unlock := hno _ (List.mem_append_right _ (List.mem_singleton_self _))
        exact ⟨exec_lock_self c.state o (pick o) hne hlock, exec_disabled c.state o (pick o) hkeep hdis⟩
    · rintro v th hvu hv rfl hno hup
      obtain ⟨hlock, hdis⟩ := hc v th hv rfl hno hup
      refine ⟨(exec_lock_other c.state o (pick o) hvu).mpr hlock,
        exec_disabled c.state o (pick o) ?_ hdis⟩
      -- another thread removes the key only under the lock, which is `v`'s
      rintro rfl
      have hother := (hsafe.entered_of_delete hu).1
      rw [hlock] at hother
      exact hvu (Option.some.inj hother)
  · rintro w rfl u th hu hut hno hup
    obtain ⟨hlock, hdis⟩ := hc u th hu hut hno hup
    exact ⟨(show World.lock w = World.lock c.state from he.1).trans hlock, he.2 hdis⟩

/-- The key is there, and whoever holds the lock has not found it absent. -/
def Closed (c : Cluster net) : Prop :=
  Disabled c.state ∧ c.All fun u th w => World.lock w = some u → ¬ Entered th.trace

theorem closed_step {json : SpaceJson} {c : Cluster net} {e : Event (master net) Request}
    (hsafe : Disciplined c) (hc : Closed c) (he : Unremoved c e) :
    Closed (step (serve json) c e) := by
  obtain ⟨hdis, hall⟩ := hc
  refine ⟨state_step (M := master net) (I := fun w => Disabled w) hdis ?_ ?_,
    all_step hall ?_ ?_ ?_⟩
  · intro u pick i tr o k _ hu
    refine exec_disabled c.state o (pick o) ?_ hdis
    rintro rfl
    obtain ⟨hlock, hent⟩ := hsafe.entered_of_delete hu
    exact hall u _ hu hlock hent
  · rintro w rfl
    exact he.2 hdis
  · exact fun u i _ _ _ h => (nomatch h)
  · intro u pick i tr o k _ hu
    refine ⟨fun hlock => ?_, fun v th hvu hv hlock => ?_⟩
    · refine entered_snoc ?_ (not_entered_of_disabled c.state o (pick o) hdis)
      rcases lock_of_exec hlock with hlock | ⟨n, rfl⟩
      · exact hall u _ hu hlock
      · exact (hsafe.pre hu).2.1 n rfl
    · exact hall v th hv ((exec_lock_other c.state o (pick o) hvu).mp hlock)
  · rintro w rfl u th hu hlock
    exact hall u th hu ((show World.lock w = World.lock c.state from he.1).symm.trans hlock)

/-- The thread `t` has not unlocked after a failed PS request. -/
def StillLocked (t : Nat) (c : Cluster net) : Prop :=
  c.All fun u th _ => u = t → FailedPs th.trace → NoUnlock th.trace

/-- The unlock after a failed PS request: the key is up, and the lock becomes free. -/
theorem closed_of_unlock {json : SpaceJson} {c : Cluster net} (hsafe : Disciplined c)
    (hcov : Covered t c) (hno : StillLocked t c) {pick : (o : Op) → Choice net o}
    (he : Unremoved c (.act t pick)) {tr : Trace Op Res} {k : Res .unlock → Prog Outcome}
    (ht : c.threads t = some ⟨i, tr, .call .unlock k⟩) (hfail : FailedPs tr) :
    Closed (step (serve json) c (.act t pick)) := by
  obtain ⟨hlock, hup⟩ := (hsafe.pre ht).2.2 rfl hfail
  have hdis := (hcov t _ ht rfl (hno t _ ht rfl hfail) hup).2
  have hgo : pick .unlock = none := Option.isNone_iff_eq_none.mp (etcdUp_of_nextUp he.1 ht)
  have hfree : World.lock (exec net t c.state .unlock (pick .unlock)).2 = none := by
    simp only [exec]
    rw [if_pos ⟨hgo, hlock⟩]
  simp only [step, ht]
  refine ⟨exec_disabled c.state .unlock (pick .unlock) Op.noConfusion hdis, ?_⟩
  intro u th _ hheld
  cases hfree.symm.trans hheld

theorem stillLocked_step {json : SpaceJson} {c : Cluster net} {e : Event (master net) Request}
    (hsafe : Disciplined c) (hno : StillLocked t c)
    (hleave : ¬ ∃ pick i tr k, e = .act t pick ∧
      c.threads t = some ⟨i, tr, .call .unlock k⟩ ∧ FailedPs tr) :
    StillLocked t (step (serve json) c e) := by
  refine all_step hno ?_ ?_ ?_
  · exact fun u i _ _ _ hfail => absurd hfail failedPs_nil
  · rintro u pick i tr o k rfl hu
    refine ⟨?_, fun v th _ hv => hno v th hv⟩
    rintro rfl hfail
    rw [failedPs_append, failedPs_singleton] at hfail
    have hnotr : NoUnlock tr := by
      rcases hfail with hfail | hfail
      · exact hno u _ hu rfl hfail
      · exact ((hsafe.pre hu).1 hfail.touches).2.1
    refine hnotr.snoc ?_
    rintro rfl
    rcases hfail with hfail | hfail
    · exact hleave ⟨pick, i, tr, k, rfl, hu, hfail⟩
    · exact hfail
  · exact fun w _ u th hu => hno u th hu

/-- **When `t` has unlocked after a failed PS request, the cluster is closed.**  Until then
the key is covered. -/
theorem closed_or_covered {json : SpaceJson} {c₀ c : Cluster net} (h₀ : Disciplined c₀)
    (hnew : c₀.threads t = none) (h : Reach (step (serve json)) Unremoved c₀ c) :
    Disciplined c ∧ (Closed c ∨ (Covered t c ∧ StillLocked t c)) := by
  have hstart : ∀ {J : Nat → Thread Op Res Request Outcome → World net → Prop},
      c₀.All fun u th w => u = t → J u th w := by
    rintro J u th hu rfl
    rw [hnew] at hu
    cases hu
  refine h.invariant (fun c => Disciplined c ∧ (Closed c ∨ (Covered t c ∧ StillLocked t c)))
    ⟨h₀, Or.inr ⟨hstart, hstart⟩⟩ ?_
  rintro c e ⟨hsafe, hc⟩ he
  refine ⟨disciplined_reach hsafe (Reach.next e Reach.start he.ddlRun), ?_⟩
  rcases hc with hclosed | ⟨hcov, hno⟩
  · exact Or.inl (closed_step hsafe hclosed he)
  by_cases hleave : ∃ pick i tr k, e = .act t pick ∧
      c.threads t = some ⟨i, tr, .call .unlock k⟩ ∧ FailedPs tr
  · obtain ⟨pick, i, tr, k, rfl, ht, hfail⟩ := hleave
    exact Or.inl (closed_of_unlock hsafe hcov hno he ht hfail)
  · exact Or.inr ⟨covered_step hsafe hcov he, stillLocked_step hsafe hno hleave⟩

/-- A thread that was not started in `c₁` has found the key and touched nothing. -/
def Refused (c₁ c : Cluster net) : Prop :=
  c.All fun u th _ => c₁.threads u = none →
    ¬ Entered th.trace ∧ ∀ e ∈ th.trace, ¬ Touches e.1

theorem refused_reach {json : SpaceJson} {c₁ c : Cluster net} (hsafe : Disciplined c₁)
    (h₁ : Closed c₁) (h : Reach (step (serve json)) Unremoved c₁ c) :
    Closed c ∧ Refused c₁ c := by
  have hall : Disciplined c ∧ Closed c ∧ Refused c₁ c := by
    refine h.invariant (fun c => Disciplined c ∧ Closed c ∧ Refused c₁ c) ⟨hsafe, h₁, ?_⟩ ?_
    · intro u th hu hnew
      rw [hnew] at hu
      cases hu
    rintro c e ⟨hsafe, hclosed, href⟩ he
    refine ⟨disciplined_reach hsafe (Reach.next e Reach.start he.ddlRun), closed_step hsafe hclosed he,
      all_step href ?_ ?_ ?_⟩
    · exact fun u i _ _ _ => ⟨fun h => (nomatch h), fun e h => (nomatch h)⟩
    · intro u pick i tr o k _ hu
      refine ⟨fun hnew => ?_, fun v th _ hv => href v th hv⟩
      obtain ⟨hent, hquiet⟩ := href u _ hu hnew
      refine ⟨entered_snoc hent (not_entered_of_disabled c.state o (pick o) hclosed.1), ?_⟩
      intro e he htouch
      rcases List.mem_append.mp he with he | he
      · exact hquiet e he htouch
      · rw [List.mem_singleton.mp he] at htouch
        exact hent ((hsafe.pre hu).1 htouch).2.2
    · exact fun w _ u th hu => href u th hu
  exact hall.2

/-! ### Answers -/

/-- Whoever answers with 0 has found the key absent, and whoever called a PS node in vain
has unlocked. -/
def AnswerOk (tr : Trace Op Res) (code : Int) : Prop :=
  (FailedPs tr → ¬ NoUnlock tr) ∧ (code = 0 → Entered tr)

theorem answerOk_refused {tr : Trace Op Res} {code : Int} (h : ∀ e ∈ tr, ¬ Touches e.1)
    (hcode : code ≠ 0) : AnswerOk tr code :=
  ⟨fun ⟨e, he, hfail⟩ => absurd hfail.touches (h e he), fun h0 => absurd h0 hcode⟩

/-- The work of a handler, between the session and the unlock. -/
theorem yields_frame {p : Prog Answer} (hp : p.Yields fun tr ans => ans.code = 0 → Entered tr)
    (tr₀ : Trace Op Res) :
    (p >>= fun ans => perform .unlock >>= fun _ => pure ans).Yields
      fun tr ans => AnswerOk (tr₀ ++ tr) ans.code := by
  refine yields_seq (hp.mono fun tr ans hans => yields_perform fun r => ?_)
  refine ⟨fun _ hno => ?_, fun h0 => ?_⟩
  · exact hno ⟨.unlock, r⟩ (by simp) rfl
  · exact List.mem_append_right _ (List.mem_append_left _ (hans h0))

theorem yields_createLocked (json : SpaceJson) (space : InnerSpace) :
    (createLocked json space).Yields fun tr ans => ans.code = 0 → Entered tr := by
  refine yields_perform fun val => ?_
  rcases val with _ | _ | val
  · exact fun h0 => absurd h0 (by simp)
  · exact (yields_true _).mono fun _ _ _ _ => List.mem_cons_self
  · exact fun h0 => absurd h0 (by simp)

theorem yields_createSpace (json : SpaceJson) (req : Except String ApiSpace) :
    (createSpace json req).Yields fun tr ans => AnswerOk tr ans.code := by
  have hnil : ∀ e ∈ ([] : Trace Op Res), ¬ Touches e.1 := fun e he => (nomatch he)
  cases req with
  | error e => exact answerOk_refused hnil (by simp)
  | ok api =>
    unfold createSpace
    simp only
    cases checkApiSpace api with
    | none => exact answerOk_refused hnil (by simp)
    | some msg =>
      by_cases hmsg : msg ≠ ""
      · simp only [if_pos hmsg]
        exact answerOk_refused hnil (by simp)
      simp only [if_neg hmsg]
      refine yields_perform fun r => ?_
      cases r with
      | error e => exact answerOk_refused (by simp [Touches]) (by simp)
      | ok u =>
        refine yields_frame (yields_seq ((yields_true _).mono fun tr b _ => ?_))
          [⟨.newSession, .ok ()⟩]
        cases b with
        | false => exact fun h0 => absurd h0 (by simp)
        | true =>
          exact (yields_createLocked json _).mono fun tr' ans h h0 =>
            List.mem_append_right _ (h h0)

theorem yields_deleteBody (json : SpaceJson) (req : DeleteSpaceRequest) :
    (deleteBody json req).Yields fun tr ans => ans.code = 0 → Entered tr := by
  refine yields_perform fun detail => ?_
  rcases detail with _ | _ | detail
  · exact fun h0 => absurd h0 (by simp)
  · exact fun h0 => absurd h0 (by simp)
  · refine yields_perform fun val => ?_
    rcases val with _ | _ | val
    · exact fun h0 => absurd h0 (by simp)
    · exact (yields_true _).mono fun _ _ _ _ => List.mem_cons_of_mem _ List.mem_cons_self
    · exact fun h0 => absurd h0 (by simp)

theorem yields_deleteSpace (json : SpaceJson) (req : Except String DeleteSpaceRequest) :
    (deleteSpace json req).Yields fun tr ans => AnswerOk tr ans.code := by
  cases req with
  | error e => exact answerOk_refused (fun e he => (nomatch he)) (by simp)
  | ok req =>
    refine yields_perform fun r => ?_
    cases r with
    | error e => exact answerOk_refused (by simp [Touches]) (by simp)
    | ok u =>
      refine yields_seq ((yields_true _).mono fun tr b _ => ?_)
      exact yields_frame (yields_deleteBody json req) (⟨.newSession, .ok ()⟩ :: tr)

theorem yields_serve (json : SpaceJson) (i : Request) :
    (serve json i).Yields fun tr out => ∀ code, out.ddlCode = some code → AnswerOk tr code := by
  have hans : ∀ {p : Prog Answer}, p.Yields (fun tr ans => AnswerOk tr ans.code) →
      (p >>= fun ans => pure (Outcome.ddl ans)).Yields
        fun tr out => ∀ code, out.ddlCode = some code → AnswerOk tr code := by
    refine fun hp => yields_seq (hp.mono fun tr ans h code hcode => ?_)
    rw [List.append_nil]
    cases hcode
    exact h
  cases i with
  | create req => exact hans (yields_createSpace json req)
  | delete req => exact hans (yields_deleteSpace json req)
  | register req => exact yields_seq ((yields_true _).mono fun _ _ _ code h => (nomatch h))

theorem answerOk_of_reach {json : SpaceJson} {w : World net} {c : Cluster net}
    (h : Reach (step (serve json)) DdlRun (Config.init w) c) {i : Request} {tr : Trace Op Res}
    {ans : Answer} (ht : c.threads t = some ⟨i, tr, .ret (.ddl ans)⟩) : AnswerOk tr ans.code := by
  have hans := reach_yields (yields_serve json) h t _ ht ans.code rfl
  rwa [List.append_nil] at hans

/-- `t` has been answered with a failure after one of its PS requests failed. -/
def failedAnswer (c : Cluster net) (t : Nat) : Bool :=
  match c.threads t with
  | some ⟨_, tr, .ret (.ddl ans)⟩ => decide (ans.code ≠ 0 ∧ FailedPs tr)
  | _ => false

theorem failedAnswer_iff {c : Cluster net} : failedAnswer c t = true ↔
    ∃ i tr ans, c.threads t = some ⟨i, tr, .ret (.ddl ans)⟩ ∧ ans.code ≠ 0 ∧ FailedPs tr := by
  unfold failedAnswer
  constructor
  · intro h
    rcases ht : c.threads t with _ | ⟨i, tr, (ans | ans) | ⟨o, k⟩⟩ <;> rw [ht] at h
    · cases h
    · exact ⟨i, tr, ans, rfl, of_decide_eq_true h⟩
    · cases h
    · cases h
  · rintro ⟨i, tr, ans, ht, hans⟩
    rw [ht]
    exact decide_eq_true hans

/-- **DDL stays disabled after a failure**, in every run in which all calls to etcd succeed,
no delete loses its last attempt at the lock and no PS request of a delete fails.  The
request `t` starts after `c₀` and has been answered with a failure in `c₁`;
from `c₀` on nobody from outside removes the key. -/
theorem ddl_stays_disabled (json : SpaceJson) (w : World net) (c₀ c₁ c : Cluster net) (t : Nat)
    (h₀ : Reach (step (serve json)) DdlRun (Config.init w) c₀) (hnew : c₀.threads t = none)
    (h₁ : Reach (step (serve json)) Unremoved c₀ c₁) (hfail : failedAnswer c₁ t = true)
    (h : Reach (step (serve json)) Unremoved c₁ c) :
    Disabled c.state ∧ ∀ u th, c₁.threads u = none → c.threads u = some th →
      (∀ e ∈ th.trace, ¬ Touches e.1) ∧ ∀ ans, th.rest = .ret (.ddl ans) → ans.code ≠ 0 := by
  have hany : ∀ {c c' : Cluster net}, Reach (step (serve json)) Unremoved c c' →
      Reach (step (serve json)) DdlRun c c' := fun h => h.mono fun _ _ he => he.ddlRun
  obtain ⟨hsafe₁, hclosed⟩ := closed_or_covered
    (disciplined_reach (allSafe_init trivial) h₀) hnew h₁
  have hclosed₁ : Closed c₁ := by
    refine hclosed.resolve_right ?_
    rintro ⟨-, hno⟩
    obtain ⟨i, tr, ans, ht, -, hfailed⟩ := failedAnswer_iff.mp hfail
    exact (answerOk_of_reach (h₀.trans (hany h₁)) ht).1 hfailed (hno t _ ht rfl hfailed)
  obtain ⟨hclosed', href⟩ := refused_reach hsafe₁ hclosed₁ h
  refine ⟨hclosed'.1, ?_⟩
  rintro u ⟨i, tr, rest⟩ hu₁ hu
  refine ⟨(href u _ hu hu₁).2, ?_⟩
  rintro ans rfl h0
  have hans := answerOk_of_reach ((h₀.trans (hany h₁)).trans (hany h)) hu
  exact (href u _ hu hu₁).1 (hans.2 h0)

/-! ### Requests that run alone -/

def replyNet : Network where
  State := Unit
  Choice := Reply
  send _ _ r := (r, ())

theorem failedAnswer_alone {w : World replyNet} {r : Reply} (code : Int)
    (hcode : (soloRun (smooth replyNet sampleTime r) w t i).2.1.ddlCode = some code)
    (hne : code ≠ 0) (hfail : FailedPs (soloRun (smooth replyNet sampleTime r) w t i).1) :
    failedAnswer (alone (smooth replyNet sampleTime r) (Config.init w) t i) t = true := by
  have hthread : (alone (smooth replyNet sampleTime r) (Config.init w) t i).threads t
      = some ⟨i, (soloRun (smooth replyNet sampleTime r) w t i).1,
          .ret (soloRun (smooth replyNet sampleTime r) w t i).2.1⟩ := thread_alone rfl
  cases hout : (soloRun (smooth replyNet sampleTime r) w t i).2.1 with
  | reg ans =>
    rw [hout] at hcode
    cases hcode
  | ddl ans =>
    rw [hout] at hcode
    cases hcode
    refine failedAnswer_iff.mpr ⟨i, _, ans, hthread.trans ?_, hne, hfail⟩
    rw [hout]

theorem reach_alone_create {c : Cluster replyNet} (h : c.threads t = none)
    (req : Except String ApiSpace) (r : Reply) :
    Reach (step (serve goJson)) Unremoved c
      (alone (smooth replyNet sampleTime r) c t (.create req)) := by
  have hrun : ∀ (n : Nat) (c : Cluster replyNet) (tr : Trace Op Res) (p : Prog Outcome),
      c.threads t = some ⟨.create req, tr, p⟩ → RunOk (step (serve goJson)) Unremoved c
        (List.replicate n (.act t (smooth replyNet sampleTime r))) := by
    intro n
    induction n with
    | zero => intro c tr p _; trivial
    | succ n ih =>
      intro c tr p hc
      refine ⟨⟨nextUp_smooth c t sampleTime r, ?_, ?_⟩, ?_⟩
      · simp only [lastTryLost, hc]
      · simp only [deleteFails, hc]
      · have hnext : Reach (step (serve goJson)) anyEvent c
            (step (serve goJson) c (.act t (smooth replyNet sampleTime r))) :=
          Reach.next _ Reach.start trivial
        obtain ⟨⟨i', tr', p'⟩, hc', hlabel, -⟩ := reach_threads hnext hc
        cases hlabel
        exact ih _ tr' p' hc'
  refine reach_of_runOk (soloEvents (smooth replyNet sampleTime r) c.state t (.create req)) c
    Reach.start ⟨trivial, hrun _ _ [] (serve goJson (.create req)) ?_⟩
  simp only [step, h, Config.set, Function.update_self]

def refusal : Reply := { status := { code := 1, msg := "refused" } }

def onePs : World replyNet where
  etcd := startedEtcd.insert (getPsRegisterKey "10.0.0.1" 8081 1) ""
  net := ()

def refusedCreate : Cluster replyNet :=
  alone (smooth replyNet sampleTime refusal) (Config.init onePs) 0 (.create (.ok sampleApi))

/-- A create of another name, to which the node would agree. -/
def laterCreate : Cluster replyNet :=
  alone (smooth replyNet sampleTime {}) refusedCreate 1 (.create (.ok moviesApi))

theorem ddl_stays_disabled_create :
    failedAnswer refusedCreate 0 = true ∧ Disabled laterCreate.state ∧
      ∃ tr out, laterCreate.threads 1 = some ⟨.create (.ok moviesApi), tr, .ret out⟩ ∧
        (∀ e ∈ tr, ¬ Touches e.1) ∧ out.ddlCode ≠ some 0 := by
  have hrun : (soloRun (smooth replyNet sampleTime refusal) onePs 0
        (.create (.ok sampleApi))).2.1.ddlCode = some 100 ∧
      FailedPs (soloRun (smooth replyNet sampleTime refusal) onePs 0 (.create (.ok sampleApi))).1 := by
    decide +kernel
  have hfail : failedAnswer refusedCreate 0 = true :=
    failedAnswer_alone _ hrun.1 (by decide) hrun.2
  have hnew : refusedCreate.threads 1 = none := by
    unfold refusedCreate
    exact threads_alone rfl (by decide)
  have hfirst : Reach (step (serve goJson)) Unremoved (Config.init onePs) refusedCreate :=
    reach_alone_create (c := Config.init onePs) (t := 0) rfl (.ok sampleApi) refusal
  obtain ⟨hdis, hlater⟩ := ddl_stays_disabled goJson onePs (Config.init onePs) refusedCreate
    laterCreate 0 Reach.start rfl hfirst hfail (reach_alone_create hnew (.ok moviesApi) {})
  have hthread : ∃ tr out, laterCreate.threads 1
      = some ⟨.create (.ok moviesApi), tr, .ret out⟩ := by
    unfold laterCreate
    exact ⟨_, _, thread_alone hnew⟩
  obtain ⟨tr, out, hthread⟩ := hthread
  obtain ⟨hquiet, hcode⟩ := hlater 1 _ hnew hthread
  refine ⟨hfail, hdis, tr, out, hthread, hquiet, fun h0 => ?_⟩
  cases out with
  | reg ans => cases h0
  | ddl ans => exact hcode ans rfl (Option.some.inj h0)

/-! ### A delete that fails -/

def createdWorld : World replyNet where
  etcd := (startedEtcd.insert (getPsRegisterKey "10.0.0.1" 8081 1) "").insert
    (getSpaceEtcdKey "database" "images") (goJson.marshal (createdSpace 1))
  net := ()

theorem soloRun_createdWorld :
    soloRun (smooth replyNet sampleTime refusal) createdWorld 0 (.delete (.ok imagesRequest))
      = (deleteTrace refusal createdWorld 0 1, (deleteRest refusal createdWorld 0 1).2) := by
  have hval : createdWorld.etcd[getSpaceEtcdKey imagesRequest.dbName imagesRequest.spaceName]?
      = some (goJson.marshal (createdSpace 1)) := by
    unfold createdWorld imagesRequest
    exact Std.TreeMap.getElem?_insert_self
  exact soloRun_delete rfl hval (by decide +kernel)

def reopened : Cluster replyNet :=
  alone (smooth replyNet sampleTime refusal) (Config.init createdWorld) 0
    (.delete (.ok imagesRequest))

def EtcdSucceeds (c : Cluster net) : Event (master net) Request → Prop
  | .spawn _ _ => True
  | .act t pick => nextUp c t pick = true
  | .env _ => False

theorem reach_alone (c : Cluster replyNet) (t : Nat) (i : Request) (r : Reply) :
    Reach (step (serve goJson)) EtcdSucceeds c (alone (smooth replyNet sampleTime r) c t i) := by
  refine reach_of_runOk (soloEvents (smooth replyNet sampleTime r) c.state t i) c Reach.start
    (runOk_of_forall _ _ fun e he c => ?_)
  rcases List.mem_cons.mp he with rfl | he
  · trivial
  · rw [(List.mem_replicate.mp he).2]
    exact nextUp_smooth c t sampleTime r

/-- **A delete whose node refuses is answered with 100 and leaves DDL enabled.** -/
theorem deleteSpace_enables_ddl :
    failedAnswer reopened 0 = true ∧ ¬ Disabled reopened.state ∧
      ¬ ∀ (c : Cluster replyNet) (t : Nat),
        Reach (step (serve goJson)) EtcdSucceeds (Config.init createdWorld) c →
          failedAnswer c t = true → Disabled c.state := by
  have hrun : (deleteRest refusal createdWorld 0 1).2.1.ddlCode = some 100 ∧
      FailedPs (deleteRest refusal createdWorld 0 1).1 ∧
      ¬ Disabled (deleteRest refusal createdWorld 0 1).2.2 := by decide +kernel
  have hsolo := soloRun_createdWorld
  have hfail : failedAnswer reopened 0 = true := by
    refine failedAnswer_alone 100 ?_ (by decide) ?_
    · rw [hsolo]
      dsimp only
      exact hrun.1
    · rw [hsolo]
      obtain ⟨e, he, hfail⟩ := hrun.2.1
      exact ⟨e, by simp [deleteTrace, he], hfail⟩
  have hstate : ¬ Disabled reopened.state := by
    rw [reopened, state_alone rfl]
    dsimp only [Config.init]
    rw [hsolo]
    dsimp only
    exact hrun.2.2
  exact ⟨hfail, hstate, fun hall => hstate (hall _ 0 (reach_alone _ _ _ _) hfail)⟩

end SimSearch.Master
