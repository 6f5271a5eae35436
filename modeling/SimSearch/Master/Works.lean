import SimSearch.Master.Guarded
import SimSearch.Master.Placed

/-!
# The work of the handlers under the lock

What `createLocked`, `deleteBody` and `registerLocked` do, for any guard that looks at nothing but
the spaces of the store, the keys of the routers and the network (`Guard.OfSpaces`).  Most of their
calls read, or write notes that such a guard does not see (`safe_notes`).  What is left to each
guard are the steps at which the spaces or the network change:

* `CreateParts`: the round of creates, its roll-back, the put of the space and the routers;
* `DeleteParts`: the removal of the space, the routers and the round of deletes.

`OfSpaces.works` puts them together.
-/

namespace SimSearch.Master

open SimSearch.Lib Program

variable {net : Network} {json : SpaceJson} {t : Nat} {i : Request} {α : Type}

def World.withEtcd (w : World net) (e : Std.TreeMap String String) : World net :=
  { w with etcd := e }

/-! ### Notes -/

/-- The operations that read, write notes or draw a space id. -/
def NotingOp : Op → Prop
  | .put key _ => NoteKey key
  | .delete key => key = ddlDisabledKey
  | .newId key => key = genSpaceIdKey
  | .get _ | .scan _ | .now | .order _ => True
  | _ => False

theorem ReadOp.notingOp (o : Op) (h : ReadOp o) : NotingOp o := by
  cases o <;> first | exact h.elim | trivial

theorem NotingOp.not_lockOp {o : Op} (h : NotingOp o) : ¬ LockOp o := by
  intro hlock
  cases o <;> first | exact h.elim | exact hlock.elim

theorem NotingOp.spares {o : Op} (h : NotingOp o) {pre : String}
    (hpre : pre = spacesMataPrefix ∨ pre = routerNodesPrefix) : Spares pre o := by
  cases o with
  | put key val => exact NoteKey.not_startsWith h hpre
  | delete key =>
    cases h
    exact NoteKey.disabled.not_startsWith hpre
  | newId key =>
    cases h
    show startsWith pre genSpaceIdKey = false
    rcases hpre with rfl | rfl <;> decide
  | _ => trivial

theorem NotingOp.net_eq {o : Op} (h : NotingOp o) (w : World net) (c : Choice net o) :
    (exec net t w o c).2.net = w.net := by
  cases o with
  | put key val => cases c <;> rfl
  | delete key => cases c <;> rfl
  | newId key =>
    simp only [exec]
    cases c with
    | some e => rfl
    | none => cases nextId w.etcd[key]? <;> rfl
  | get key => rfl
  | scan pre => rfl
  | now => rfl
  | order n => rfl
  | _ => exact h.elim

theorem RouterKeysOk.exists_routers {e : Std.TreeMap String String} (h : RouterKeysOk e) :
    ∃ routers, routerDeserializeFromByte ((scanEtcd e routerNodesPrefix).map Prod.fst)
      = some routers := by
  refine routerDeserialize_isSome fun key hkey => ?_
  obtain ⟨kv, hkv, rfl⟩ := List.mem_map.mp hkey
  obtain ⟨hval, hpre⟩ := mem_scanEtcd.mp hkv
  exact h kv.1 kv.2 hval hpre

theorem uses_noteAppend {key val : String} {len : Nat} (h : NoteKey key) :
    (putOrAppend key val len).Uses NotingOp := uses_putOrAppend trivial fun _ => h

namespace Guard

variable {G : Guard net}

/-- The guard keeps the store in order, and looks at the spaces, the keys of the routers and the
network. -/
structure OfSpaces (G : Guard net) (json : SpaceJson) : Prop where
  store : ∀ w, G.always w → StoreOk json w.etcd
  agree : ∀ w w', G.same w w' → Agree spacesMataPrefix w.etcd w'.etcd
  ignores : ∀ w w', Agree spacesMataPrefix w.etcd w'.etcd →
    Agree routerNodesPrefix w.etcd w'.etcd → w'.net = w.net →
      G.same w w' ∧ (G.always w → G.always w')

theorem OfSpaces.notingOp (hG : G.OfSpaces json) {o : Op} (ho : NotingOp o) (w : World net)
    (c : Choice net o) : G.same w (exec net t w o c).2 ∧
      (G.always w → G.always (exec net t w o c).2) :=
  hG.ignores _ _ (exec_spares w o c (ho.spares (Or.inl rfl)))
    (exec_spares w o c (ho.spares (Or.inr rfl))) (ho.net_eq w c)

/-- **Notes keep everything.** -/
theorem safe_notes (hG : G.OfSpaces json) {J : World net → Prop}
    (hJ : ∀ w w', J w → G.same w w' → J w') {p : Prog α} (hp : p.Uses NotingOp)
    {tr : Trace Op Res} {w : World net} (hw : Held t J w) :
    Safe G.protocol t i (fun _ _ w => Held t J w) p tr w := by
  refine safe_keeping hJ (fun o ho => ⟨ho.not_lockOp, fun w c halways hw _ _ => ?_⟩) hp hw
  obtain ⟨hsame, hkeeps⟩ := hG.notingOp ho w c
  exact ⟨hkeeps halways, hJ _ _ hw hsame⟩

theorem safe_note (hG : G.OfSpaces json) {J : World net → Prop}
    (hJ : ∀ w w', J w → G.same w w' → J w') {o : Op} (ho : NotingOp o) {tr : Trace Op Res}
    {w : World net} (hw : Held t J w) :
    Safe G.protocol t i (fun _ _ w => Held t J w) (perform o) tr w :=
  safe_notes hG hJ (uses_perform ho) hw

theorem safe_held {J : World net → Prop} (hJ : ∀ w w', J w → G.same w w' → J w') {a : α}
    {tr : Trace Op Res} {w : World net} (hw : Held t J w) :
    Safe G.protocol t i (fun _ _ w => Held t J w) (.ret a) tr w :=
  safe_ret fun _ hr _ => hw.rely hJ hr

/-! ### The nodes of a new space -/

/-- The name is new and the nodes are free. -/
def Chosen (json : SpaceJson) (space : InnerSpace) (idle : List Replica)
    (e : Std.TreeMap String String) : Prop :=
  ¬ Recorded json e (space.dbName, space.spaceName) ∧ Free json idle e

theorem Chosen.agree {space : InnerSpace} {idle : List Replica}
    {e e' : Std.TreeMap String String} (h : Chosen json space idle e)
    (hagree : Agree spacesMataPrefix e e') : Chosen json space idle e' :=
  ⟨fun hrec => h.1 (hrec.shrinks hagree.shrinks), h.2.shrinks hagree.shrinks⟩

/-- **The nodes that come back are free, and the name is new.** -/
theorem safe_validateIdle (hG : G.OfSpaces json) (space : InnerSpace) {J : World net → Prop}
    (hJ : ∀ w w', J w → G.same w w' → J w') {tr : Trace Op Res} {w : World net}
    (hw : Held t J w) :
    Safe G.protocol t i (fun r _ w => Held t J w ∧
        ∀ idle, r = some (.ok idle) → Chosen json space idle w.etcd)
      (validateNameAndGetIdlePsNode json space) tr w := by
  have hret : ∀ {r : Option (Except String (List Replica))} {tr : Trace Op Res} {w : World net},
      Held t J w → (∀ idle, r = some (.ok idle) → Chosen json space idle w.etcd) →
      Safe G.protocol t i (fun r _ w => Held t J w ∧
        ∀ idle, r = some (.ok idle) → Chosen json space idle w.etcd) (.ret r) tr w :=
    fun hw hr => safe_ret fun _ hs _ =>
      ⟨hw.rely hJ hs, fun idle hidle => (hr idle hidle).agree (hG.agree _ _ (hs.2 hw.1))⟩
  have hscan : ∀ pre, (scanOrEmpty pre).Uses NotingOp := fun pre => uses_scanOrEmpty trivial
  have hvisit : ∀ {β : Type} (l : List β), (visit l).Uses NotingOp := fun l => uses_visit trivial
  refine safe_seq ((safe_notes hG hJ (hscan _) hw).mono fun psKeys tr₁ w₁ _ hw₁ => ?_)
  refine safe_seq ((safe_notes hG hJ (hscan _) hw₁).mono fun errPsKeys tr₂ w₂ _ hw₂ => ?_)
  cases hnodes : repDeserializeFromByte (psKeys.map Prod.fst) with
  | none =>
    refine hret hw₂ ?_
    rintro idle ⟨⟩
  | some nodes =>
    cases repDeserializeFromByte (errPsKeys.map Prod.fst) with
    | none =>
      refine hret hw₂ ?_
      rintro idle ⟨⟩
    | some errNodes =>
      refine safe_seq (safe_perform fun w₃ hr hinv => ⟨trivial, fun c hc => ?_⟩)
      have hw₃ := hw₂.rely hJ hr
      refine ⟨fair_holder hw₃.1 hw₃.1 hinv.always, ?_⟩
      obtain rfl : c = none := Option.isNone_iff_eq_none.mp hc.1
      -- from here on the spaces are those of the scan
      have hJ' : ∀ w w' : World net,
          J w ∧ Agree spacesMataPrefix (World.etcd w₃) w.etcd → G.same w w' →
            J w' ∧ Agree spacesMataPrefix (World.etcd w₃) w'.etcd :=
        fun w w' h hs => ⟨hJ w w' h.1 hs, h.2.trans (hG.agree w w' hs)⟩
      have hw₄ : Held t (fun w => J w ∧ Agree spacesMataPrefix (World.etcd w₃) w.etcd) w₃ :=
        ⟨hw₃.1, hw₃.2, fun _ _ => rfl⟩
      refine safe_ret fun w₄ hr₄ _ => ?_
      have hw₅ := hw₄.rely hJ' hr₄
      by_cases hname : space.fullName ∈ (deserializeFromByteList json
          ((scanEtcd (World.etcd w₃) spacesMataPrefix).map Prod.snd)).map Prod.fst
      · simp only [if_pos hname]
        refine hret ⟨hw₅.1, hw₅.2.1⟩ ?_
        rintro idle ⟨⟩
      simp only [if_neg hname]
      refine safe_seq ((safe_yields (safe_notes hG hJ' (hvisit _) hw₅) (returns_visit _)).mono ?_)
      rintro busy tr₅ w₆ - ⟨hw₆, -, -, hbusy⟩
      refine safe_seq ((safe_yields (safe_notes hG hJ' (hvisit _) hw₆) (returns_visit _)).mono ?_)
      rintro nodes' tr₆ w₇ - ⟨hw₇, -, -, hperm⟩
      refine hret ⟨hw₇.1, hw₇.2.1⟩ fun idle hidle => Chosen.agree ?_ hw₇.2.2
      cases hidle
      refine ⟨fun hrec => hname ?_, ?_⟩
      · -- a recorded name would be among those of the scan
        obtain ⟨key, val, hval, hpre, hnames⟩ := hrec
        obtain ⟨hdb, hsp⟩ := Prod.mk.inj hnames
        rw [mem_keys_deserializeFromByteList]
        refine ⟨val, List.mem_map.mpr ⟨(key, val), mem_scanEtcd.mpr ⟨hval, hpre⟩, rfl⟩, ?_⟩
        rw [InnerSpace.fullName, InnerSpace.fullName, hdb, hsp]
      · exact (hG.store _ hinv.always).free_idle ((psNodes_repDeserialize hnodes).perm hperm) hbusy

/-! ### A create -/

/-- `createFilled` ends with an empty text and the space `sp` published, or in a good state. -/
structure Filled (G : Guard net) (Told : InnerSpace → World net → Prop) (t : Nat)
    (r : Option (InnerSpace × Bool × String)) (w : World net) : Prop where
  told : ∀ sp abled, r = some (sp, abled, "") → Held t (Told sp) w
  good : (∀ sp abled, r ≠ some (sp, abled, "")) → Held t G.good w

/-- What the round of creates leaves: `D` if all nodes have acknowledged, `U` if some have not. -/
structure CreateEnd (G : Guard net) (D U : World net → Prop) (t : Nat)
    (failed : Option (List Nat)) (w : World net) : Prop where
  panic : failed = none → Held t G.good w
  done : failed = some [] → Held t D w
  undone : ∀ j js, failed = some (j :: js) → Held t U w

/-- **`createFilled`**, from its round, its roll-back and the put of the space. -/
theorem safe_createFilled (hG : G.OfSpaces json) {Told : InnerSpace → World net → Prop}
    (htold : ∀ sp w w', Told sp w → G.same w w' → Told sp w')
    {J D U : World net → Prop} (hJ : ∀ w w', J w → G.same w w' → J w')
    (hD : ∀ w w', D w → G.same w w' → D w') {sp : InnerSpace}
    (hround : ∀ (tr : Trace Op Res) (w : World net), Held t J w → Safe G.protocol t i
      (fun failed _ w => CreateEnd G D U t failed w) (parallelCreatePsSpace sp) tr w)
    (hundo : ∀ (p : Prog (Option (Bool × String))), p.Uses (UndoOp sp.dbName sp.spaceName) →
      ∀ (tr : Trace Op Res) (w : World net), Held t U w →
        Safe G.protocol t i (fun _ _ w => Held t G.good w) p tr w)
    (hput : ∀ w : World net, G.always w → D w → ∀ e,
      e = w.etcd.insert (getSpaceEtcdKey sp.dbName sp.spaceName) (json.marshal sp) →
        G.always (w.withEtcd e) ∧ Told sp (w.withEtcd e))
    (pre : String) {tr : Trace Op Res} {w : World net} (hw : Held t J w) :
    Safe G.protocol t i (fun r _ w => Filled G Told t r w) (createFilled json pre sp) tr w := by
  refine safe_seq ((safe_note hG hJ (o := .put ddlDisabledKey _) NoteKey.disabled hw).mono
    fun _ tr₁ w₁ _ hw₁ => ?_)
  refine safe_seq ((hround tr₁ w₁ hw₁).mono fun failed tr₂ w₂ _ hend => ?_)
  rcases failed with _ | _ | ⟨j, js⟩
  · refine safe_ret fun w₃ hr _ => ⟨?_, fun _ => (hend.panic rfl).rely (G.good_of_same) hr⟩
    rintro sp' abled ⟨⟩
  · refine safe_perform fun w₃ hr hinv => ⟨trivial, fun c hc => ?_⟩
    obtain rfl : c = none := Option.isNone_iff_eq_none.mp hc.1
    have hw₃ := (hend.done rfl).rely hD hr
    obtain ⟨halways, hnew⟩ := hput w₃ hinv.always hw₃.2 _ rfl
    refine ⟨fair_holder hw₃.1 hw₃.1 halways, ?_⟩
    have hw₄ : Held t (Told sp) (exec net t w₃ (.put (getSpaceEtcdKey sp.dbName sp.spaceName)
        (json.marshal sp)) none).2 := ⟨hw₃.1, hnew⟩
    refine safe_seq ((safe_note hG (htold sp) (o := .delete ddlDisabledKey) rfl hw₄).mono
      fun _ tr₄ w₅ _ hw₅ => safe_ret fun w₆ hr₆ _ => ⟨?_, fun hne => absurd rfl (hne sp true)⟩)
    rintro sp' abled ⟨⟩
    exact hw₅.rely (htold sp) hr₆
  · have htext : pre ++ ", Create ps space failed, deadly error; " ≠ "" :=
      append_ne_empty (by decide)
    have hfailed := hundo _ (uses_createFailed (NoteKey.errSpace sp.dbName sp.spaceName sp.id)
      (pre ++ ", Create ps space failed, deadly error; ") (j :: js)) tr₂ w₂ (hend.undone j js rfl)
    refine safe_seq ((safe_yields hfailed (returns_createFailed sp _ _ _)).mono ?_)
    rintro r tr₃ w₃ - ⟨hw₃, -, -, hr⟩
    refine safe_ret fun w₄ hr₄ _ =>
      ⟨fun sp' abled hsome => ?_, fun _ => hw₃.rely G.good_of_same hr₄⟩
    obtain ⟨x, hx, heq⟩ := Option.map_eq_some_iff.mp hsome
    rw [hr x hx] at heq
    exact absurd (congrArg (fun r => r.2.2) heq) htext

/-- The steps of a create at which the spaces or the network change.  `Told` is the state between
the put of the space and the requests to the routers. -/
structure CreateParts (G : Guard net) (json : SpaceJson) (Told : InnerSpace → World net → Prop) :
    Prop where
  stable : ∀ sp w w', Told sp w → G.same w w' → Told sp w'
  filled : ∀ (space : InnerSpace) (idle : List Replica) (time : String) (id : Int) (pre : String),
    nameValidate space.dbName = "" → nameValidate space.spaceName = "" → space.partitions = [] →
    ∀ (t : Nat) (i : Request) (tr : Trace Op Res) (w : World net),
      Held t (fun w => G.good w ∧ Chosen json space idle w.etcd) w →
      Safe G.protocol t i (fun r _ w => Filled G Told t r w)
        (createFilled json pre (filledSpace space idle time id)) tr w
  routers : ∀ (sp : InnerSpace) (t : Nat) (i : Request) (tr : Trace Op Res) (w : World net),
    Held t (Told sp) w → Safe G.protocol t i (fun _ _ w => Held t G.good w) (addRouterSpace sp) tr w

theorem repairs_create (hG : G.OfSpaces json) {Told : InnerSpace → World net → Prop}
    (h : CreateParts G json Told) {api : ApiSpace} (hcheck : checkApiSpace api = some "") :
    G.Repairs (createLocked json (apiSpaceToInnerSpace json api)) := by
  intro t i tr w hw
  obtain ⟨hdb, hsp, -, -, hparts⟩ := checkApiSpace_ok hcheck
  have hgood := G.good_of_same
  refine safe_seq ((safe_note hG hgood (o := .get ddlDisabledKey) trivial hw).mono
    fun val tr₁ w₁ _ hw₁ => ?_)
  rcases val with _ | _ | val
  · exact safe_held hgood hw₁
  · refine safe_seq ((safe_validateIdle hG (apiSpaceToInnerSpace json api) hgood hw₁).mono ?_)
    rintro r tr₂ w₂ - ⟨hw₂, hidle⟩
    rcases r with _ | _ | idle
    · exact safe_held hgood hw₂
    · exact safe_held hgood hw₂
    have hchosen : ∀ w w' : World net,
        G.good w ∧ Chosen json (apiSpaceToInnerSpace json api) idle w.etcd → G.same w w' →
          G.good w' ∧ Chosen json (apiSpaceToInnerSpace json api) idle w'.etcd :=
      fun w w' hw hs => ⟨hgood w w' hw.1 hs, hw.2.agree (hG.agree w w' hs)⟩
    have himpl : Safe G.protocol t i (fun r _ w => Filled G Told t r w)
        (createPsSpaceImpl json (apiSpaceToInnerSpace json api) idle) tr₂ w₂ := by
      have hw₂' := And.intro hw₂.1 (And.intro hw₂.2 (hidle idle rfl))
      refine safe_seq ((safe_note hG hchosen (o := .now) trivial hw₂').mono
        fun time tr₃ w₃ _ hw₃ => ?_)
      by_cases hlen : (idle.length : Int) < (apiSpaceToInnerSpace json api).partitionNum
          * (apiSpaceToInnerSpace json api).replicaNum
      · simp only [if_pos hlen]
        refine safe_ret fun w₄ hr _ => ⟨fun sp abled hsome => ?_, fun _ => ?_⟩
        · have htext := congrArg (fun r => r.2.2) (Option.some.inj hsome)
          exact absurd htext (append_ne_empty (by decide))
        · exact ⟨(hw₃.rely hchosen hr).1, (hw₃.rely hchosen hr).2.1⟩
      · simp only [if_neg hlen]
        refine safe_seq ((safe_note hG hchosen (o := .newId genSpaceIdKey) rfl hw₃).mono
          fun id tr₄ w₄ _ hw₄ => ?_)
        exact h.filled _ idle time _ _ hdb hsp hparts t i tr₄ w₄ hw₄
    refine safe_seq (himpl.mono fun r tr₃ w₃ _ hfilled => ?_)
    rcases r with _ | ⟨sp, abled, msg⟩
    · refine safe_held hgood (hfilled.good ?_)
      rintro sp abled ⟨⟩
    · by_cases hmsg : msg ≠ ""
      · simp only [if_pos hmsg]
        refine safe_held hgood (hfilled.good ?_)
        rintro sp' abled' ⟨⟩
        exact hmsg rfl
      · simp only [if_neg hmsg]
        rw [not_not.mp hmsg] at hfilled
        refine safe_seq ((h.routers sp t i tr₃ w₃ (hfilled.told sp abled rfl)).mono
          fun r tr₄ w₄ _ hw₄ => ?_)
        cases r <;> exact safe_held hgood hw₄
  · exact safe_held hgood hw₁

/-! ### A delete -/

/-- The steps of a delete at which the spaces or the network change.  `Erased` is the state after
the removal of the space, and `Untold` the one when the routers know of it. -/
structure DeleteParts (G : Guard net) (json : SpaceJson) (req : DeleteSpaceRequest)
    (detail : String) (Erased Untold : World net → Prop) : Prop where
  erase : ∀ w : World net, G.always w → G.good w →
    SpaceAt w.etcd (getSpaceEtcdKey req.dbName req.spaceName) detail →
      ∀ e, e = w.etcd.erase (getSpaceEtcdKey req.dbName req.spaceName) →
        G.always (w.withEtcd e) ∧ Erased (w.withEtcd e)
  routers : ∀ (t : Nat) (i : Request) (tr : Trace Op Res) (w : World net), Held t Erased w →
    Safe G.protocol t i
      (fun r _ w => (r = none → Held t G.good w) ∧ (r = some () → Held t Untold w))
      (deleteRouterSpace req.dbName req.spaceName) tr w
  nodes : ∀ (t : Nat) (i : Request) (tr : Trace Op Res) (w : World net), Held t Untold w →
    Safe G.protocol t i (fun _ _ w => Held t G.good w)
      (parallelDeletePsSpace (json.unmarshal detail)) tr w

theorem safe_deleteFound (hG : G.OfSpaces json) {req : DeleteSpaceRequest} {detail : String}
    {Erased Untold : World net → Prop} (h : DeleteParts G json req detail Erased Untold)
    {tr : Trace Op Res} {w : World net}
    (hw : Held t (fun w => G.good w ∧
      SpaceAt w.etcd (getSpaceEtcdKey req.dbName req.spaceName) detail) w) :
    Safe G.protocol t i (fun _ _ w => Held t G.good w) (deleteFound json req detail) tr w := by
  have hgood := G.good_of_same
  have hfound : ∀ w w' : World net, G.good w ∧
      SpaceAt w.etcd (getSpaceEtcdKey req.dbName req.spaceName) detail → G.same w w' →
        G.good w' ∧ SpaceAt w'.etcd (getSpaceEtcdKey req.dbName req.spaceName) detail :=
    fun w w' hw hs => ⟨hgood w w' hw.1 hs,
      (hG.agree w w' hs _ hw.2.2).trans hw.2.1, hw.2.2⟩
  refine safe_seq ((safe_note hG hfound (o := .put _ detail) (NoteKey.deletedSpace _ _ _) hw).mono
    fun _ tr₁ w₁ _ hw₁ => ?_)
  refine safe_seq ((safe_note hG hfound (o := .put ddlDisabledKey _) NoteKey.disabled hw₁).mono
    fun _ tr₂ w₂ _ hw₂ => ?_)
  refine safe_perform fun w₃ hr hinv => ⟨trivial, fun c hc => ?_⟩
  obtain rfl : c = none := Option.isNone_iff_eq_none.mp hc.1
  obtain ⟨hlock, hgood₃, hat⟩ := hw₂.rely hfound hr
  obtain ⟨halways, herased⟩ := h.erase w₃ hinv.always hgood₃ hat _ rfl
  refine ⟨fair_holder hlock hlock halways, ?_⟩
  have hdel : ((master net).exec t w₃ (.delete (getSpaceEtcdKey req.dbName req.spaceName))
      none).1 = .ok () := by
    have hcontains :
        (World.etcd w₃).contains (getSpaceEtcdKey req.dbName req.spaceName) = true := by
      rw [Std.TreeMap.contains_eq_isSome_getElem?, hat.1]
      rfl
    exact if_pos hcontains
  simp only [hdel]
  have hw₄ : Held t Erased (exec net t w₃ (.delete (getSpaceEtcdKey req.dbName req.spaceName))
      none).2 := ⟨hlock, herased⟩
  refine safe_seq ((h.routers t i _ _ hw₄).mono fun r tr₃ w₄ _ hrouters => ?_)
  cases r with
  | none => exact safe_held hgood (hrouters.1 rfl)
  | some u =>
    refine safe_seq ((h.nodes t i _ _ (hrouters.2 rfl)).mono fun failed tr₄ w₅ _ hw₅ => ?_)
    refine safe_notes hG hgood ?_ hw₅
    rcases failed with _ | _ | ⟨j, js⟩
    · trivial
    · exact uses_call rfl fun _ => uses_seq (uses_noteAppend (NoteKey.deletedSpace _ _ _))
        fun _ => trivial
    · refine uses_seq (uses_putNodesErrInfo (fun _ _ _ => trivial)
        (fun ip port id _ => NoteKey.errPsNode ip port id) _ _) fun nodes => ?_
      cases nodes with
      | none => trivial
      | some nodes =>
        exact uses_seq (uses_noteAppend (NoteKey.errSpace _ _ _)) fun _ =>
          uses_call rfl fun _ => trivial

theorem repairs_delete (hG : G.OfSpaces json) (req : DeleteSpaceRequest)
    (h : ∀ detail, ∃ Erased Untold, DeleteParts G json req detail Erased Untold) :
    G.Repairs (deleteBody json req) := by
  intro t i tr w hw
  have hgood := G.good_of_same
  refine safe_perform fun w₁ hr hinv => ⟨trivial, fun c hc => ?_⟩
  obtain ⟨hlock, hgood₁⟩ := hw.rely hgood hr
  refine ⟨fair_holder hlock hlock hinv.always, ?_⟩
  obtain rfl : c = none := Option.isNone_iff_eq_none.mp hc.1
  have hget : ((master net).exec t w₁ (.get (getSpaceEtcdKey req.dbName req.spaceName)) none).1
      = .ok (World.etcd w₁)[getSpaceEtcdKey req.dbName req.spaceName]? := rfl
  simp only [hget]
  cases hval : (World.etcd w₁)[getSpaceEtcdKey req.dbName req.spaceName]? with
  | none => exact safe_held hgood ⟨hlock, hgood₁⟩
  | some detail =>
    obtain ⟨Erased, Untold, hparts⟩ := h detail
    have hat : SpaceAt (World.etcd w₁) (getSpaceEtcdKey req.dbName req.spaceName) detail :=
      ⟨hval, startsWith_getSpaceEtcdKey _ _⟩
    have hfound : ∀ w w' : World net, G.good w ∧
        SpaceAt w.etcd (getSpaceEtcdKey req.dbName req.spaceName) detail → G.same w w' →
          G.good w' ∧ SpaceAt w'.etcd (getSpaceEtcdKey req.dbName req.spaceName) detail :=
      fun w w' hw hs => ⟨hgood w w' hw.1 hs, (hG.agree w w' hs _ hw.2.2).trans hw.2.1, hw.2.2⟩
    refine safe_seq ((safe_note hG hfound (o := .get ddlDisabledKey) trivial
      ⟨hlock, hgood₁, hat⟩).mono fun gate tr₃ w₃ _ hw₃ => ?_)
    rcases gate with _ | _ | gate
    · exact safe_held hgood ⟨hw₃.1, hw₃.2.1⟩
    · exact safe_deleteFound hG hparts hw₃
    · exact safe_held hgood ⟨hw₃.1, hw₃.2.1⟩

/-- **All requests**, from the steps at which the spaces or the network change. -/
theorem OfSpaces.works (hG : G.OfSpaces json) {Told : InnerSpace → World net → Prop}
    (hcreate : CreateParts G json Told)
    (hdelete : ∀ req detail, ∃ Erased Untold, DeleteParts G json req detail Erased Untold) :
    G.Works json where
  create _ hcheck := repairs_create hG hcreate hcheck
  delete req := repairs_delete hG req (hdelete req)
  register req _ _ _ _ hw :=
    safe_notes hG G.good_of_same ((uses_registerLocked json req).mono ReadOp.notingOp) hw

end Guard

end SimSearch.Master
