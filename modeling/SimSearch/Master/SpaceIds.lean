import SimSearch.Master.Rollback
import SimSearch.Master.Mutex
import SimSearch.Lib.Tickets

/-!
# The ids of spaces

`CreatePsSpaceImpl` draws the id of a new space with `NewIDGenerate` and drops its error:
the id is then `0`, which is also the first id that is drawn.

`recordsDrawn_serve` says where the id in a stored space comes from.  `idTicket` makes the
counter in etcd a source of tickets, and `space_ids_unique` follows: when every
`NewIDGenerate` goes through and the counter does not wrap, no two creations have
recorded the same id.
-/

namespace SimSearch.Master

open SimSearch.Lib Program

/-! ### The id that a create records -/

def drawnId : Except String Int → Int
  | .ok n => n
  | .error _ => 0

/-- Every space that the calls store has the id that they drew. -/
def RecordsDrawn (json : SpaceJson) (tr : Trace Op Res) : Prop :=
  ∀ db sp val r, (⟨.put (getSpaceEtcdKey db sp) val, r⟩ : Σ o, Res o) ∈ tr →
    ∃ x, (⟨.newId genSpaceIdKey, x⟩ : Σ o, Res o) ∈ tr ∧
      ∃ space : InnerSpace, val = json.marshal space ∧ space.id = drawnId x

variable {json : SpaceJson}

theorem RecordsDrawn.append {tr tr' : Trace Op Res} (h : RecordsDrawn json tr)
    (h' : RecordsDrawn json tr') : RecordsDrawn json (tr ++ tr') := by
  intro db sp val r hmem
  rcases List.mem_append.mp hmem with hmem | hmem
  · obtain ⟨x, hx, hspace⟩ := h db sp val r hmem
    exact ⟨x, List.mem_append_left _ hx, hspace⟩
  · obtain ⟨x, hx, hspace⟩ := h' db sp val r hmem
    exact ⟨x, List.mem_append_right _ hx, hspace⟩

theorem recordsDrawn_seq {α β : Type} {p : Prog α} {f : α → Prog β}
    (hp : p.Yields fun tr _ => RecordsDrawn json tr)
    (hf : ∀ a, (f a).Yields fun tr _ => RecordsDrawn json tr) :
    (p >>= f).Yields fun tr _ => RecordsDrawn json tr :=
  yields_seq (hp.mono fun _ a h => (hf a).mono fun _ _ h' => h.append h')

def SpacePut (o : Op) : Prop := ∃ db sp val, o = .put (getSpaceEtcdKey db sp) val

theorem recordsDrawn_uses {α : Type} {p : Prog α} (hp : p.Uses fun o => ¬ SpacePut o) :
    p.Yields fun tr _ => RecordsDrawn json tr :=
  (yields_uses hp).mono fun _ _ h db sp val _ hmem => absurd ⟨db, sp, val, rfl⟩ (h _ hmem)

theorem recordsDrawn_ret {α : Type} (a : α) :
    (pure a : Prog α).Yields fun tr _ => RecordsDrawn json tr := fun _ _ _ _ h => nomatch h

theorem NoteKey.ne_space {key : String} (h : NoteKey key) (db sp : String) :
    key ≠ getSpaceEtcdKey db sp := by
  rintro rfl
  have hno := h.not_startsWith (Or.inl rfl)
  rw [startsWith_getSpaceEtcdKey] at hno
  cases hno

theorem CreateOp.not_spacePut {db sp : String} (o : Op) (h : CreateOp db sp o) : ¬ SpacePut o := by
  rintro ⟨db', sp', val, rfl⟩
  exact NoteKey.ne_space h db' sp' rfl

theorem LockOp.not_spacePut (o : Op) (h : LockOp o) : ¬ SpacePut o := by
  rintro ⟨db, sp, val, rfl⟩
  exact h

theorem DeleteOp.not_spacePut {db sp : String} (o : Op) (h : DeleteOp db sp o) : ¬ SpacePut o := by
  rintro ⟨db', sp', val, rfl⟩
  rcases h with h | h | h
  · exact NoteKey.ne_space h db' sp' rfl
  · cases h
  · cases h

theorem ReadOp.not_spacePut (o : Op) (h : ReadOp o) : ¬ SpacePut o :=
  CreateOp.not_spacePut o (@ReadOp.createOp "" "" o h)

/-- A create stores the space with the id that it drew. -/
theorem recordsDrawn_createPsSpaceImpl (space : InnerSpace) (idle : List Replica) :
    (createPsSpaceImpl json space idle).Yields fun tr _ => RecordsDrawn json tr := by
  refine yields_perform fun time => ?_
  by_cases hlen : (idle.length : Int) < space.partitionNum * space.replicaNum
  · rw [if_pos hlen]
    rintro db sp val r hmem
    rcases List.mem_cons.mp hmem with h | h <;> cases h
  · rw [if_neg hlen]
    refine yields_perform fun x => ?_
    have huses : ∀ n, (createFilled json (createLogPrefix space.dbName space.spaceName)
        (filledSpace space idle time n)).Uses fun o => ∀ db sp val,
          o = .put (getSpaceEtcdKey db sp) val → val = json.marshal (filledSpace space idle time n) := by
      intro n
      refine uses_createFilled_of (fun o ho db sp val hput => ?_) ?_ ?_
      · exact absurd ⟨db, sp, val, hput⟩ (CreateOp.not_spacePut o ho)
      · exact fun db sp val hput => (Op.put.inj hput).2.symm
      · intro db sp val hput
        cases hput
    refine (yields_uses (huses _)).mono fun tr _ h db sp val r hmem => ?_
    rcases List.mem_cons.mp hmem with heq | hmem
    · cases heq
    rcases List.mem_cons.mp hmem with heq | hmem
    · cases heq
    refine ⟨x, by simp, _, h _ hmem db sp val rfl, ?_⟩
    cases x <;> rfl

theorem recordsDrawn_createLocked (space : InnerSpace) :
    (createLocked json space).Yields fun tr _ => RecordsDrawn json tr := by
  refine recordsDrawn_seq (recordsDrawn_uses (uses_perform fun h => ?_)) fun val => ?_
  · obtain ⟨db, sp, val, h⟩ := h
    cases h
  rcases val with e | _ | val
  · exact recordsDrawn_ret _
  · refine recordsDrawn_seq (recordsDrawn_uses ((uses_validateName json space).mono
      ReadOp.not_spacePut)) fun idle => ?_
    rcases idle with _ | msg | idle
    · exact recordsDrawn_ret _
    · exact recordsDrawn_ret _
    refine recordsDrawn_seq (recordsDrawn_createPsSpaceImpl space idle) fun res => ?_
    rcases res with _ | ⟨sp, abled, msg⟩
    · exact recordsDrawn_ret _
    · by_cases hmsg : msg ≠ ""
      · simp only [if_pos hmsg]
        exact recordsDrawn_ret _
      · simp only [if_neg hmsg]
        refine recordsDrawn_seq (recordsDrawn_uses ((uses_addRouterSpace sp).mono
          CreateOp.not_spacePut)) fun r => ?_
        cases r <;> exact recordsDrawn_ret _
  · exact recordsDrawn_ret _

theorem recordsDrawn_unlock {α : Type} (a : α) :
    (perform .unlock >>= fun _ => pure a : Prog α).Yields fun tr _ => RecordsDrawn json tr :=
  recordsDrawn_uses (uses_call (LockOp.not_spacePut _ trivial) fun _ => trivial)

/-- **A stored space has the id that its request drew.** -/
theorem recordsDrawn_serve (json : SpaceJson) (i : Request) :
    (serve json i).Yields fun tr _ => RecordsDrawn json tr := by
  have hsession : (perform .newSession).Yields fun tr _ => RecordsDrawn json tr :=
    recordsDrawn_uses (uses_perform (LockOp.not_spacePut _ trivial))
  have hlock : (tryLock 20).Yields fun tr _ => RecordsDrawn json tr :=
    recordsDrawn_uses ((uses_tryLock 20).mono LockOp.not_spacePut)
  rcases i with (_ | api) | (_ | req) | (_ | req)
  · exact recordsDrawn_ret _
  · refine recordsDrawn_seq ?_ fun _ => recordsDrawn_ret _
    unfold createSpace
    simp only
    cases checkApiSpace api with
    | none => exact recordsDrawn_ret _
    | some msg =>
      by_cases hmsg : msg ≠ ""
      · simp only [if_pos hmsg]
        exact recordsDrawn_ret _
      · simp only [if_neg hmsg]
        refine recordsDrawn_seq hsession fun r => ?_
        cases r with
        | error e => exact recordsDrawn_ret _
        | ok u =>
          refine recordsDrawn_seq (recordsDrawn_seq hlock fun b => ?_) recordsDrawn_unlock
          cases b with
          | false => exact recordsDrawn_ret _
          | true => exact recordsDrawn_createLocked _
  · exact recordsDrawn_ret _
  · refine recordsDrawn_seq (recordsDrawn_seq hsession fun r => ?_) fun _ => recordsDrawn_ret _
    cases r with
    | error e => exact recordsDrawn_ret _
    | ok u =>
      refine recordsDrawn_seq hlock fun _ => recordsDrawn_seq ?_ recordsDrawn_unlock
      exact recordsDrawn_uses ((uses_deleteBody json req).mono DeleteOp.not_spacePut)
  · exact recordsDrawn_ret _
  · refine recordsDrawn_seq (recordsDrawn_seq hsession fun r => ?_) fun _ => recordsDrawn_ret _
    cases r with
    | error e => exact recordsDrawn_ret _
    | ok u =>
      refine recordsDrawn_seq (recordsDrawn_seq hlock fun b => ?_) recordsDrawn_unlock
      cases b with
      | false => exact recordsDrawn_ret _
      | true => exact recordsDrawn_uses ((uses_registerLocked json req).mono ReadOp.not_spacePut)

/-! ### The counter -/

variable {net : Network}

def drawn : (Σ o, Res o) → Option Int
  | ⟨.newId key, .ok n⟩ => if key = genSpaceIdKey then some n else none
  | _ => none

def IdUsed (w : World net) (n : Int) : Prop :=
  ∃ v cur, w.etcd[genSpaceIdKey]? = some v ∧ parseInt64 v = some cur ∧ n ≤ cur

/-- An id was drawn, and the counter did not wrap. -/
def idOk : Except String Int → Bool
  | .ok n => n ≠ -2 ^ 63
  | .error _ => false

def nextIdOk (c : Cluster net) (t : Nat) (pick : (o : Op) → Choice net o) : Bool :=
  match c.threads t with
  | some ⟨_, _, .call (.newId key) _⟩ =>
    idOk (exec net t c.state (.newId key) (pick (.newId key))).1
  | _ => true

/-- Every `NewIDGenerate` goes through without wrapping, and nobody from outside writes the
counter. -/
def IdsDrawn (c : Cluster net) : Event (master net) Request → Prop
  | .spawn _ _ => True
  | .act t pick => nextIdOk c t pick = true
  | .env w => (World.etcd w)[genSpaceIdKey]? = (World.etcd c.state)[genSpaceIdKey]?

instance (c : Cluster net) : ∀ e, Decidable (IdsDrawn c e)
  | .spawn _ _ => instDecidableTrue
  | .act t pick => inferInstanceAs (Decidable (nextIdOk c t pick = true))
  | .env w => inferInstanceAs
      (Decidable ((World.etcd w)[genSpaceIdKey]? = (World.etcd c.state)[genSpaceIdKey]?))

theorem nextId_spec {old : Option String} {n : Int} (h : nextId old = some n) (hn : n ≠ -2 ^ 63) :
    GoInt n ∧ ∀ v cur, old = some v → parseInt64 v = some cur → n = cur + 1 := by
  cases old with
  | none =>
    cases h
    exact ⟨by decide, fun v cur hv => nomatch hv⟩
  | some v =>
    unfold nextId at h
    by_cases hv : v = ""
    · simp only [if_pos hv, Option.some.injEq] at h
      subst h hv
      refine ⟨by decide, fun v cur hv hcur => ?_⟩
      cases hv
      cases hcur
    · simp only [if_neg hv] at h
      obtain ⟨cur, hcur, hsum⟩ := Option.map_eq_some_iff.mp h
      have hrange : GoInt cur := of_decide_eq_true (Option.filter_eq_some_iff.mp hcur).2
      obtain ⟨hlow, hhigh⟩ := hrange
      by_cases hmax : cur = 2 ^ 63 - 1
      · rw [if_pos hmax] at hsum
        exact absurd hsum.symm hn
      · rw [if_neg hmax] at hsum
        refine ⟨⟨by omega, by omega⟩, fun v' cur' hv' hcur' => ?_⟩
        cases hv'
        rw [hcur] at hcur'
        cases hcur'
        exact hsum.symm

theorem exec_newId {t : Nat} {w : World net} {key : String} {c : Choice net (.newId key)}
    (h : idOk (exec net t w (.newId key) c).1 = true) : ∃ n,
      (exec net t w (.newId key) c).1 = .ok n ∧ n ≠ -2 ^ 63 ∧ nextId w.etcd[key]? = some n ∧
      (exec net t w (.newId key) c).2.etcd = w.etcd.insert key (toString n) := by
  simp only [exec] at h ⊢
  cases c with
  | some e => cases h
  | none =>
    cases hnext : nextId w.etcd[key]? with
    | none =>
      rw [hnext] at h
      cases h
    | some n =>
      rw [hnext] at h
      exact ⟨n, rfl, of_decide_eq_true h, rfl, rfl⟩

/-- After a draw the counter stands at the id that was drawn. -/
theorem idUsed_draw {t : Nat} {w : World net} {c : Choice net (.newId genSpaceIdKey)} {n m : Int}
    (hn : GoInt n) (hm : m ≤ n)
    (h : (exec net t w (.newId genSpaceIdKey) c).2.etcd = w.etcd.insert genSpaceIdKey (toString n)) :
    IdUsed (exec net t w (.newId genSpaceIdKey) c).2 m := by
  refine ⟨toString n, n, ?_, parseInt64_toString hn, hm⟩
  rw [h]
  exact Std.TreeMap.getElem?_insert_self

theorem HandlerOp.spares_counter (o : Op) (h : HandlerOp o) (hid : ∀ key, o ≠ .newId key) :
    Spares genSpaceIdKey o := by
  have hkey : ∀ key, (NoteKey key ∨ ∃ db sp, key = getSpaceEtcdKey db sp) →
      startsWith genSpaceIdKey key = false := by
    rintro key (hnote | ⟨db, sp, rfl⟩)
    · obtain ⟨head, hhead, rest, rfl⟩ := hnote.head
      refine startsWith_append_eq_false fun l => ?_
      simp only [List.mem_cons, List.not_mem_nil, or_false] at hhead
      rcases hhead with rfl | rfl | rfl <;> rfl
    · unfold getSpaceEtcdKey
      simp only [String.append_assoc]
      exact startsWith_append_eq_false fun l => rfl
  cases o with
  | put key val => exact hkey key h
  | delete key => exact hkey key h
  | newId key => exact absurd rfl (hid key)
  | _ => trivial

theorem IdUsed.agree {w w' : World net} {n : Int} (h : IdUsed w n)
    (he : w'.etcd[genSpaceIdKey]? = w.etcd[genSpaceIdKey]?) : IdUsed w' n := by
  obtain ⟨v, cur, hv, hcur, hle⟩ := h
  exact ⟨v, cur, he.trans hv, hcur, hle⟩

/-- **The counter gives out each id once.** -/
theorem idTicket : TicketRule (M := master net) drawn IdUsed HandlerOp
    (IdsDrawn : Cluster net → Event (master net) Request → Prop) := by
  refine ⟨?_, ?_, ?_⟩
  · intro c t pick i tr o k hok ho ht x hx
    by_cases hid : ∃ key, o = .newId key
    · obtain ⟨key, rfl⟩ := hid
      obtain rfl : key = genSpaceIdKey := ho
      simp only [IdsDrawn, nextIdOk, ht] at hok
      obtain ⟨n, -, hwrap, hnext, hetcd⟩ := exec_newId hok
      obtain ⟨hrange, hsum⟩ := nextId_spec hnext hwrap
      obtain ⟨v, cur, hv, hcur, hle⟩ := hx
      have hn := hsum v cur hv hcur
      exact idUsed_draw hrange (by omega) hetcd
    · refine hx.agree (exec_spares c.state o (pick o) (HandlerOp.spares_counter o ho ?_)
        genSpaceIdKey (by decide))
      exact fun key hkey => hid ⟨key, hkey⟩
  · intro c t pick i tr o k hok ho ht x hx
    cases o with
    | newId key =>
      obtain rfl : key = genSpaceIdKey := ho
      simp only [IdsDrawn, nextIdOk, ht] at hok
      obtain ⟨n, hres, hwrap, hnext, hetcd⟩ := exec_newId hok
      obtain ⟨hrange, hsum⟩ := nextId_spec hnext hwrap
      have hxn : x = n := by
        have hdrawn : drawn ⟨.newId genSpaceIdKey,
            (exec net t c.state (.newId genSpaceIdKey) (pick (.newId genSpaceIdKey))).1⟩
            = some x := hx
        rw [hres] at hdrawn
        simp only [drawn, if_true, Option.some.injEq] at hdrawn
        exact hdrawn.symm
      subst hxn
      refine ⟨?_, idUsed_draw hrange le_rfl hetcd⟩
      rintro ⟨v, cur, hv, hcur, hle⟩
      have hn := hsum v cur hv hcur
      omega
    | _ => cases hx
  · exact fun c w hok x hx => hx.agree hok

/-! ### Creations -/

/-- The request `t` was a create, has been answered with 0 and has stored a space of this
name with this id. -/
def CreatedAs (json : SpaceJson) (c : Cluster net) (t : Nat) (db sp : String) (id : Int) : Prop :=
  ∃ req tr ans, c.threads t = some ⟨.create req, tr, .ret (.ddl ans)⟩ ∧ ans.code = 0 ∧
    ∃ val, (⟨.put (getSpaceEtcdKey db sp) val, .ok ()⟩ : Σ o, Res o) ∈ tr ∧
      (json.unmarshal val).id = id

theorem ids_reach {c : Cluster net} {w : World net}
    (h : Reach (step (serve json)) IdsDrawn (Config.init w) c) :
    c.All fun _ th _ => ∀ key x, (⟨.newId key, x⟩ : Σ o, Res o) ∈ th.trace → ∃ n, x = .ok n := by
  refine h.invariant (Config.All fun _ th _ => ∀ key x,
    (⟨.newId key, x⟩ : Σ o, Res o) ∈ th.trace → ∃ n, x = .ok n) (all_init w)
    fun c e hc hok => all_step hc ?_ ?_ ?_
  · exact fun t i _ _ key x hx => nomatch hx
  · rintro t pick i tr o k rfl ht
    refine ⟨fun key x hx => ?_, fun u th _ hu => hc u th hu⟩
    rcases List.mem_append.mp hx with hx | hx
    · exact hc t _ ht key x hx
    · cases List.mem_singleton.mp hx
      simp only [IdsDrawn, nextIdOk, ht] at hok
      obtain ⟨n, hres, -⟩ := exec_newId hok
      exact ⟨n, hres⟩
  · exact fun _ _ t th ht => hc t th ht

theorem recordsDrawn_reach {ok : Cluster net → Event (master net) Request → Prop} {c : Cluster net}
    {w : World net} (h : Reach (step (serve json)) ok (Config.init w) c) {t : Nat} {i : Request}
    {tr : Trace Op Res} {out : Outcome} (ht : c.threads t = some ⟨i, tr, .ret out⟩) :
    RecordsDrawn json tr := by
  have hrec : RecordsDrawn json (tr ++ []) := reach_yields (recordsDrawn_serve json) h t _ ht
  rwa [List.append_nil] at hrec

theorem CreatedAs.drawn (hjson : ∀ sp, json.unmarshal (json.marshal sp) = sp) {c : Cluster net}
    {w : World net} (h : Reach (step (serve json)) IdsDrawn (Config.init w) c) {t : Nat}
    {db sp : String} {id : Int} (hc : CreatedAs json c t db sp id) :
    ∃ th, c.threads t = some th ∧ id ∈ tickets Master.drawn th.trace := by
  obtain ⟨req, tr, ans, ht, -, val, hput, hid⟩ := hc
  obtain ⟨x, hx, space, rfl, hspace⟩ := recordsDrawn_reach h ht db sp val (.ok ()) hput
  obtain ⟨n, rfl⟩ := ids_reach h t _ ht genSpaceIdKey x hx
  rw [hjson, hspace] at hid
  refine ⟨_, ht, List.mem_filterMap.mpr ⟨_, hx, ?_⟩⟩
  rw [← hid]
  rfl

/-- **The ids of spaces are unique.**  In every run in which each `NewIDGenerate` goes
through and the counter does not wrap, with any failures of the other calls, two creations
have recorded different ids, so the keys of deleted and failed spaces do not collide. -/
theorem space_ids_unique (json : SpaceJson) (hjson : ∀ sp, json.unmarshal (json.marshal sp) = sp)
    (net : Network) (w : World net) (c : Cluster net)
    (h : Reach (step (serve json)) IdsDrawn (Config.init w) c) (t u : Nat) (htu : t ≠ u)
    (db sp db' sp' : String) (id id' : Int) (ht : CreatedAs json c t db sp id)
    (hu : CreatedAs json c u db' sp' id') :
    id ≠ id' ∧ (db = db' → sp = sp' →
      getDeletedSpaceEtcdKey db sp id ≠ getDeletedSpaceEtcdKey db' sp' id' ∧
      getErrSpaceEtcdKey db sp id ≠ getErrSpaceEtcdKey db' sp' id') := by
  obtain ⟨th, hth, hmem⟩ := ht.drawn hjson h
  obtain ⟨thu, hthu, hmem'⟩ := hu.drawn hjson h
  have hne : id ≠ id' := by
    rintro rfl
    exact tickets_distinct idTicket (uses_serve json) h t u th thu htu hth hthu id hmem hmem'
  -- the keys end in the texts of the ids
  have hkeys : ∀ pre : String, pre ++ toString id ≠ pre ++ toString id' := by
    intro pre heq
    have hchars := congrArg String.toList heq
    rw [String.toList_append, String.toList_append] at hchars
    exact hne (toString_inj (String.toList_inj.mp (List.append_cancel_left hchars)))
  refine ⟨hne, ?_⟩
  rintro rfl rfl
  exact ⟨hkeys _, hkeys _⟩

/-! ### Two creates of one name -/

def putsSpace (db sp : String) : (Σ o, Res o) → Bool
  | ⟨.put key _, .ok ()⟩ => key = getSpaceEtcdKey db sp
  | _ => false

def newIdResult : (Σ o, Res o) → Option Int
  | ⟨.newId key, x⟩ => if key = genSpaceIdKey then some (drawnId x) else none
  | _ => none

/-- The ids that a successful create of this name may have recorded. -/
def createdIds (c : Cluster net) (t : Nat) (db sp : String) : Option (List Int) :=
  match c.threads t with
  | some ⟨.create _, tr, .ret (.ddl ans)⟩ =>
    if ans.code = 0 ∧ tr.any (putsSpace db sp) then some (tr.filterMap newIdResult) else none
  | _ => none

theorem exists_of_putsSpace {db sp : String} {e : Σ o, Res o} (h : putsSpace db sp e = true) :
    ∃ val, e = ⟨.put (getSpaceEtcdKey db sp) val, .ok ()⟩ := by
  obtain ⟨o, r⟩ := e
  cases o with
  | put key val =>
    cases r with
    | error e => cases h
    | ok u =>
      obtain rfl : key = getSpaceEtcdKey db sp := of_decide_eq_true h
      exact ⟨val, rfl⟩
  | _ => cases h

theorem createdAs_of_ids (hjson : ∀ sp, json.unmarshal (json.marshal sp) = sp)
    {ok : Cluster net → Event (master net) Request → Prop} {c : Cluster net} {w : World net}
    (h : Reach (step (serve json)) ok (Config.init w) c) {t : Nat} {db sp : String} {id : Int}
    (hids : createdIds c t db sp = some [id]) : CreatedAs json c t db sp id := by
  unfold createdIds at hids
  split at hids
  next req tr ans ht =>
    split_ifs at hids with hcreated
    obtain ⟨hcode, hany⟩ := hcreated
    obtain ⟨e, he, hput⟩ := List.any_eq_true.mp hany
    obtain ⟨val, rfl⟩ := exists_of_putsSpace hput
    obtain ⟨x, hx, space, rfl, hspace⟩ := recordsDrawn_reach h ht db sp val (.ok ()) he
    refine ⟨req, tr, ans, ht, hcode, _, he, ?_⟩
    -- the one id that was drawn
    have hmem : drawnId x ∈ tr.filterMap newIdResult := List.mem_filterMap.mpr ⟨_, hx, rfl⟩
    rw [Option.some.inj hids, List.mem_singleton] at hmem
    rw [hjson, hspace, hmem]
  next => cases hids

def twoPs : World psNet where
  etcd := (startedEtcd.insert (getPsRegisterKey "10.0.0.1" 8081 1) "").insert
    (getPsRegisterKey "10.0.0.2" 8081 2) ""
  net := fun _ => none

/-- The scan of the spaces fails, and the nodes are visited in the other order. -/
def blindPick : (o : Op) → Choice psNet o
  | .scan pre => if pre = spacesMataPrefix then some "timeout" else none
  | .order n => ⟨(List.range n).reverse, List.reverse_perm _⟩
  | o => smooth psNet sampleTime {} o

/-- A create, and a second one of the same name that does not see the first space and goes to
the other node. -/
def createTwice : List (Event (master psNet) Request) :=
  (.spawn 0 (.create (.ok sampleApi)) ::
      List.replicate 20 (.act 0 (smooth psNet sampleTime {})))
    ++ .spawn 1 (.create (.ok sampleApi)) :: List.replicate 20 (.act 1 blindPick)

theorem space_ids_unique_twice :
    RunOk (step (serve goJson)) IdsDrawn (Config.init twoPs) createTwice ∧
      createdIds (createTwice.foldl (step (serve goJson)) (Config.init twoPs)) 0
        "database" "images" = some [1] ∧
      createdIds (createTwice.foldl (step (serve goJson)) (Config.init twoPs)) 1
        "database" "images" = some [2] ∧
      getDeletedSpaceEtcdKey "database" "images" 1 ≠ getDeletedSpaceEtcdKey "database" "images" 2 := by
  have hrun : RunOk (step (serve goJson)) IdsDrawn (Config.init twoPs) createTwice := by
    decide +kernel
  have hreach := reach_of_runOk _ _ Reach.start hrun
  have hfirst : createdIds (createTwice.foldl (step (serve goJson)) (Config.init twoPs)) 0
      "database" "images" = some [1] := by decide +kernel
  have hsecond : createdIds (createTwice.foldl (step (serve goJson)) (Config.init twoPs)) 1
      "database" "images" = some [2] := by decide +kernel
  generalize createTwice.foldl (step (serve goJson)) (Config.init twoPs) = c
    at hreach hfirst hsecond ⊢
  refine ⟨hrun, hfirst, hsecond, ?_⟩
  exact ((space_ids_unique goJson unmarshal_marshal psNet twoPs c hreach 0 1 (by decide)
    "database" "images" "database" "images" 1 2 (createdAs_of_ids unmarshal_marshal hreach hfirst)
    (createdAs_of_ids unmarshal_marshal hreach hsecond)).2 rfl rfl).1

/-! ### A space that is created, deleted and created again -/

theorem createdIds_alone {pick : (o : Op) → Choice net o} {c : Cluster net} {t : Nat}
    (h : c.threads t = none) {req : Except String ApiSpace} {db sp : String} {ids : List Int}
    (hcode : (soloRun pick c.state t (.create req)).2.1.ddlCode = some 0)
    (hput : (soloRun pick c.state t (.create req)).1.any (putsSpace db sp) = true)
    (hids : (soloRun pick c.state t (.create req)).1.filterMap newIdResult = ids) :
    createdIds (alone pick c t (.create req)) t db sp = some ids := by
  unfold createdIds
  rw [thread_alone h]
  cases hout : (soloRun pick c.state t (.create req)).2.1 with
  | reg ans =>
    rw [hout] at hcode
    cases hcode
  | ddl ans =>
    rw [hout] at hcode
    simp only
    rw [if_pos ⟨Option.some.inj hcode, hput⟩, hids]

def noIdPick : (o : Op) → Choice psNet o
  | .newId _ => some "timeout"
  | o => smooth psNet sampleTime {} o

def createdOnce : Cluster psNet :=
  alone noIdPick (Config.init oneNode) 0 (.create (.ok sampleApi))

def thenDeleted : Cluster psNet :=
  alone (smooth psNet sampleTime {}) createdOnce 1 (.delete (.ok imagesRequest))

def createdAgain : Cluster psNet := alone noIdPick thenDeleted 2 (.create (.ok sampleApi))

/-- What the master works on after the create, and after the delete. -/
def onceWorld : World psNet := (soloRun noIdPick oneNode 0 (.create (.ok sampleApi))).2.2

def emptiedWorld : World psNet := (@deleteRest psNet ({} : Delivery) onceWorld 1 0).2.2

theorem state_soloRun_onceWorld :
    (soloRun (smooth psNet sampleTime {}) onceWorld 1 (.delete (.ok imagesRequest))).2.2
      = emptiedWorld := by
  have hlock : onceWorld.lock = none := by decide +kernel
  have hval : onceWorld.etcd[getSpaceEtcdKey imagesRequest.dbName imagesRequest.spaceName]?
      = some (goJson.marshal (createdSpace 0)) := rfl
  have hgate : onceWorld.etcd[ddlDisabledKey]? = none := by decide +kernel
  exact (state_soloRun_delete hlock hval hgate).trans emptiedWorld.eq_1.symm

theorem createdOnce_new {u : Nat} (hu : u ≠ 0) : createdOnce.threads u = none := by
  rw [createdOnce, threads_alone rfl hu]
  rfl

theorem thenDeleted_new : thenDeleted.threads 2 = none := by
  rw [thenDeleted, threads_alone (createdOnce_new (by decide)) (by decide),
    createdOnce_new (by decide)]

theorem createdOnce_state : createdOnce.state = onceWorld := by
  rw [createdOnce, state_alone rfl, onceWorld]
  dsimp only [Config.init]

theorem thenDeleted_state : thenDeleted.state = emptiedWorld := by
  rw [thenDeleted, state_alone (createdOnce_new (by decide)), createdOnce_state]
  exact state_soloRun_onceWorld

theorem createdAgain_first : createdAgain.threads 0 = createdOnce.threads 0 := by
  rw [createdAgain, threads_alone thenDeleted_new (by decide), thenDeleted,
    threads_alone (createdOnce_new (by decide)) (by decide)]

theorem reach_createdAgain :
    Reach (step (serve goJson)) anyEvent (Config.init oneNode) createdAgain := by
  have hfirst : Reach (step (serve goJson)) anyEvent (Config.init oneNode) createdOnce :=
    reach_foldl _ _ _
  have hsecond : Reach (step (serve goJson)) anyEvent createdOnce thenDeleted := reach_foldl _ _ _
  exact (hfirst.trans hsecond).trans (reach_foldl _ _ _)

/-- **Two creations of one name have recorded the id 0**: in both of them `NewIDGenerate`
failed, and the space was deleted in between. -/
theorem space_id_recorded_twice :
    Reach (step (serve goJson)) anyEvent (Config.init oneNode) createdAgain ∧
      CreatedAs goJson createdAgain 0 "database" "images" 0 ∧
      CreatedAs goJson createdAgain 2 "database" "images" 0 := by
  have hfirst : createdIds createdAgain 0 "database" "images" = some [0] := by
    rw [createdIds, createdAgain_first, ← createdIds, createdOnce]
    exact createdIds_alone rfl (by decide +kernel) (by decide +kernel) (by decide +kernel)
  have hsecond : createdIds createdAgain 2 "database" "images" = some [0] := by
    have hrun : (soloRun noIdPick emptiedWorld 2 (.create (.ok sampleApi))).2.1.ddlCode = some 0 ∧
        (soloRun noIdPick emptiedWorld 2 (.create (.ok sampleApi))).1.any
          (putsSpace "database" "images") = true ∧
        (soloRun noIdPick emptiedWorld 2 (.create (.ok sampleApi))).1.filterMap newIdResult
          = [0] := by decide +kernel
    rw [← thenDeleted_state] at hrun
    exact createdIds_alone thenDeleted_new hrun.1 hrun.2.1 hrun.2.2
  exact ⟨reach_createdAgain, createdAs_of_ids unmarshal_marshal reach_createdAgain hfirst,
    createdAs_of_ids unmarshal_marshal reach_createdAgain hsecond⟩

end SimSearch.Master
