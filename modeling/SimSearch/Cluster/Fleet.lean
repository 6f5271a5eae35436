import SimSearch.Cluster.Keys
import SimSearch.Cluster.Messages
import SimSearch.Master.Works
import SimSearch.Router.Lookup
import SimSearch.Router.SpaceRange

/-!
# The routers serve what etcd records

The masters tell the routers of every space that they create or delete (`AddRouterSpace` and
`DeleteRouterSpace` of `master/clusterapi/space_api.go`), and a router that starts reads the spaces
from etcd (`SpaceManager::Init`) before it registers (`LaunchRegister`).  Here the network has the
managers of the routers behind it, and the requests to PS nodes end in whatever way.

`Serves` says that a router finds the recorded spaces by their keys and no others.  The holder of
the DDL lock changes the store first and then tells the routers one after the other, so in between
a router may be behind (`safe_tell`).

* `routers_serve_recorded`: whenever the lock is free, every registered router serves what is
  recorded, whatever becomes of the PS nodes, of the answers of the routers, and of routers that
  leave while the masters work.
-/

namespace SimSearch.Fleet

open SimSearch.Lib Program
open SimSearch.Master
open SimSearch.Cluster (pbSpace)
open SimSearch.Router (SpaceConnection connOf genSpaceKey)

/-! ### One router -/

section

variable {renv : Router.Env} {s : Router.State} {space : Space} {key : String}
  {conn : SpaceConnection}

def shown (renv : Router.Env) (s : Router.State) : String → Option SpaceConnection :=
  lookup (s.manager.index renv) s.manager.slot

/-- The manager refines the map that it shows. -/
def Faithful (renv : Router.Env) (s : Router.State) : Prop := Router.Exact renv ⟨s, shown renv s⟩

theorem Faithful.of_exact {x : Router.Served} (h : Router.Exact renv x) :
    Faithful renv x.state ∧ shown renv x.state = x.spec := by
  refine ⟨⟨h.wf, rfl, fun key hkey => h.size key ?_⟩, h.spec⟩
  rwa [← h.spec]

theorem Faithful.found_iff (h : Faithful renv s) :
    Router.getSpaceConn renv s.manager key = .found conn ↔ shown renv s key = some conn := by
  refine ⟨fun hfound => ?_, h.found⟩
  unfold Router.getSpaceConn at hfound
  split_ifs at hfound
  cases hidx : s.manager.index renv key with
  | none =>
    rw [hidx] at hfound
    cases hfound
  | some i =>
    rw [hidx] at hfound
    exact Option.bind_eq_some_iff.mpr ⟨i, hidx, Router.slot_of_readSlot hfound⟩

/-- The router has a slot for the space and can find it afterwards, in a bucket of its own, or it
has the space already. -/
def Takes (renv : Router.Env) (s : Router.State) (space : Space) : Prop :=
  ((Router.addSpace renv s space).1 = "" ∧ Router.Reachable renv s.manager space) ∨
    shown renv s (connOf renv space).spaceKey = some (connOf renv space)

theorem shown_of_index_none (h : s.manager.index renv key = none) : shown renv s key = none := by
  rw [shown, lookup, h]
  rfl

/-- **A space that is taken is shown under its key.** -/
theorem Faithful.addSpace (h : Faithful renv s) (ht : Takes renv s space) :
    Faithful renv (Router.rpcAddSpace renv s space).2 ∧
      shown renv (Router.rpcAddSpace renv s space).2
        = Function.update (shown renv s) (connOf renv space).spaceKey (some (connOf renv space)) ∧
      (shown renv s (connOf renv space).spaceKey = none ∨
        shown renv s (connOf renv space).spaceKey = some (connOf renv space)) := by
  show Faithful renv (Router.addSpace renv s space).2 ∧ shown renv (Router.addSpace renv s space).2
    = _ ∧ _
  rcases Router.addSpace_cases renv s space with ⟨msg, hmsg, heq⟩ | ⟨i, s', heq, htaken⟩
  · rcases ht with ⟨hok, -⟩ | hthere
    · rw [heq] at hok
      exact absurd hok hmsg
    · rw [heq]
      refine ⟨h, ?_, Or.inr hthere⟩
      rw [← hthere, Function.update_eq_self]
  · have hnone := shown_of_index_none htaken.absent
    have hreach : Router.Reachable renv s.manager space := by
      rcases ht with ht | hthere
      · exact ht.2
      · rw [hnone] at hthere
        cases hthere
    obtain ⟨hfaithful, hspec⟩ := Faithful.of_exact (Router.exact_addSpace h space fun _ => hreach)
    refine ⟨hfaithful, hspec.trans ?_, Or.inl hnone⟩
    simp only [Router.servedStep, heq, if_true]

/-- **A space that is deleted is shown no longer.** -/
theorem Faithful.deleteSpace (h : Faithful renv s) (db sp : String) :
    Faithful renv (Router.rpcDeleteSpace renv s db sp).2 ∧
      shown renv (Router.rpcDeleteSpace renv s db sp).2
        = Function.update (shown renv s) (genSpaceKey db sp) none := by
  -- the manager does not look at the local list
  have hlist : Faithful renv { s with localSpaces := s.localSpaces.deleteSpace db sp } :=
    ⟨h.wf, h.spec, h.size⟩
  obtain ⟨hfaithful, hspec⟩ :=
    Faithful.of_exact (Router.exact_deleteSpace hlist (genSpaceKey db sp))
  refine ⟨hfaithful, hspec.trans ?_⟩
  show (if _ = "" then _ else _) = _
  rcases Router.deleteSpace_cases renv { s with localSpaces := s.localSpaces.deleteSpace db sp }
    (genSpaceKey db sp) with ⟨hnone, msg, hmsg, heq⟩ | ⟨i, -, heq⟩
  · rw [heq, if_neg hmsg]
    refine (Function.update_eq_self_iff.mpr ?_).symm
    exact (shown_of_index_none hnone).symm
  · rw [heq]
    rfl

end

/-! ### A router and the store -/

section

variable {json : SpaceJson} {renv : Router.Env} {e e' : Std.TreeMap String String}
  {s : Router.State}

def Offered (json : SpaceJson) (renv : Router.Env) (e : Std.TreeMap String String) (key : String)
    (conn : SpaceConnection) : Prop :=
  ∃ k val, SpaceAt e k val ∧ connOf renv (pbSpace (json.unmarshal val)) = conn ∧
    conn.spaceKey = key

theorem Offered.shrinks {key : String} {conn : SpaceConnection}
    (h : Offered json renv e' key conn) (hs : Shrinks e e') : Offered json renv e key conn := by
  obtain ⟨k, val, hval, hconn⟩ := h
  exact ⟨k, val, hs k val hval, hconn⟩

structure Serves (json : SpaceJson) (renv : Router.Env) (e : Std.TreeMap String String)
    (s : Router.State) : Prop where
  faithful : Faithful renv s
  shown_iff : ∀ key conn, shown renv s key = some conn ↔ Offered json renv e key conn

theorem Serves.of_shrinks (h : Serves json renv e s) (hs : Shrinks e e') (hs' : Shrinks e' e) :
    Serves json renv e' s where
  faithful := h.faithful
  shown_iff key conn :=
    (h.shown_iff key conn).trans ⟨fun hrec => hrec.shrinks hs', fun hrec => hrec.shrinks hs⟩

theorem Serves.agree (h : Serves json renv e s) (ha : Agree spacesMataPrefix e e') :
    Serves json renv e' s := h.of_shrinks ha.shrinks ha.symm.shrinks

/-! #### A create -/

/-- The space is stored and the router was not told. -/
def Lacks (json : SpaceJson) (sp : InnerSpace) (e : Std.TreeMap String String)
    (renv : Router.Env) (s : Router.State) : Prop :=
  SpaceAt e (getSpaceEtcdKey sp.dbName sp.spaceName) (json.marshal sp) ∧
    Serves json renv (e.erase (getSpaceEtcdKey sp.dbName sp.spaceName)) s

def Has (json : SpaceJson) (sp : InnerSpace) (e : Std.TreeMap String String) (renv : Router.Env)
    (s : Router.State) : Prop :=
  Serves json renv e s ∧
    shown renv s (connOf renv (pbSpace sp)).spaceKey = some (connOf renv (pbSpace sp))

theorem Lacks.agree {sp : InnerSpace} (h : Lacks json sp e renv s)
    (ha : Agree spacesMataPrefix e e') : Lacks json sp e' renv s :=
  ⟨⟨(ha _ h.1.2).trans h.1.1, h.1.2⟩, h.2.agree (agree_erase_both ha)⟩

/-- **A router that was behind has caught up.** -/
theorem Lacks.told (hjson : ∀ sp, json.unmarshal (json.marshal sp) = sp) {sp : InnerSpace}
    (h : Lacks json sp e renv s) (ht : Takes renv s (pbSpace sp)) :
    Has json sp e renv (Router.rpcAddSpace renv s (pbSpace sp)).2 := by
  obtain ⟨hat, hserves⟩ := h
  obtain ⟨hfaithful, hshown, hold⟩ := hserves.faithful.addSpace ht
  have hself : shown renv (Router.rpcAddSpace renv s (pbSpace sp)).2
      (connOf renv (pbSpace sp)).spaceKey = some (connOf renv (pbSpace sp)) := by
    rw [hshown, Function.update_self]
  refine ⟨⟨hfaithful, fun key conn => ?_⟩, hself⟩
  by_cases hkey : key = (connOf renv (pbSpace sp)).spaceKey
  · rw [hkey, hself]
    constructor
    · rintro ⟨⟩
      exact ⟨_, _, hat, by rw [hjson], rfl⟩
    · rintro ⟨k, val, hval, hconn, hsame⟩
      by_cases hk : k = getSpaceEtcdKey sp.dbName sp.spaceName
      · subst hk
        cases hval.1.symm.trans hat.1
        rw [← hconn, hjson]
      · -- another space of this key would have been shown before
        have hbefore := (hserves.shown_iff _ _).mpr
          ⟨k, val, spaceAt_erase hval hk, hconn, hsame⟩
        rcases hold with hnone | hsome
        · rw [hnone] at hbefore
          cases hbefore
        · exact hsome.symm.trans hbefore
  · rw [hshown, Function.update_of_ne hkey, hserves.shown_iff]
    constructor
    · exact fun hrec => hrec.shrinks (shrinks_erase e _)
    · rintro ⟨k, val, hval, hconn, hsame⟩
      refine ⟨k, val, spaceAt_erase hval ?_, hconn, hsame⟩
      rintro rfl
      cases hval.1.symm.trans hat.1
      rw [hjson] at hconn
      exact hkey (hsame.symm.trans (congrArg SpaceConnection.spaceKey hconn.symm))

theorem Has.told {sp : InnerSpace} (h : Has json sp e renv s) :
    Has json sp e renv (Router.rpcAddSpace renv s (pbSpace sp)).2 := by
  obtain ⟨hfaithful, hshown, -⟩ := h.1.faithful.addSpace (Or.inr h.2)
  rw [← h.2, Function.update_eq_self] at hshown
  refine ⟨⟨hfaithful, fun key conn => ?_⟩, ?_⟩
  · rw [hshown]
    exact h.1.shown_iff key conn
  · rw [hshown]
    exact h.2

/-! #### A delete -/

/-- The space of `val` is stored no longer and the router was not told. -/
def Outdated (json : SpaceJson) (db sp val : String) (e : Std.TreeMap String String)
    (renv : Router.Env) (s : Router.State) : Prop :=
  StoreOk json e ∧ namesOf json val = (db, sp) ∧ (∀ v, ¬ SpaceAt e (getSpaceEtcdKey db sp) v) ∧
    Serves json renv (e.insert (getSpaceEtcdKey db sp) val) s

/-- The router serves the store, and has nothing under the key of the space. -/
def Cleared (json : SpaceJson) (db sp : String) (e : Std.TreeMap String String)
    (renv : Router.Env) (s : Router.State) : Prop :=
  Serves json renv e s ∧ shown renv s (genSpaceKey db sp) = none

theorem Outdated.agree {db sp val : String} (h : Outdated json db sp val e renv s)
    (ha : Agree spacesMataPrefix e e') : Outdated json db sp val e' renv s :=
  ⟨h.1.shrinks ha.shrinks, h.2.1, fun v hv => h.2.2.1 v (ha.shrinks _ _ hv),
    h.2.2.2.agree (agree_insert_both ha)⟩

theorem spaceAt_insert_self {db sp val : String} :
    SpaceAt (e.insert (getSpaceEtcdKey db sp) val) (getSpaceEtcdKey db sp) val :=
  ⟨Std.TreeMap.getElem?_insert_self, startsWith_getSpaceEtcdKey db sp⟩

theorem spaceAt_insert_of_ne {k v key val : String} (h : SpaceAt e key val) (hne : key ≠ k) :
    SpaceAt (e.insert k v) key val := by
  refine ⟨?_, h.2⟩
  rw [Std.TreeMap.getElem?_insert, if_neg (by simpa using hne.symm)]
  exact h.1

/-- **A router that was behind has caught up.**  No other recorded space has the key of the one
that goes: the router would not have shown both. -/
theorem Outdated.told {db sp val : String} (h : Outdated json db sp val e renv s) :
    Cleared json db sp e renv (Router.rpcDeleteSpace renv s db sp).2 := by
  obtain ⟨hstore, hnames, hgone, hserves⟩ := h
  obtain ⟨hdb, hsp⟩ := Prod.mk.inj hnames
  obtain ⟨hfaithful, hshown⟩ := hserves.faithful.deleteSpace db sp
  have hkey : (connOf renv (pbSpace (json.unmarshal val))).spaceKey = genSpaceKey db sp :=
    congrArg₂ genSpaceKey hdb hsp
  have hbefore := (hserves.shown_iff _ _).mpr ⟨_, _, spaceAt_insert_self, rfl, hkey⟩
  have hnew : ∀ {k v : String}, SpaceAt e k v → k ≠ getSpaceEtcdKey db sp := by
    rintro k v hv rfl
    exact hgone v hv
  refine ⟨⟨hfaithful, fun key conn => ?_⟩, by rw [hshown, Function.update_self]⟩
  rw [hshown]
  by_cases hk : key = genSpaceKey db sp
  · subst hk
    rw [Function.update_self]
    refine ⟨fun hnone => (nomatch hnone), ?_⟩
    rintro ⟨k, v, hv, hconn, hsame⟩
    have hother := (hserves.shown_iff _ _).mpr
      ⟨k, v, spaceAt_insert_of_ne hv (hnew hv), hconn, hsame⟩
    rw [hbefore] at hother
    have hpb := congrArg SpaceConnection.pbSpace ((Option.some.inj hother).trans hconn.symm)
    have hdb' : (json.unmarshal val).dbName = (json.unmarshal v).dbName :=
      congrArg Space.dbName hpb
    have hsp' : (json.unmarshal val).spaceName = (json.unmarshal v).spaceName :=
      congrArg Space.spaceName hpb
    refine absurd ?_ (hnew hv)
    rw [(hstore.stored k v hv).key_eq, ← hdb', ← hsp', hdb, hsp]
  · rw [Function.update_of_ne hk, hserves.shown_iff]
    constructor
    · rintro ⟨k, v, hv, hconn, hsame⟩
      rcases spaceAt_insert hv with ⟨-, rfl⟩ | ⟨-, hv⟩
      · exact absurd (hsame.symm.trans ((congrArg _ hconn.symm).trans hkey)) hk
      · exact ⟨k, v, hv, hconn, hsame⟩
    · rintro ⟨k, v, hv, hconn, hsame⟩
      exact ⟨k, v, spaceAt_insert_of_ne hv (hnew hv), hconn, hsame⟩

theorem Cleared.told {db sp : String} (h : Cleared json db sp e renv s) :
    Cleared json db sp e renv (Router.rpcDeleteSpace renv s db sp).2 := by
  obtain ⟨hfaithful, hshown⟩ := h.1.faithful.deleteSpace db sp
  rw [Function.update_eq_self_iff.mpr h.2.symm] at hshown
  refine ⟨⟨hfaithful, fun key conn => ?_⟩, ?_⟩
  · rw [hshown]
    exact h.1.shown_iff key conn
  · rw [hshown]
    exact h.2

/-! #### A start -/

/-- The router has read the spaces of `e` and built its slots; there are fewer than `2 ^ 15` of
either, and the keys have buckets of their own.  The local list is read only if `e` has no spaces.
It is empty then, or the router would serve spaces that were deleted. -/
def Started (json : SpaceJson) (renv : Router.Env) (e : Std.TreeMap String String)
    (s : Router.State) : Prop :=
  ∃ (maxSpaceNum : Nat) (w : Router.Startup), maxSpaceNum < 2 ^ 15 ∧
    w.range = some (Router.initRange e) ∧ (Router.initRange e = [] → w.file = []) ∧
    (∀ key val, SpaceAt e key val → w.jsonToPb val = .ok (pbSpace (json.unmarshal val))) ∧
    (Router.initRange e).length < 2 ^ 15 ∧ Router.Separate renv w.spaces ∧
    s = (Router.init renv maxSpaceNum w).2

theorem mapM_ok {α β ε : Type} {f : α → Except ε β} {g : α → β} :
    ∀ {l : List α}, (∀ a ∈ l, f a = .ok (g a)) → l.mapM f = .ok (l.map g) := by
  intro l
  induction l with
  | nil => exact fun _ => rfl
  | cons a l ih =>
    intro h
    rw [List.mapM_cons, h a List.mem_cons_self, ih fun b hb => h b (List.mem_cons_of_mem _ hb)]
    rfl

theorem loadedSpec_eq_some {spaces : List Space} :
    ∀ {spec : String → Option SpaceConnection} {key : String} {conn : SpaceConnection},
      (spaces.map fun space => (connOf renv space).spaceKey).Nodup →
      (Router.loadedSpec renv spaces spec key = some conn ↔
        (∃ space ∈ spaces, connOf renv space = conn ∧ conn.spaceKey = key) ∨
          (∀ space ∈ spaces, (connOf renv space).spaceKey ≠ key) ∧ spec key = some conn) := by
  induction spaces with
  | nil => simp [Router.loadedSpec]
  | cons space spaces ih =>
    intro spec key conn hnodup
    obtain ⟨hhead, hrest⟩ := List.nodup_cons.mp hnodup
    show Router.loadedSpec renv spaces (Function.update spec _ _) key = some conn ↔ _
    rw [ih hrest]
    by_cases hkey : key = (connOf renv space).spaceKey
    · subst hkey
      rw [Function.update_self]
      have hnot : ∀ space' ∈ spaces,
          (connOf renv space').spaceKey ≠ (connOf renv space).spaceKey :=
        fun space' hmem heq => hhead (List.mem_map.mpr ⟨space', hmem, heq⟩)
      constructor
      · rintro (⟨space', hmem, hconn, hsame⟩ | ⟨-, hsome⟩)
        · exact Or.inl ⟨space', List.mem_cons_of_mem _ hmem, hconn, hsame⟩
        · cases hsome
          exact Or.inl ⟨space, List.mem_cons_self, rfl, rfl⟩
      · rintro (⟨space', hmem, rfl, hsame⟩ | ⟨hne, -⟩)
        · rcases List.mem_cons.mp hmem with rfl | hmem
          · exact Or.inr ⟨hnot, rfl⟩
          · exact absurd hsame (hnot space' hmem)
        · exact absurd rfl (hne space List.mem_cons_self)
    · rw [Function.update_of_ne hkey]
      constructor
      · rintro (⟨space', hmem, hconn⟩ | ⟨hne, hsome⟩)
        · exact Or.inl ⟨space', List.mem_cons_of_mem _ hmem, hconn⟩
        · refine Or.inr ⟨fun space' hmem => ?_, hsome⟩
          rcases List.mem_cons.mp hmem with rfl | hmem
          · exact Ne.symm hkey
          · exact hne space' hmem
      · rintro (⟨space', hmem, rfl, hsame⟩ | ⟨hne, hsome⟩)
        · rcases List.mem_cons.mp hmem with rfl | hmem
          · exact absurd hsame.symm hkey
          · exact Or.inl ⟨space', hmem, rfl, hsame⟩
        · exact Or.inr ⟨fun space' hmem => hne space' (List.mem_cons_of_mem _ hmem), hsome⟩

/-- **A router that has started serves what it has read.** -/
theorem Started.serves (h : Started json renv e s) : Serves json renv e s := by
  obtain ⟨n, w, hn, hrange, hfile, hparse, hlen, hsep, rfl⟩ := h
  have hscan : Router.initRange e = scanEtcd e spacesMataPrefix :=
    Router.rangeEtcd_eq_scanEtcd e (by decide)
  have hload : w.load
      = .ok ((Router.initRange e).map fun kv => pbSpace (json.unmarshal kv.2)) := by
    unfold Router.Startup.load
    rw [hrange]
    cases hkvs : Router.initRange e with
    | nil => rw [hfile hkvs]; rfl
    | cons kv kvs =>
      refine mapM_ok fun kv' hmem => ?_
      rw [← hkvs, hscan] at hmem
      have hat : SpaceAt e kv'.1 kv'.2 := mem_scanEtcd.mp hmem
      simp only [Router.Startup.spaceJsonToPb, hparse _ _ hat]
  have hspaces : w.spaces = (Router.initRange e).map fun kv => pbSpace (json.unmarshal kv.2) := by
    unfold Router.Startup.spaces
    rw [hload]
  have hnodup : (w.spaces.map fun space => (connOf renv space).spaceKey).Nodup := by
    refine List.Nodup.of_map (Router.bucketOf renv.hasher) ?_
    rw [List.map_map]
    exact hsep.1
  obtain ⟨hfaithful, hspec⟩ := Faithful.of_exact
    (Router.exact_init hn w (by rw [hspaces, List.length_map]; exact hlen) hsep)
  refine ⟨hfaithful, fun key conn => ?_⟩
  have hspec' : shown renv (Router.init renv n w).2
      = Router.loadedSpec renv w.spaces fun _ => none := hspec
  rw [hspec', loadedSpec_eq_some hnodup, hspaces]
  constructor
  · rintro (⟨space, hmem, hconn, hsame⟩ | ⟨-, hnone⟩)
    · obtain ⟨kv, hkv, rfl⟩ := List.mem_map.mp hmem
      rw [hscan] at hkv
      exact ⟨kv.1, kv.2, mem_scanEtcd.mp hkv, hconn, hsame⟩
    · cases hnone
  · rintro ⟨k, val, hval, hconn, hsame⟩
    refine Or.inl ⟨_, List.mem_map.mpr ⟨(k, val), ?_, rfl⟩, hconn, hsame⟩
    rw [hscan]
    exact mem_scanEtcd.mpr hval

end

/-! ### The network -/

/-- What becomes of a request: whether it gets to the handler, and the reply. -/
structure Handling where
  delivered : Bool := true
  reply : Reply := {}

/-- What a router makes of a request; there is no service for those to PS nodes. -/
def handle (renv : Router.Env) (s : Router.State) : Body → Router.State
  | .routerCreate sp => (Router.rpcAddSpace renv s (pbSpace sp)).2
  | .routerDelete db sp => (Router.rpcDeleteSpace renv s db sp).2
  | .psCreate _ _ => s
  | .psDelete _ _ => s

def deliver (renv : String × Int → Router.Env) (routers : String × Int → Router.State)
    (task : Task) (d : Handling) : String × Int → Router.State :=
  if d.delivered then
    Function.update routers task.address
      (handle (renv task.address) (routers task.address) task.body)
  else routers

/-- The routers by their address.  The reply is any: the master does not look at it. -/
abbrev fleetNet (renv : String × Int → Router.Env) : Network where
  State := String × Int → Router.State
  Choice := Handling
  send routers task d := (d.reply, deliver renv routers task d)

section

variable {renv : String × Int → Router.Env} {routers : String × Int → Router.State} {task : Task}
  {d : Handling}

theorem deliver_self (h : d.delivered = true) : deliver renv routers task d task.address
    = handle (renv task.address) (routers task.address) task.body := by
  rw [deliver, if_pos h, Function.update_self]

theorem deliver_other {addr : String × Int} (h : addr ≠ task.address) :
    deliver renv routers task d addr = routers addr := by
  unfold deliver
  split_ifs
  · exact Function.update_of_ne h _ _
  · rfl

end

def Listed (e : Std.TreeMap String String) (addr : String × Int) : Prop :=
  ∃ key val, e[key]? = some val ∧ startsWith routerNodesPrefix key = true ∧
    getRouterNodeEtcdKey key = some addr

theorem Listed.agree {e e' : Std.TreeMap String String} {addr : String × Int}
    (h : Listed e' addr) (ha : Agree routerNodesPrefix e e') : Listed e addr := by
  obtain ⟨key, val, hval, hpre, haddr⟩ := h
  exact ⟨key, val, (ha key hpre).symm.trans hval, hpre, haddr⟩

def ToRouter : Body → Prop
  | .routerCreate _ => True
  | .routerDelete _ _ => True
  | .psCreate _ _ => False
  | .psDelete _ _ => False

theorem handle_of_not_toRouter {renv : Router.Env} {s : Router.State} {body : Body}
    (h : ¬ ToRouter body) : handle renv s body = s := by
  cases body with
  | routerCreate sp => exact absurd trivial h
  | routerDelete db sp => exact absurd trivial h
  | psCreate sp partition => rfl
  | psDelete db sp => rfl

variable {json : SpaceJson} {renv : String × Int → Router.Env} {t : Nat} {i : Request} {α : Type}

/-- A request to a registered router gets there, and the router takes the space. -/
def Heard (renv : String × Int → Router.Env) (w : World (fleetNet renv)) :
    (o : Op) → Choice (fleetNet renv) o → Prop
  | .post task, d => ToRouter task.body → Listed w.etcd task.address →
      Handling.delivered d = true ∧ ∀ sp, task.body = .routerCreate sp →
        Takes (renv task.address) (w.net task.address) (pbSpace sp)
  | _, _ => True

/-- Routers may leave, and those that stay are left alone. -/
def Stays (w w' : World (fleetNet renv)) : Prop :=
  ∀ addr, Listed w'.etcd addr → Listed w.etcd addr ∧ w'.net addr = w.net addr

def AllServe (json : SpaceJson) (w : World (fleetNet renv)) : Prop :=
  ∀ addr, Listed w.etcd addr → Serves json (renv addr) w.etcd (w.net addr)

theorem Stays.trans {w w' w'' : World (fleetNet renv)} (h : Stays w w') (h' : Stays w' w'') :
    Stays w w'' := by
  intro addr hlisted
  obtain ⟨hlisted', hnet'⟩ := h' addr hlisted
  obtain ⟨hlisted₀, hnet⟩ := h addr hlisted'
  exact ⟨hlisted₀, hnet'.trans hnet⟩

theorem stays_of_eq {w w' : World (fleetNet renv)} (ha : Agree routerNodesPrefix w.etcd w'.etcd)
    (hnet : w'.net = w.net) : Stays w w' :=
  fun addr hlisted => ⟨hlisted.agree ha, congrFun hnet addr⟩

theorem same_of_eq {w w' : World (fleetNet renv)} (hetcd : w'.etcd = w.etcd)
    (hnet : w'.net = w.net) : Agree spacesMataPrefix w.etcd w'.etcd ∧ Stays w w' := by
  refine ⟨?_, stays_of_eq ?_ hnet⟩
  · rw [hetcd]
    exact fun _ _ => rfl
  · rw [hetcd]
    exact fun _ _ => rfl

theorem AllServe.of_same {w w' : World (fleetNet renv)} (h : AllServe json w)
    (hs : Agree spacesMataPrefix w.etcd w'.etcd ∧ Stays w w') : AllServe json w' := by
  intro addr hlisted
  obtain ⟨hlisted', hnet⟩ := hs.2 addr hlisted
  rw [hnet]
  exact (h addr hlisted').agree hs.1

/-- The lock guards the spaces of the store and the registered routers. -/
def fleetGuard (json : SpaceJson) (renv : String × Int → Router.Env) : Guard (fleetNet renv) where
  always w := WellNamed json w.etcd ∧ RouterKeysOk w.etcd
  good := AllServe json
  same w w' := Agree spacesMataPrefix w.etcd w'.etcd ∧ Stays w w'
  extra := Heard renv
  same_trans _ _ _ h h' := ⟨h.1.trans h'.1, h.2.trans h'.2⟩
  same_of_eq _ _ hetcd hnet := same_of_eq hetcd hnet
  always_of_eq _ _ hetcd _ h := hetcd ▸ h
  good_of_same _ _ h hs := h.of_same hs

theorem ofSpaces_fleet (json : SpaceJson) (renv : String × Int → Router.Env) :
    (fleetGuard json renv).OfSpaces json where
  store _ h := h.1.store
  agree _ _ h := h.1
  ignores _ _ hspaces hrouters hnet :=
    ⟨⟨hspaces, stays_of_eq hrouters hnet⟩,
      fun h => ⟨h.1.shrinks hspaces.shrinks, h.2.of_agree hrouters⟩⟩

/-! ### Telling the routers -/

/-- How a router is before and after it was told; both are about the spaces of the store only. -/
structure News (json : SpaceJson) (body : Body)
    (Before After : Std.TreeMap String String → Router.Env → Router.State → Prop) : Prop where
  before_agree : ∀ {e e' renv s}, Before e renv s → Agree spacesMataPrefix e e' → Before e' renv s
  after_agree : ∀ {e e' renv s}, After e renv s → Agree spacesMataPrefix e e' → After e' renv s
  told : ∀ {e renv s}, Before e renv s →
    (∀ sp, body = .routerCreate sp → Takes renv s (pbSpace sp)) → After e renv (handle renv s body)
  again : ∀ {e renv s}, After e renv s → After e renv (handle renv s body)
  serves : ∀ {e renv s}, After e renv s → Serves json renv e s
  toRouter : ToRouter body

section

variable {body : Body}
  {Before After : Std.TreeMap String String → Router.Env → Router.State → Prop}

/-- A registered router was told, or will be by one of the requests that are left. -/
def Telling (Before After : Std.TreeMap String String → Router.Env → Router.State → Prop)
    (tasks : List Task) (left : List Nat) (w : World (fleetNet renv)) : Prop :=
  ∀ addr, Listed w.etcd addr → After w.etcd (renv addr) (w.net addr) ∨
    (∃ k ∈ left, ∃ task, tasks[k]? = some task ∧ task.address = addr) ∧
      Before w.etcd (renv addr) (w.net addr)

theorem Telling.of_same (hnews : News json body Before After) {tasks : List Task}
    {left : List Nat} {w w' : World (fleetNet renv)} (h : Telling Before After tasks left w)
    (hs : Agree spacesMataPrefix w.etcd w'.etcd ∧ Stays w w') :
    Telling Before After tasks left w' := by
  intro addr hlisted
  obtain ⟨hlisted', hnet⟩ := hs.2 addr hlisted
  rw [hnet]
  rcases h addr hlisted' with hafter | ⟨htask, hbefore⟩
  · exact Or.inl (hnews.after_agree hafter hs.1)
  · exact Or.inr ⟨htask, hnews.before_agree hbefore hs.1⟩

/-- **One request**: its router is told, and the others are as they were. -/
theorem Telling.post (hnews : News json body Before After) {tasks : List Task} {k : Nat}
    {left : List Nat} {w : World (fleetNet renv)} {task : Task} {d : Handling}
    (htask : tasks[k]? = some task) (hbody : task.body = body)
    (h : Telling Before After tasks (k :: left) w) (hd : Heard renv w (.post task) d) :
    Telling Before After tasks left (exec (fleetNet renv) t w (.post task) d).2 := by
  intro addr hlisted
  have hlisted' : Listed w.etcd addr := hlisted
  show After w.etcd (renv addr) (deliver renv w.net task d addr) ∨
    _ ∧ Before w.etcd (renv addr) (deliver renv w.net task d addr)
  by_cases haddr : addr = task.address
  · subst haddr
    obtain ⟨hdelivered, htakes⟩ := hd (hbody ▸ hnews.toRouter) hlisted'
    rw [deliver_self hdelivered, hbody]
    refine Or.inl ?_
    rcases h _ hlisted' with hafter | ⟨-, hbefore⟩
    · exact hnews.again hafter
    · exact hnews.told hbefore fun sp hsp => htakes sp (hbody.trans hsp)
  · rw [deliver_other haddr]
    rcases h addr hlisted' with hafter | ⟨⟨j, hj, task', htask', heq⟩, hbefore⟩
    · exact Or.inl hafter
    · refine Or.inr ⟨⟨j, ?_, task', htask', heq⟩, hbefore⟩
      rcases List.mem_cons.mp hj with rfl | hj
      · cases htask.symm.trans htask'
        exact absurd heq.symm haddr
      · exact hj

/-- **The registered routers are told**, in whatever order the requests are sent. -/
theorem safe_tell (hnews : News json body Before After) {routers : List (String × Int)}
    {tr : Trace Op Res} {w : World (fleetNet renv)}
    (hw : Guard.Held t (fun w : World (fleetNet renv) => ∀ addr, Listed w.etcd addr →
      addr ∈ routers ∧ Before w.etcd (renv addr) (w.net addr)) w) :
    Safe (fleetGuard json renv).protocol t i
      (fun _ _ w => Guard.Held t (AllServe json) w)
      (parallelExecute (routers.map fun r => ⟨r.1, r.2, body⟩)) tr w := by
  refine (Guard.safe_round (G := fleetGuard json renv)
    (J := fun left _ w => Telling Before After (routers.map fun r => ⟨r.1, r.2, body⟩) left w)
    ?_ ?_ ?_ ⟨hw.1, fun left hleft addr hlisted => ?_⟩).mono ?_
  · exact fun left _ w w' h hs => h.of_same hnews hs
  · intro k left _ w hnone h addr hlisted
    rcases h addr hlisted with hafter | ⟨⟨j, hj, task, htask, heq⟩, hbefore⟩
    · exact Or.inl hafter
    · refine Or.inr ⟨⟨j, ?_, task, htask, heq⟩, hbefore⟩
      rcases List.mem_cons.mp hj with rfl | hj
      · cases hnone.symm.trans htask
      · exact hj
  · intro k left _ w task d htask halways h hd
    obtain ⟨r, -, hr⟩ := List.mem_map.mp (List.mem_of_getElem? htask)
    exact ⟨halways, h.post hnews htask (by rw [← hr]) hd⟩
  · obtain ⟨hmem, hbefore⟩ := hw.2 addr hlisted
    obtain ⟨k, hk⟩ := List.mem_iff_getElem?.mp hmem
    refine Or.inr ⟨⟨k, hleft.mem_iff.mpr (List.mem_range.mpr ?_), ⟨addr.1, addr.2, body⟩, ?_, rfl⟩,
      hbefore⟩
    · rw [List.length_map]
      exact (List.getElem?_eq_some_iff.mp hk).1
    · rw [List.getElem?_map, hk]
      rfl
  · rintro replies tr' w' - ⟨got, -, hlock, h⟩
    refine ⟨hlock, fun addr hlisted => ?_⟩
    rcases h addr hlisted with hafter | ⟨⟨k, hk, -⟩, -⟩
    · exact hnews.serves hafter
    · cases hk

end

theorem news_create (hjson : ∀ sp, json.unmarshal (json.marshal sp) = sp) (sp : InnerSpace) :
    News json (.routerCreate sp) (Lacks json sp) (Has json sp) where
  before_agree h ha := h.agree ha
  after_agree h ha := ⟨h.1.agree ha, h.2⟩
  told h ht := h.told hjson (ht sp rfl)
  again h := h.told
  serves h := h.1
  toRouter := trivial

theorem news_delete (db sp val : String) :
    News json (.routerDelete db sp) (Outdated json db sp val) (Cleared json db sp) where
  before_agree h ha := h.agree ha
  after_agree h ha := ⟨h.1.agree ha, h.2⟩
  told h _ := h.told
  again h := h.told
  serves h := h.1
  toRouter := trivial

theorem mem_routers {e : Std.TreeMap String String} {routers : List (String × Int)}
    (h : routerDeserializeFromByte ((scanEtcd e routerNodesPrefix).map Prod.fst) = some routers)
    {addr : String × Int} (hlisted : Listed e addr) : addr ∈ routers := by
  obtain ⟨key, val, hval, hpre, haddr⟩ := hlisted
  have hkey : key ∈ (scanEtcd e routerNodesPrefix).map Prod.fst :=
    List.mem_map.mpr ⟨(key, val), mem_scanEtcd.mpr ⟨hval, hpre⟩, rfl⟩
  unfold routerDeserializeFromByte at h
  generalize (scanEtcd e routerNodesPrefix).map Prod.fst = keys at h hkey
  induction keys generalizing routers with
  | nil => cases hkey
  | cons k keys ih =>
    rw [List.mapM_cons] at h
    obtain ⟨r, hr, h⟩ := Option.bind_eq_some_iff.mp h
    obtain ⟨rs, hrs, h⟩ := Option.bind_eq_some_iff.mp h
    cases h
    rcases List.mem_cons.mp hkey with rfl | hkey
    · cases hr.symm.trans haddr
      exact List.mem_cons_self
    · exact List.mem_cons_of_mem _ (ih hrs hkey)

section

variable {body : Body}
  {Before After : Std.TreeMap String String → Router.Env → Router.State → Prop}

def AllBefore (Before : Std.TreeMap String String → Router.Env → Router.State → Prop)
    (w : World (fleetNet renv)) : Prop :=
  ∀ addr, Listed w.etcd addr → Before w.etcd (renv addr) (w.net addr)

theorem AllBefore.of_same (hnews : News json body Before After) {w w' : World (fleetNet renv)}
    (h : AllBefore Before w) (hs : Agree spacesMataPrefix w.etcd w'.etcd ∧ Stays w w') :
    AllBefore Before w' := by
  intro addr hlisted
  obtain ⟨hlisted', hnet⟩ := hs.2 addr hlisted
  rw [hnet]
  exact hnews.before_agree (h addr hlisted') hs.1

/-- **The master reads the routers and tells them.** -/
theorem safe_tellListed (hnews : News json body Before After) {e : Std.TreeMap String String}
    {routers : List (String × Int)}
    (hrouters : routerDeserializeFromByte ((scanEtcd e routerNodesPrefix).map Prod.fst)
      = some routers) {tr : Trace Op Res} {w : World (fleetNet renv)}
    (hw : Guard.Held t (fun w : World (fleetNet renv) => AllBefore Before w ∧
      ∀ addr, Listed w.etcd addr → Listed e addr) w) :
    Safe (fleetGuard json renv).protocol t i
      (fun r _ w => r = some () ∧ Guard.Held t (AllServe json) w)
      (visit routers >>= fun routers => parallelExecute (routers.map fun r => ⟨r.1, r.2, body⟩) >>=
        fun _ => pure (some ())) tr w := by
  have hJ : ∀ w w' : World (fleetNet renv), (AllBefore Before w ∧
      ∀ addr, Listed w.etcd addr → Listed e addr) → (fleetGuard json renv).same w w' →
        AllBefore Before w' ∧ ∀ addr, Listed w'.etcd addr → Listed e addr :=
    fun w w' h hs => ⟨h.1.of_same hnews hs, fun addr hl => h.2 addr (hs.2 addr hl).1⟩
  refine safe_seq ((safe_yields (Guard.safe_notes (ofSpaces_fleet json renv) hJ
    (uses_visit trivial) hw) (returns_visit _)).mono ?_)
  rintro routers' tr₁ w₁ - ⟨hw₁, -, -, hperm⟩
  have hw₂ : Guard.Held t (fun w : World (fleetNet renv) => ∀ addr, Listed w.etcd addr →
      addr ∈ routers' ∧ Before w.etcd (renv addr) (w.net addr)) w₁ := by
    refine ⟨hw₁.1, fun addr hlisted => ⟨hperm.mem_iff.mpr ?_, hw₁.2.1 addr hlisted⟩⟩
    exact mem_routers hrouters (hw₁.2.2 addr hlisted)
  refine safe_seq ((safe_tell hnews hw₂).mono fun _ tr₂ w₂ _ hw₃ => ?_)
  exact safe_ret fun w₃ hr _ => ⟨rfl, hw₃.rely (fleetGuard json renv).good_of_same hr⟩

end

theorem safe_addRouterSpace (hjson : ∀ sp, json.unmarshal (json.marshal sp) = sp)
    (sp : InnerSpace) {tr : Trace Op Res} {w : World (fleetNet renv)}
    (hw : Guard.Held t (AllBefore (Lacks json sp)) w) :
    Safe (fleetGuard json renv).protocol t i
      (fun _ _ w => Guard.Held t (AllServe json) w) (addRouterSpace sp) tr w := by
  have hnews := news_create hjson sp
  refine safe_seq (safe_perform fun w₁ hr hinv => ⟨trivial, fun c hc => ?_⟩)
  have hw₁ := hw.rely (fun _ _ h hs => h.of_same hnews hs) hr
  refine ⟨Guard.fair_holder hw₁.1 hw₁.1 hinv.always, ?_⟩
  obtain rfl : c = none := Option.isNone_iff_eq_none.mp hc.1
  obtain ⟨routers, hrouters⟩ := hinv.always.2.exists_routers
  refine safe_ret fun w₂ hr₂ _ => ?_
  simp only [hrouters]
  refine (safe_tellListed hnews hrouters ⟨hr₂.1.mpr hw₁.1, ?_, ?_⟩).mono fun _ _ _ _ h => h.2
  · exact hw₁.2.of_same hnews (hr₂.2 hw₁.1)
  · exact fun addr hl => ((hr₂.2 hw₁.1).2 addr hl).1

theorem safe_deleteRouterSpace (db sp val : String) {tr : Trace Op Res}
    {w : World (fleetNet renv)} (hw : Guard.Held t (AllBefore (Outdated json db sp val)) w) :
    Safe (fleetGuard json renv).protocol t i
      (fun r _ w => r = some () ∧ Guard.Held t (AllServe json) w)
      (deleteRouterSpace db sp) tr w := by
  have hnews := @news_delete json db sp val
  refine safe_perform fun w₁ hr hinv => ⟨trivial, fun c hc => ?_⟩
  have hw₁ := hw.rely (fun _ _ h hs => h.of_same hnews hs) hr
  refine ⟨Guard.fair_holder hw₁.1 hw₁.1 hinv.always, ?_⟩
  obtain rfl : c = none := Option.isNone_iff_eq_none.mp hc.1
  obtain ⟨routers, hrouters⟩ := hinv.always.2.exists_routers
  have hscan : ((master (fleetNet renv)).exec t w₁ (.scan routerNodesPrefix) none).1
      = .ok (scanEtcd (World.etcd w₁) routerNodesPrefix) := rfl
  simp only [hscan, hrouters]
  exact safe_tellListed hnews hrouters ⟨hw₁.1, hw₁.2, fun _ hl => hl⟩

/-! ### The rest of the work -/

/-- The operations that do not concern the routers. -/
def AwayOp (o : Op) : Prop := NotingOp o ∨ ∃ task, o = .post task ∧ ¬ ToRouter task.body

theorem deliver_of_not_toRouter {routers : String × Int → Router.State} {task : Task}
    {d : Handling} (h : ¬ ToRouter task.body) : deliver renv routers task d = routers := by
  unfold deliver
  split_ifs
  · rw [handle_of_not_toRouter h, Function.update_eq_self]
  · rfl

theorem safe_away {J : World (fleetNet renv) → Prop}
    (hJ : ∀ w w', J w → (fleetGuard json renv).same w w' → J w') {p : Prog α}
    (hp : p.Uses AwayOp) {tr : Trace Op Res} {w : World (fleetNet renv)}
    (hw : Guard.Held t J w) :
    Safe (fleetGuard json renv).protocol t i (fun _ _ w => Guard.Held t J w) p tr w := by
  refine Guard.safe_keeping hJ (fun o ho => ?_) hp hw
  rcases ho with hnote | ⟨task, rfl, hbody⟩
  · refine ⟨hnote.not_lockOp, fun w c halways hw _ _ => ?_⟩
    obtain ⟨hsame, hkeeps⟩ := (ofSpaces_fleet json renv).notingOp (t := t) hnote w c
    exact ⟨hkeeps halways, hJ _ _ hw hsame⟩
  · refine ⟨id, fun w d halways hw _ _ => ⟨halways, hJ _ _ hw (same_of_eq rfl ?_)⟩⟩
    exact deliver_of_not_toRouter hbody

theorem uses_psCreate (sp : InnerSpace) : (parallelCreatePsSpace sp).Uses AwayOp := by
  refine uses_seq (uses_parallelExecute (Or.inl trivial) fun task htask => ?_) fun _ => trivial
  obtain ⟨partition, -, htask⟩ := List.mem_flatMap.mp htask
  obtain ⟨rep, -, rfl⟩ := List.mem_map.mp htask
  exact Or.inr ⟨_, rfl, id⟩

theorem uses_psDelete (sp : InnerSpace) : (parallelDeletePsSpace sp).Uses AwayOp := by
  refine uses_seq (uses_parallelExecute (Or.inl trivial) fun task htask => ?_) fun _ => trivial
  refine Or.inr ⟨task, rfl, ?_⟩
  rw [body_of_mem_psDeleteTasks htask]
  exact id

theorem awayOp_of_undoOp {db sp : String} (o : Op) (h : UndoOp db sp o) : AwayOp o := by
  cases o with
  | put key val => exact Or.inl h
  | get key => exact Or.inl trivial
  | order n => exact Or.inl trivial
  | post task =>
    refine Or.inr ⟨task, rfl, ?_⟩
    rw [show task.body = _ from h]
    exact id
  | _ => exact h.elim

/-- A space that is new to the store is one that the routers lack. -/
theorem AllServe.lacks {sp : InnerSpace} {w : World (fleetNet renv)} (h : AllServe json w)
    (hnamed : WellNamed json w.etcd)
    (hno : ¬ Master.Recorded json w.etcd (sp.dbName, sp.spaceName)) :
    AllBefore (Lacks json sp) (w.withEtcd
      (w.etcd.insert (getSpaceEtcdKey sp.dbName sp.spaceName) (json.marshal sp))) := by
  intro addr hlisted
  have hlisted' : Listed w.etcd addr :=
    hlisted.agree (agree_insert (not_routerKey_getSpaceEtcdKey _ _))
  refine ⟨spaceAt_insert_self, (h addr hlisted').of_shrinks ?_ ?_⟩
  · intro key val hval
    have hne : key ≠ getSpaceEtcdKey sp.dbName sp.spaceName := by
      rintro rfl
      exact absurd (Std.TreeMap.getElem?_erase_self.symm.trans hval.1) (by simp)
    rcases spaceAt_insert (shrinks_erase _ _ _ _ hval) with ⟨rfl, -⟩ | ⟨-, hval⟩
    · exact absurd rfl hne
    · exact hval
  · intro key val hval
    have hne := hnamed.ne_key hno hval
    exact spaceAt_erase (spaceAt_insert_of_ne hval hne) hne

/-- A space that leaves the store is one of which the routers still have to hear. -/
theorem AllServe.outdated {db sp val : String} {w : World (fleetNet renv)} (h : AllServe json w)
    (hnamed : WellNamed json w.etcd) (hat : SpaceAt w.etcd (getSpaceEtcdKey db sp) val) :
    AllBefore (Outdated json db sp val) (w.withEtcd (w.etcd.erase (getSpaceEtcdKey db sp))) := by
  intro addr hlisted
  have hlisted' : Listed w.etcd addr :=
    hlisted.agree (agree_erase (not_routerKey_getSpaceEtcdKey _ _))
  have hgone : ∀ v, ¬ SpaceAt (w.etcd.erase (getSpaceEtcdKey db sp)) (getSpaceEtcdKey db sp) v :=
    fun v hv => absurd (Std.TreeMap.getElem?_erase_self.symm.trans hv.1) (by simp)
  refine ⟨hnamed.store.shrinks (shrinks_erase _ _), hnamed.names_of_key hat, hgone,
    (h addr hlisted').of_shrinks ?_ ?_⟩
  · intro key v hv
    rcases spaceAt_insert hv with ⟨rfl, rfl⟩ | ⟨-, hv⟩
    · exact hat
    · exact shrinks_erase _ _ _ _ hv
  · intro key v hv
    by_cases hkey : key = getSpaceEtcdKey db sp
    · subst hkey
      cases hat.1.symm.trans hv.1
      exact spaceAt_insert_self
    · exact spaceAt_insert_of_ne (spaceAt_erase hv hkey) hkey

def Storable (json : SpaceJson) (sp : InnerSpace) (w : World (fleetNet renv)) : Prop :=
  AllServe json w ∧ ¬ Master.Recorded json w.etcd (sp.dbName, sp.spaceName) ∧
    Free json sp.replicas w.etcd

theorem Storable.of_same {sp : InnerSpace} (w w' : World (fleetNet renv))
    (h : Storable json sp w) (hs : (fleetGuard json renv).same w w') : Storable json sp w' :=
  ⟨h.1.of_same hs, fun hrec => h.2.1 (hrec.shrinks hs.1.shrinks), h.2.2.shrinks hs.1.shrinks⟩

/-- **The space is stored**; the requests to the PS nodes do not matter to the routers. -/
theorem safe_fill (hjson : ∀ sp, json.unmarshal (json.marshal sp) = sp) (pre : String)
    (sp : InnerSpace) (hdb : nameValidate sp.dbName = "") (hsp : nameValidate sp.spaceName = "")
    {tr : Trace Op Res} {w : World (fleetNet renv)} (hw : Guard.Held t (Storable json sp) w) :
    Safe (fleetGuard json renv).protocol t i
      (fun r _ w => Guard.Filled (fleetGuard json renv) (fun sp => AllBefore (Lacks json sp)) t r w)
      (createFilled json pre sp) tr w := by
  refine Guard.safe_createFilled (ofSpaces_fleet json renv)
    (fun sp _ _ h hs => h.of_same (news_create hjson sp) hs) Storable.of_same
    (D := Storable json sp) (U := Storable json sp) Storable.of_same ?_ ?_ ?_ pre hw
  · intro tr₁ w₁ hw₁
    refine (safe_away Storable.of_same (uses_psCreate sp) hw₁).mono fun failed _ w₂ _ hw₂ => ?_
    exact ⟨fun _ => ⟨hw₂.1, hw₂.2.1⟩, fun _ => hw₂, fun _ _ _ => hw₂⟩
  · intro p hp tr₁ w₁ hw₁
    refine (safe_away Storable.of_same (hp.mono awayOp_of_undoOp) hw₁).mono ?_
    exact fun _ _ _ _ h => ⟨h.1, h.2.1⟩
  · rintro w₁ halways ⟨hserve, hno, hfree⟩ e rfl
    exact ⟨⟨halways.1.insert (hjson sp) hdb hsp hfree,
      halways.2.of_agree (agree_insert (not_routerKey_getSpaceEtcdKey _ _))⟩,
      hserve.lacks halways.1 hno⟩

theorem createParts_fleet (hjson : ∀ sp, json.unmarshal (json.marshal sp) = sp) :
    Guard.CreateParts (fleetGuard json renv) json fun sp => AllBefore (Lacks json sp) where
  stable sp _ _ h hs := h.of_same (news_create hjson sp) hs
  filled space idle time id pre hdb hsp hparts t i tr w hw := by
    refine safe_fill hjson pre (filledSpace space idle time id) hdb hsp
      ⟨hw.1, hw.2.1, hw.2.2.1, ?_⟩
    rw [replicas_filledSpace hparts]
    exact hw.2.2.2.sublist (List.take_sublist _ _)
  routers sp _ _ _ _ hw := safe_addRouterSpace hjson sp hw

theorem deleteParts_fleet (req : DeleteSpaceRequest) (detail : String) :
    Guard.DeleteParts (fleetGuard json renv) json req detail
      (AllBefore (Outdated json req.dbName req.spaceName detail)) (AllServe json) where
  erase w halways hserve hat e he := by
    subst he
    exact ⟨⟨halways.1.shrinks (shrinks_erase _ _),
      halways.2.of_agree (agree_erase (not_routerKey_getSpaceEtcdKey _ _))⟩,
      AllServe.outdated hserve halways.1 hat⟩
  routers t i tr w hw := by
    refine (safe_deleteRouterSpace req.dbName req.spaceName detail hw).mono ?_
    rintro r tr₁ w₁ - ⟨rfl, hw₁⟩
    exact ⟨fun hnone => (nomatch hnone), fun _ => hw₁⟩
  nodes t i tr w hw :=
    safe_away (fleetGuard json renv).good_of_same (uses_psDelete (json.unmarshal detail)) hw

/-! ### Runs -/

/-- All calls to etcd succeed, no delete loses its last attempt at the lock, and a registered
router hears of the spaces and takes them.  From outside the other keys of the store change.
Routers leave at any time, and while the lock is free new ones start and register. -/
def FleetOk (json : SpaceJson) (renv : String × Int → Router.Env)
    (c : Cluster (fleetNet renv)) : Event (master (fleetNet renv)) Request → Prop
  | .spawn _ _ => True
  | .act t pick => nextUp c t pick = true ∧ lastTryLost c t pick = false ∧
      ∀ i tr o k, c.threads t = some ⟨i, tr, .call o k⟩ → Heard renv c.state o (pick o)
  | .env w => World.lock w = World.lock c.state ∧
      Agree spacesMataPrefix (World.etcd c.state) (World.etcd w) ∧ RouterKeysOk (World.etcd w) ∧
      ∀ addr, Listed (World.etcd w) addr →
        (Listed (World.etcd c.state) addr ∧ World.net w addr = World.net c.state addr) ∨
          (World.lock c.state = none ∧
            Started json (renv addr) (World.etcd w) (World.net w addr))

theorem fleetOk_ok (c : Cluster (fleetNet renv)) (e : Event (master (fleetNet renv)) Request)
    (h : FleetOk json renv c e) : (fleetGuard json renv).Ok c e := by
  cases e with
  | spawn t i => trivial
  | act t pick => exact h
  | env w =>
    obtain ⟨hlock, hspaces, hkeys, hrouters⟩ := h
    refine ⟨hlock, fun hinv => ⟨⟨hinv.always.1.shrinks hspaces.shrinks, hkeys⟩,
      fun hnone addr hlisted => ?_, fun hheld => ⟨hspaces, fun addr hlisted => ?_⟩⟩⟩
    · rcases hrouters addr hlisted with ⟨hlisted', hnet⟩ | ⟨-, hstarted⟩
      · rw [hnet]
        exact (hinv.good hnone addr hlisted').agree hspaces
      · exact hstarted.serves
    · rcases hrouters addr hlisted with hstays | ⟨hnone, -⟩
      · exact hstays
      · exact absurd hnone hheld

def routerAddr : String × Int := ("10.0.0.2", 9090)

def oneNode : World (fleetNet fun _ => Router.libEnv) where
  etcd := startedEtcd.insert (getPsRegisterKey "10.0.0.1" 8081 1) ""
  net := fun _ => {}

def emptyStart : Router.Startup where
  range := some []
  jsonToPb _ := .error ""

def joined : World (fleetNet fun _ => Router.libEnv) where
  etcd := oneNode.etcd.insert (Cluster.genRouterNodeKey "10.0.0.2" 9090) "9090"
  net := fun _ => (Router.init Router.libEnv 1000 emptyStart).2

instance (env : Router.Env) (m : Router.SpaceManager) (space : Space) :
    Decidable (Router.Reachable env m space) := inferInstanceAs (Decidable (_ ∧ _ ∧ _))

def hasRoom (s : Router.State) : Body → Bool
  | .routerCreate sp => (Router.addSpace Router.libEnv s (pbSpace sp)).1 = "" &&
      decide (Router.Reachable Router.libEnv s.manager (pbSpace sp))
  | .routerDelete _ _ => true
  | .psCreate _ _ => true
  | .psDelete _ _ => true

theorem takes_of_hasRoom {s : Router.State} {body : Body} (h : hasRoom s body = true)
    {sp : InnerSpace} (hbody : body = .routerCreate sp) :
    Takes Router.libEnv s (pbSpace sp) := by
  subst hbody
  rw [hasRoom, Bool.and_eq_true, decide_eq_true_iff, decide_eq_true_iff] at h
  exact Or.inl h

/-- No attempt at the lock is lost, and the router has room for what it is told. -/
def Smooth (c : Cluster (fleetNet fun _ => Router.libEnv))
    (e : Event (master (fleetNet fun _ => Router.libEnv)) Request) : Prop :=
  LocksTaken c e ∧ (Guard.nextPost c 0).elim true
    (fun task => hasRoom (World.net c.state task.address) task.body) = true

instance (c : Cluster (fleetNet fun _ => Router.libEnv))
    (e : Event (master (fleetNet fun _ => Router.libEnv)) Request) : Decidable (Smooth c e) :=
  inferInstanceAs (Decidable (_ ∧ _))

def oneCreate : List (Event (master (fleetNet fun _ => Router.libEnv)) Request) :=
  .spawn 0 (.create (.ok sampleApi)) ::
    List.replicate 24 (.act 0 (smooth (fleetNet fun _ => Router.libEnv) sampleTime {}))

def oneCreated : Cluster (fleetNet fun _ => Router.libEnv) :=
  oneCreate.foldl (step (serve goJson)) (Config.init joined)

theorem smooth_oneCreate :
    RunOk (step (serve goJson)) Smooth (Config.init joined) oneCreate := by
  decide +kernel

theorem joined_ok :
    FleetOk goJson (fun _ => Router.libEnv) (Config.init oneNode) (.env joined) := by
  have hspaces : scanEtcd joined.etcd spacesMataPrefix = [] := by decide +kernel
  have hrange : Router.initRange joined.etcd = [] :=
    (Router.rangeEtcd_eq_scanEtcd joined.etcd (by decide)).trans hspaces
  refine ⟨rfl, agree_insert (by decide +kernel), fun key val hval hpre => ?_, fun addr _ =>
    Or.inr ⟨rfl, 1000, emptyStart, by decide, by rw [hrange]; rfl, fun _ => rfl,
      fun key val hval => absurd hval (not_spaceAt_of_empty hspaces key val), ?_, ?_, rfl⟩⟩
  · have hmem : key ∈ (scanEtcd joined.etcd routerNodesPrefix).map Prod.fst :=
      List.mem_map.mpr ⟨(key, val), mem_scanEtcd.mpr ⟨hval, hpre⟩, rfl⟩
    have hall : ∀ key ∈ (scanEtcd joined.etcd routerNodesPrefix).map Prod.fst,
        3 ≤ (splitColon key).length := by decide +kernel
    exact hall key hmem
  · rw [hrange]
    decide
  · show Router.Separate Router.libEnv emptyStart.spaces
    decide

theorem reach_oneCreated : Reach (step (serve goJson)) (FleetOk goJson fun _ => Router.libEnv)
    (Config.init oneNode) oneCreated := by
  have hjoin : Reach (step (serve goJson)) (FleetOk goJson fun _ => Router.libEnv)
      (Config.init oneNode) (Config.init joined) := Reach.next _ Reach.start joined_ok
  refine reach_of_runOk oneCreate _ hjoin (smooth_oneCreate.mono fun e he c hsmooth => ?_)
  rcases List.mem_cons.mp he with rfl | he
  · trivial
  · rw [(List.mem_replicate.mp he).2] at hsmooth ⊢
    refine ⟨nextUp_smooth c 0 sampleTime {}, hsmooth.1, fun i tr o k ht => ?_⟩
    cases o with
    | post task =>
      have hroom := hsmooth.2
      rw [Guard.nextPost_eq ht] at hroom
      exact fun _ _ => ⟨rfl, fun sp hsp => takes_of_hasRoom hroom hsp⟩
    | _ => trivial

end SimSearch.Fleet
