import SimSearch.Router.RaftWrites
import SimSearch.Raft.Group

/-!
# An upsert, from the router to the replicas

`Router/RaftWrites.lean` has the writes of an upsert down to the RPCs of the client, and
`Raft/Group.lean` has a raft group under any RPCs.  This file runs the first on the second: `link`
is the machine whose state is the group, where an RPC of the client is one of the writes that come
in at a node, and anything else may happen in the group while a call of the client is going on.

`upsert_in_history` goes through all layers.  If the response of `RouterDocRpcImpl::Upsert` has no
failed document, then every document of the request was committed, and it is held by all replicas
that have come that far without a snapshot.  The proof follows the calls: `rpc_landed` is one RPC,
`post_writeFrom` the three attempts of `RaftClient::Write`, `post_writeDocs` the loop of
`UpsertDocs`.
-/

namespace SimSearch.Router

open SimSearch.Lib SimSearch.Raft SimSearch.Raft.RaftGroup

variable {G : Setting}

/-! ### The client and the group -/

/-- What can come of a call: what happens in the group meanwhile, and what the call returns; for
an RPC, whether it reaches the node, and whether the response is lost. -/
structure CallChoice (G : Setting) (o : ClientOp) where
  meanwhile : List RaftGroup.Event
  carries : ∀ e ∈ meanwhile, e.Brings G.Carries
  result : ClientRes o
  served : Bool
  lost : Bool
  errorText : String

def CallChoice.after {o : ClientOp} (c : CallChoice G o) (g : RaftGroup G) : RaftGroup G :=
  c.meanwhile.foldl RaftGroup.step g

def CallChoice.outcome {o : ClientOp} (c : CallChoice G o) (rpc : Nat) (g : RaftGroup G) :
    Except String BlockResponse :=
  match g.answers.lookup rpc, c.lost with
  | some resp, false => .ok resp
  | _, _ => .error c.errorText

/-- The calls of a client in a group; `addr` finds the node for the text of a peer. -/
def link (G : Setting) (addr : String → Nat) : Machine ClientOp ClientRes where
  State := RaftGroup G
  Choice := CallChoice G
  exec _ g o c :=
    match o, c with
    | .rpc leader req data, c =>
      if c.served then
        let g' := c.after (g.step (.write (addr leader) req data))
        (c.outcome g.sent.length g', g')
      else (.error c.errorText, c.after g)
    | _, c => (c.result, c.after g)

structure From (g g' : RaftGroup G) : Prop where
  reached : Reached g'
  later : Later g g'

theorem From.refl {g : RaftGroup G} (h : Reached g) : From g g := ⟨h, Later.refl g⟩

theorem From.trans {g₁ g₂ g₃ : RaftGroup G} (h : From g₁ g₂) (h' : From g₂ g₃) : From g₁ g₃ :=
  ⟨h'.reached, h.later.trans h'.later⟩

theorem From.step {g g' : RaftGroup G} (h : From g g') {e : RaftGroup.Event}
    (he : e.Brings G.Carries) : From g (g'.step e) :=
  ⟨Reach.next e h.reached he, h.later.trans (later_moves (step_moves g' he))⟩

theorem from_foldl {g : RaftGroup G} : ∀ (es : List RaftGroup.Event) (g' : RaftGroup G),
    From g g' → (∀ e ∈ es, e.Brings G.Carries) → From g (es.foldl RaftGroup.step g') := by
  intro es
  induction es with
  | nil => intro g' h _; exact h
  | cons e es ih =>
    intro g' h hes
    exact ih _ (h.step (hes e List.mem_cons_self)) fun x hx => hes x (List.mem_cons_of_mem _ hx)

theorem From.after {g g' : RaftGroup G} (h : From g g') {o : ClientOp} (c : CallChoice G o) :
    From g (c.after g') := from_foldl c.meanwhile g' h c.carries

/-! ### One RPC -/

/-- A write of `data` that came in as the RPC `base` or later is settled. -/
def Landed (base : Nat) (g : RaftGroup G) (req : BlockRequest) (data : Bytes) : Prop :=
  ∃ rpc, base ≤ rpc ∧ Settled g rpc ∧ g.sent[rpc]? = some (req, data)

theorem getElem?_sent_later {g g' : RaftGroup G} (h : Later g g') {i : Nat}
    {x : BlockRequest × Bytes} (hi : g.sent[i]? = some x) : g'.sent[i]? = some x := by
  obtain ⟨more, hmore⟩ := h.sent
  rw [hmore, List.getElem?_append_left (List.getElem?_eq_some_iff.mp hi).1]
  exact hi

theorem length_sent_le {g g' : RaftGroup G} (h : Later g g') : g.sent.length ≤ g'.sent.length := by
  obtain ⟨more, hmore⟩ := h.sent
  rw [hmore, List.length_append]
  exact Nat.le_add_right _ _

theorem Landed.later {base : Nat} {g g' : RaftGroup G} {req : BlockRequest} {data : Bytes}
    (h : Landed base g req data) (hl : Later g g') : Landed base g' req data := by
  obtain ⟨rpc, hle, hset, hsent⟩ := h
  exact ⟨rpc, hle, hset.later hl, getElem?_sent_later hl hsent⟩

theorem Landed.base_le {base base' : Nat} {g : RaftGroup G} {req : BlockRequest} {data : Bytes}
    (h : Landed base' g req data) (hle : base ≤ base') : Landed base g req data := by
  obtain ⟨rpc, hrpc, hrest⟩ := h
  exact ⟨rpc, hle.trans hrpc, hrest⟩

theorem mem_of_lookup {l : List (Nat × BlockResponse)} {k : Nat} {resp : BlockResponse}
    (h : l.lookup k = some resp) : (k, resp) ∈ l := by
  induction l with
  | nil => cases h
  | cons a l ih =>
    rw [List.lookup_cons] at h
    by_cases hk : k = a.1
    · simp only [hk, beq_self_eq_true] at h
      cases h
      rw [hk]
      exact List.mem_cons_self
    · rw [beq_false_of_ne hk] at h
      exact List.mem_cons_of_mem _ (ih h)

theorem sent_write (g : RaftGroup G) (n : Nat) (req : BlockRequest) (data : Bytes) :
    (g.step (.write n req data)).sent = g.sent ++ [(req, data)] := by
  unfold RaftGroup.step onWrite
  simp only
  cases g.members n with
  | none => rfl
  | some m =>
    cases hw : m.write G.codec req data with
    | inl resp => simp only [hw]; rfl
    | inr c => simp only [hw]

/-- **What an RPC of the client brings**: if its response says `success`, the write is settled. -/
theorem rpc_landed {addr : String → Nat} {t : Nat} {g : RaftGroup G} (hg : Reached g)
    {leader : String} {req : BlockRequest} {data : Bytes} (hreq : G.Carries req)
    (c : CallChoice G (.rpc leader req data)) :
    From g ((link G addr).exec t g (.rpc leader req data) c).2 ∧
      ∀ resp, ((link G addr).exec t g (.rpc leader req data) c).1 = .ok resp →
        resp.success.getD false = true →
        Landed g.sent.length ((link G addr).exec t g (.rpc leader req data) c).2 req data := by
  have hstart : From g (g.step (.write (addr leader) req data)) := (From.refl hg).step hreq
  unfold link
  simp only
  by_cases hserved : c.served = true
  · simp only [hserved, if_true]
    have hafter := hstart.after c
    refine ⟨hafter, fun resp hresp hsucc => ?_⟩
    unfold CallChoice.outcome at hresp
    split at hresp
    · rename_i hlook _
      cases hresp
      have htrue : resp.success = some true := by
        cases hs : resp.success with
        | none => rw [hs] at hsucc; cases hsucc
        | some b => rw [hs] at hsucc; exact congrArg some hsucc
      refine ⟨g.sent.length, Nat.le_refl _,
        (truthful_reached hafter.reached).2 _ (mem_of_lookup hlook) htrue, ?_⟩
      have hsent : (g.step (.write (addr leader) req data)).sent[g.sent.length]?
          = some (req, data) := by
        rw [sent_write]
        exact List.getElem?_concat_length
      exact getElem?_sent_later ((From.refl hstart.reached).after c).later hsent
    · cases hresp
  · simp only [hserved]
    exact ⟨(From.refl hg).after c, fun resp hresp => (nomatch hresp)⟩

/-! ### The attempts of a write -/

def Quiet (o : ClientOp) : Prop := ∀ leader req data, o ≠ .rpc leader req data

theorem quiet_exec {addr : String → Nat} {t : Nat} {g g' : RaftGroup G} {o : ClientOp}
    (c : CallChoice G o) (ho : Quiet o) (h : From g g') :
    From g ((link G addr).exec t g' o c).2 := by
  unfold link
  simp only
  split
  · exact absurd rfl (ho _ _ _)
  · exact h.after c

theorem uses_getLeader (group conf : String) : ∀ (retries : Nat) (leader : String),
    (RaftClient.getLeader group conf retries leader).Uses Quiet := by
  intro retries
  induction retries with
  | zero => intro leader; trivial
  | succ retries ih =>
    intro leader
    refine Program.uses_call (fun _ _ _ h => (nomatch h)) fun selected => ?_
    cases selected with
    | some selected => trivial
    | none => exact Program.uses_call (fun _ _ _ h => (nomatch h)) fun _ => ih leader

theorem uses_createRaftConnection (c : RaftClient) (group conf : String) (i : Fin 2) :
    (c.createRaftConnection group conf i).Uses Quiet := by
  refine Program.uses_call (fun _ _ _ h => (nomatch h)) fun quit => ?_
  cases quit with
  | true => trivial
  | false =>
    refine Program.uses_seq (uses_getLeader group conf 3 _) fun x => ?_
    by_cases hmsg : x.1 = ""
    · simp only [hmsg, ne_eq, not_true_eq_false, if_false]
      refine Program.uses_call (fun _ _ _ h => (nomatch h)) fun built => ?_
      cases built <;> trivial
    · simp only [hmsg, ne_eq, not_false_eq_true, if_true]
      trivial

variable {addr : String → Nat} {t : Nat}

theorem post_createRaftConnection {g : RaftGroup G} (hg : Reached g) (c : RaftClient)
    (group conf : String) (i : Fin 2) :
    Post (link G addr) t (c.createRaftConnection group conf i) g fun _ _ g' => From g g' :=
  post_of_uses (M := link G addr) (From g) (fun _ _ choice ho h => quiet_exec choice ho h)
    (uses_createRaftConnection c group conf i) g (From.refl hg)

/-- What a write leaves: if the response says `success`, it has landed. -/
def Lands (req : BlockRequest) (data : Bytes) (g : RaftGroup G)
    (r : String × BlockResponse × RaftClient) (g' : RaftGroup G) : Prop :=
  From g g' ∧ (r.2.1.success.getD false = true → Landed g.sent.length g' req data)

theorem Lands.before {req : BlockRequest} {data : Bytes} {g g₁ g' : RaftGroup G}
    {r : String × BlockResponse × RaftClient} (h : Lands req data g₁ r g') (hf : From g g₁) :
    Lands req data g r g' :=
  ⟨hf.trans h.1, fun hs => (h.2 hs).base_le (length_sent_le hf.later)⟩

theorem post_writeFrom {req : BlockRequest} {data : Bytes} (hreq : G.Carries req) :
    ∀ (n : Nat) (msg : String) (resp : BlockResponse) (c : RaftClient) (g : RaftGroup G),
      resp.success.getD false = false → Reached g →
      Post (link G addr) t (RaftClient.writeFrom req data n msg resp c) g
        fun _ r g' => Lands req data g r g' := by
  intro n
  induction n with
  | zero =>
    intro msg resp c g hresp hg
    refine post_ret ⟨From.refl hg, fun hs => ?_⟩
    rw [hresp] at hs
    cases hs
  | succ n ih =>
    intro msg resp c g hresp hg
    -- what comes after an attempt that brought no `success`
    have hagain : ∀ (msg' : String) (resp' : BlockResponse) (g₁ : RaftGroup G),
        resp'.success.getD false = false → From g g₁ →
        Post (link G addr) t (c.createRaftConnection c.active.group c.active.conf (c.idx + 1)
            >>= fun x => RaftClient.writeFrom req data n msg' resp' x.2) g₁
          fun _ r g' => Lands req data g r g' := by
      intro msg' resp' g₁ hresp' h₁
      refine post_seq ((post_createRaftConnection h₁.reached c _ _ _).mono fun _ x g₂ h₂ => ?_)
      exact (ih msg' resp' x.2 g₂ hresp' h₂.reached).mono fun _ r g' h => h.before (h₁.trans h₂)
    by_cases hact : c.active.ok = false
    · simp only [RaftClient.writeFrom, hact, if_true]
      exact hagain msg {} g rfl (From.refl hg)
    · simp only [RaftClient.writeFrom, hact]
      refine post_perform fun choice => ?_
      obtain ⟨hfrom, hland⟩ := @rpc_landed G addr t g hg _ _ _ hreq choice
      cases hout : ((link G addr).exec t g (.rpc c.active.leader req data) choice).1 with
      | error errorText =>
        refine post_perform fun choice' => ?_
        exact hagain _ {} _ rfl (quiet_exec choice' (by rintro _ _ _ ⟨⟩) hfrom)
      | ok resp' =>
        by_cases hsucc : resp'.success.getD false = false
        · simp only [hsucc, if_true]
          refine post_perform fun choice' => ?_
          exact hagain _ resp' _ hsucc (quiet_exec choice' (by rintro _ _ _ ⟨⟩) hfrom)
        · simp only [hsucc]
          exact post_ret ⟨hfrom, hland resp' hout⟩

/-! ### The documents of a group -/

/-- The document of `info` was serialized, and its write has landed. -/
def InfoLanded (conn : PartitionConnetion) (base : Nat) (g : RaftGroup G) (info : PbDocInfo) :
    Prop :=
  ∃ binary, conn.serializeToString info.pbDoc = some binary ∧
    Landed base g (conn.blockRequest info.key) binary

theorem post_writeDoc (conn : PartitionConnetion) (c : RaftClient) (info : PbDocInfo)
    (hreq : G.Carries (conn.blockRequest info.key)) {g : RaftGroup G} (hg : Reached g) :
    Post (link G addr) t (conn.writeDoc c info) g fun _ r g' =>
      From g g' ∧ (r.1 = none → InfoLanded conn g.sent.length g' info) := by
  unfold PartitionConnetion.writeDoc
  cases hbin : conn.serializeToString info.pbDoc with
  | none => exact post_ret ⟨From.refl hg, fun h => (nomatch h)⟩
  | some binary =>
    refine post_seq ((post_writeFrom hreq 3 "" {} c g rfl hg).mono fun _ x g' hx => ?_)
    obtain ⟨oneMsg, resp, c'⟩ := x
    by_cases hfail : oneMsg ≠ "" ∨ resp.success.getD false = false
    · simp only [if_pos hfail]
      exact post_ret ⟨hx.1, fun h => (nomatch h)⟩
    · simp only [if_neg hfail]
      have hsucc : resp.success.getD false = true :=
        (Bool.not_eq_false _).mp (not_or.mp hfail).2
      exact post_ret ⟨hx.1, fun _ => ⟨binary, hbin, hx.2 hsucc⟩⟩

theorem post_writeDocs (conn : PartitionConnetion) :
    ∀ (infos : List PbDocInfo) (c : RaftClient) (err : Std.TreeMap String String)
      (g : RaftGroup G), (∀ info ∈ infos, G.Carries (conn.blockRequest info.key)) → Reached g →
      Post (link G addr) t (conn.writeDocs infos c err) g fun _ r g' =>
        From g g' ∧ (∀ k ∈ err, k ∈ r.1) ∧
          ∀ info ∈ infos, info.key ∉ r.1 → InfoLanded conn g.sent.length g' info := by
  intro infos
  induction infos with
  | nil =>
    intro c err g _ hg
    exact post_ret ⟨From.refl hg, fun _ h => h, fun _ h => (nomatch h)⟩
  | cons info infos ih =>
    intro c err g hreq hg
    refine post_seq ((post_writeDoc conn c info (hreq info List.mem_cons_self) hg).mono ?_)
    rintro _ x g₁ ⟨h₁, hx⟩
    refine (ih x.2 _ g₁ (fun i hi => hreq i (List.mem_cons_of_mem _ hi)) h₁.reached).mono ?_
    rintro _ r g' ⟨h', hkept, hrest⟩
    refine ⟨h₁.trans h', fun k hk => hkept k (mem_noteError.mpr (Or.inl hk)), fun i hi hkey => ?_⟩
    rcases List.mem_cons.mp hi with rfl | hi
    · have hnone : x.1 = none := by
        by_contra hsome
        exact hkey (hkept _ (mem_noteError.mpr (Or.inr ⟨hsome, rfl⟩)))
      obtain ⟨binary, hbin, hland⟩ := hx hnone
      exact ⟨binary, hbin, hland.later h'.later⟩
    · obtain ⟨binary, hbin, hland⟩ := hrest i hi hkey
      exact ⟨binary, hbin, hland.base_le (length_sent_le h₁.later)⟩

theorem post_upsertDocsBy (conn : PartitionConnetion) (c : RaftClient) (grp : DocsGroup)
    (hreq : ∀ info ∈ grp.pbDocInfos, G.Carries (conn.blockRequest info.key)) {g : RaftGroup G}
    (hg : Reached g) : Post (link G addr) t (conn.upsertDocsBy c grp) g fun _ r g' =>
      From g g' ∧
        ∀ info ∈ grp.pbDocInfos, info.key ∉ r.1 → InfoLanded conn g.sent.length g' info :=
  (post_writeDocs conn grp.pbDocInfos c ∅ g hreq hg).mono fun _ _ _ h => ⟨h.1, h.2.2⟩

/-! ### The upsert -/

/-- The document `d` was brought by a write that came in after `g`.  It has its place in the log,
the node that took it has applied it, and whoever has come past that place, and not by a snapshot,
holds it, or a document that was filed later under its key. -/
def InHistory (g g' : RaftGroup G) (d : GammaDoc) : Prop :=
  ∃ p t, g.sent.length ≤ t.rpc ∧ g'.log[p]? = some t ∧ G.docOf t = some d ∧
    (∃ m, g'.members t.node = some m ∧ m.Took p) ∧
    ∀ n m, g'.members n = some m → m.Took p →
      ∃ q t' d', p ≤ q ∧ m.Took q ∧ g'.log[q]? = some t' ∧ G.docOf t' = some d' ∧
        G.keyOf d' = G.keyOf d ∧ m.replica.store[G.keyOf d]? = some d'

theorem inHistory_of_landed {g g' : RaftGroup G} (hg : Reached g') {req : BlockRequest}
    {data : Bytes} {doc : Document} (h : Landed g.sent.length g' req data)
    (hparse : G.parse data = some doc) :
    InHistory g g' (pbDocToGammaDoc doc G.space {}).2 := by
  obtain ⟨rpc, hle, ⟨p, t, m, hp, hrpc, hm, hlt⟩, hsent⟩ := h
  obtain ⟨d, hd, hheld⟩ := (historic_reached hg).holds hp hm hlt
  have hdata : t.entry.data = data := by
    have hown := (truthful_reached hg).1.sent t
      (List.mem_append_right _ (List.mem_of_getElem? hp))
    rw [hrpc, hsent] at hown
    exact (Prod.mk.inj (Option.some.inj hown)).2.symm
  have hdoc : d = (pbDocToGammaDoc doc G.space {}).2 := by
    rw [Setting.docOf, hdata, hparse] at hd
    exact (Option.some.inj hd).symm
  subst hdoc
  exact ⟨p, t, hrpc ▸ hle, hp, hd, ⟨m, hm, hlt⟩, hheld⟩

/-- The partition that all documents of an upsert go to. -/
def upsertPartition (hasher : String → UInt64) (conn : SpaceConnection) : Int :=
  partitionIdx hasher conn.partitionNum ""

def SpaceConnection.withWrites (conn : SpaceConnection) (writes : Nat → String × BlockResponse) :
    SpaceConnection :=
  { conn with partitionList := fun p => (conn.partitionList p).withWrites writes }

/-- The documents of an upsert are all in the group of that partition, under the empty text. -/
theorem mem_upsertGroup (hasher : String → UInt64) (conn : SpaceConnection)
    {docs : List Document} {doc : Document} (hdoc : doc ∈ docs) :
    (⟨"", doc⟩ : PbDocInfo) ∈ (group newDocsGroup (upsertGroups hasher conn docs)
      (upsertPartition hasher conn)).pbDocInfos := by
  unfold upsertGroups upsertPartition
  rw [hashDocs_group, zipWith_upsertDocKeys]
  exact List.mem_filter.mpr ⟨List.mem_map_of_mem hdoc, by simp⟩

/-- The error map of the partition has no entry when no document is reported. -/
theorem upsertDocs_of_failedDocs_nil {hasher : String → UInt64} {conn : SpaceConnection}
    {req : UpsertRequest} (hdocs : ∀ doc ∈ req.documents, checkPbDocIn doc conn.pbSpace = "")
    (h : (upsert hasher (some conn) "" req).failedDocs = []) (key : String) :
    key ∉ (conn.partitionList (upsertPartition hasher conn)).upsertDocs
      (group newDocsGroup (upsertGroups hasher conn req.documents)
        (upsertPartition hasher conn)) := by
  rw [mem_upsertDocs]
  rintro ⟨j, info, hinfo, -, hack⟩
  refine hack ((failedDocs_upsert (upsert_of_checkPbDoc hdocs).1).1.mp h _ j info ⟨_, ?_, hinfo⟩)
  refine (getElem?_eq_some_iff_group newDocsGroup).mpr ⟨?_, rfl⟩
  -- the partition has a group, because the group has a document
  have hmem := List.mem_of_getElem? hinfo
  unfold upsertGroups at hmem ⊢
  rw [hashDocs_group, zipWith_upsertDocKeys, List.mem_filter, List.mem_map] at hmem
  obtain ⟨⟨doc, hdoc, -⟩, -⟩ := hmem
  refine mem_hashDocs.mpr ⟨"", ?_, rfl⟩
  exact List.mem_replicate.mpr ⟨Nat.ne_of_gt (List.length_pos_of_mem hdoc), rfl⟩

/-- **An upsert without a failed document is in the history of its group**: from the router's
response, through `UpsertDocs`, the three attempts of `RaftClient::Write` and `Block::write`, to
the engines of the replicas.  The client may be in any state, and anything may happen in the group
meanwhile: other writes, elections, lost responses, engines that refuse, snapshots that are loaded.
The processes of the group keep running. -/
theorem upsert_in_history (G : Setting) (addr : String → Nat) (t : Nat)
    (hasher : String → UInt64) (conn : SpaceConnection) (req : UpsertRequest) (c : RaftClient)
    (g : RaftGroup G) (hg : Reached g)
    (hdocs : ∀ doc ∈ req.documents, checkPbDocIn doc conn.pbSpace = "")
    (hreq : G.Carries ((conn.partitionList (upsertPartition hasher conn)).blockRequest ""))
    (hparse : ∀ doc ∈ req.documents, ∀ binary,
      (conn.partitionList (upsertPartition hasher conn)).serializeToString doc = some binary →
      G.parse binary = some doc) :
    Post (link G addr) t ((conn.partitionList (upsertPartition hasher conn)).upsertDocsBy c
        (group newDocsGroup (upsertGroups hasher conn req.documents)
          (upsertPartition hasher conn))) g fun _ r g' =>
      Reached g' ∧ ∃ writes,
        r.1 = (((conn.withWrites writes).partitionList (upsertPartition hasher conn)).upsertDocs
          (group newDocsGroup (upsertGroups hasher conn req.documents)
            (upsertPartition hasher conn))) ∧
        ((upsert hasher (some (conn.withWrites writes)) "" req).failedDocs = [] →
          ∀ doc ∈ req.documents, InHistory g g' (pbDocToGammaDoc doc G.space {}).2) := by
  have hkeys : ∀ info ∈ (group newDocsGroup (upsertGroups hasher conn req.documents)
      (upsertPartition hasher conn)).pbDocInfos,
      G.Carries ((conn.partitionList (upsertPartition hasher conn)).blockRequest info.key) := by
    intro info hinfo
    unfold upsertGroups at hinfo
    rw [hashDocs_group, zipWith_upsertDocKeys, List.mem_filter, List.mem_map] at hinfo
    obtain ⟨⟨doc, -, rfl⟩, -⟩ := hinfo
    exact hreq
  refine (Post.and (post_upsertDocsBy _ c _ hkeys hg)
    (post_yields (M := link G addr) (upsertDocsBy_refines _ c _) g)).mono ?_
  rintro _ r g' ⟨⟨hfrom, hland⟩, writes, hr⟩
  refine ⟨hfrom.reached, writes, hr, fun hnil doc hdoc => ?_⟩
  have hkey : "" ∉ r.1 := by
    rw [hr]
    exact @upsertDocs_of_failedDocs_nil hasher (conn.withWrites writes) req hdocs hnil ""
  obtain ⟨binary, hbin, hlanded⟩ := hland _ (mem_upsertGroup hasher conn hdoc) hkey
  exact inHistory_of_landed hfrom.reached hlanded (hparse doc hdoc binary hbin)

/-- The partitions of `twoPartitions`, with the wire format of one document. -/
def wirePartitions : SpaceConnection :=
  { twoPartitions with
    partitionList := fun p =>
      { twoPartitions.partitionList p with serializeToString := fun _ => some docOneBytes } }

def wireSetting : Setting where
  codec := wireCodec
  space := wirePartitions.pbSpace
  parse data := if data = docOneBytes then some (docWithId "1") else none
  keyOf := sampleEnv.keyOf
  addCode _ _ _ := 0

def ledGroup : RaftGroup wireSetting :=
  (({} : RaftGroup wireSetting).step (.start 0)).step (.onLeaderStart 0 1)

theorem reached_ledGroup : Reached ledGroup :=
  Reach.next (Event.onLeaderStart 0 1) (Reach.next (Event.start 0) Reach.start trivial) trivial

theorem upsert_in_history_one :
    wireSetting.Carries
        ((wirePartitions.partitionList (upsertPartition libstdcxxHash wirePartitions)).blockRequest
          "") ∧
      Post (link wireSetting fun _ => 0) 0
        ((wirePartitions.partitionList (upsertPartition libstdcxxHash wirePartitions)).upsertDocsBy
          {} (group newDocsGroup (upsertGroups libstdcxxHash wirePartitions [docWithId "1"])
            (upsertPartition libstdcxxHash wirePartitions))) ledGroup fun _ _ g' =>
        ∃ writes, (upsert libstdcxxHash (some (wirePartitions.withWrites writes)) ""
            { documents := [docWithId "1"] }).failedDocs = [] →
          InHistory ledGroup g' (pbDocToGammaDoc (docWithId "1") wirePartitions.pbSpace {}).2 := by
  have hreq : wireSetting.Carries ((wirePartitions.partitionList
      (upsertPartition libstdcxxHash wirePartitions)).blockRequest "") :=
    ⟨⟨_, rfl, rfl, by decide⟩, by decide⟩
  have hparse : ∀ doc ∈ [docWithId "1"], ∀ binary, some docOneBytes = some binary →
      wireSetting.parse binary = some doc := by
    intro doc hdoc binary hbin
    rw [List.mem_singleton.mp hdoc, ← Option.some.inj hbin]
    show (if docOneBytes = docOneBytes then some (docWithId "1") else none) = _
    rw [if_pos rfl]
  refine ⟨hreq, (upsert_in_history wireSetting (fun _ => 0) 0 libstdcxxHash wirePartitions
    { documents := [docWithId "1"] } {} ledGroup reached_ledGroup (by decide) hreq hparse).mono ?_⟩
  rintro _ r g' ⟨-, writes, -, hhist⟩
  exact ⟨writes, fun hnil => hhist hnil _ List.mem_cons_self⟩

end SimSearch.Router
