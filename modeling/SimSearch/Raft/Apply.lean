import SimSearch.Common.Dto

/-!
# Writing and applying raft log entries

`Block::write`, `Block::on_apply` and `BlockClosure` of `raft_store/raft_store.cc`.

The node that took a write has the attachment in the closure of the task, and the
other nodes cut it out of the log entry.  `decodeEntry_writeEntry` says that the entry
gives back the request and the attachment, for every size that fits in 32 bits, so
`entryData` does not depend on the branch.  From that replicas that were leader for
different entries, and got them in different batches, make the same calls until an
engine refuses a document: `on_apply` then calls `set_error_and_rollback`, and the node
applies nothing more, while the others go on.

Protobuf is a parameter: `RequestCodec` for the request in the entry and `Env.parse`
for the document.  The gamma engine is a parameter as well, a store of documents by
key with a return code.
-/

namespace SimSearch.Raft

open SimSearch.Lib

/-! ### Log entries -/

/-- The generated code of `raft_rpc::BlockRequest`. -/
structure RequestCodec where
  byteSizeLong : BlockRequest → Nat
  serialize : BlockRequest → Option Bytes
  parse : Bytes → Option BlockRequest

/-- The request serializes to as many bytes as `ByteSizeLong` says, and these parse to
the request. -/
def RequestCodec.RoundTrips (codec : RequestCodec) (r : BlockRequest) : Prop :=
  ∃ bs, codec.serialize r = some bs ∧ bs.length = codec.byteSizeLong r ∧ codec.parse bs = some r

/-- The entry that `Block::write` builds: the size as a `uint32_t` in network order, the
request and the attachment. -/
def writeEntry (codec : RequestCodec) (r : BlockRequest) (data : Bytes) : Option Bytes :=
  (codec.serialize r).map fun bs => beBytes 4 (codec.byteSizeLong r % 2 ^ 32) ++ bs ++ data

inductive WriteResult
  | redirected (response : BlockResponse)
  | failed (response : BlockResponse)
  | applied (log : Bytes)
  deriving DecidableEq, Repr

/-- `Block::redirect`; `leader` is the leader that the node knows of. -/
def redirect (leader : Option String) : BlockResponse :=
  { success := some false, redirect := leader.getD "" }

/-- `Block::write`, up to the call of `_node->apply`. -/
def write (codec : RequestCodec) (leaderTerm : Int) (leader : Option String) (r : BlockRequest)
    (data : Bytes) : WriteResult :=
  if leaderTerm < 0 then .redirected (redirect leader)
  else
    match writeEntry codec r data with
    | none => .failed { success := some false }
    | some log => .applied log

/-- The branch of `on_apply` without a closure.  A size field that is cut short is
filled with zero bytes.  `none` is the failed `CHECK`, which ends the process. -/
def decodeEntry (codec : RequestCodec) (log : Bytes) : Option (BlockRequest × Bytes) :=
  let metaSize := ofBeBytes ((log.take 4 ++ List.replicate 4 0).take 4)
  let saved := log.drop 4
  (codec.parse (saved.take metaSize)).map fun r => (r, saved.drop metaSize)

/-- **The entry gives back the request and the attachment.** -/
theorem decodeEntry_writeEntry {codec : RequestCodec} {r : BlockRequest} {data log : Bytes}
    (hr : codec.RoundTrips r) (hsize : codec.byteSizeLong r < 2 ^ 32)
    (hlog : writeEntry codec r data = some log) : decodeEntry codec log = some (r, data) := by
  obtain ⟨bs, hser, hlen, hparse⟩ := hr
  rw [writeEntry, hser, Option.map_some, Option.some.injEq, Nat.mod_eq_of_lt hsize,
    List.append_assoc] at hlog
  subst hlog
  have hhead : (beBytes 4 (codec.byteSizeLong r)).length = 4 := beBytes_length _ _
  have hnum : ofBeBytes (beBytes 4 (codec.byteSizeLong r)) = codec.byteSizeLong r :=
    ofBeBytes_beBytes 4 _ (by simpa using hsize)
  unfold decodeEntry
  simp only
  rw [List.take_left' hhead, List.drop_left' hhead, List.take_left' hhead, hnum,
    List.take_left' hlen, List.drop_left' hlen, hparse, Option.map_some]

/-! ### Applying -/

/-- What `on_apply` calls: `Document::ParseFromString`, and the engine's
`AddOrUpdateDoc`, whose code may depend on what it holds. -/
structure Env where
  parse : Bytes → Option Document
  addCode : Std.TreeMap String GammaDoc → GammaDoc → Int
  keyOf : GammaDoc → String

inductive Call
  | parseFromString (data : Bytes)
  | addOrUpdateDoc (doc : GammaDoc)

/-- A node runs, has called `set_error_and_rollback`, was ended by a failed `CHECK`, or has failed
to load a snapshot. -/
inductive Status
  | running
  | rolledBack
  | aborted
  | notLoaded
  deriving DecidableEq, Repr

/-- The state machine of a node: what the engine holds, and the calls made so far. -/
structure Replica where
  store : Std.TreeMap String GammaDoc := ∅
  status : Status := .running
  calls : List Call := []

/-- The attachment that `on_apply` takes: from the closure, or out of the entry. -/
def entryData (codec : RequestCodec) (closure : Option Bytes) (log : Bytes) : Option Bytes :=
  match closure with
  | some data => some data
  | none => (decodeEntry codec log).map Prod.snd

/-- The rest of a turn of `on_apply`, from `data_buf` on, with the response of the
closure.  `CheckPbDoc` is called, but the test reads another variable; an error of
`PbDocToGammaDoc` is dropped, and what it has built goes to the engine. -/
def applyData (env : Env) (space : Space) (s : Replica) (data : Bytes) :
    Replica × BlockResponse :=
  let calls := s.calls ++ [.parseFromString data]
  match env.parse data with
  | none =>
    ({ s with status := .rolledBack, calls := calls },
      { success := some false, msg := "Fail to parse UpsertRequest from request stream" })
  | some doc =>
    let gammaDoc := (pbDocToGammaDoc doc space {}).2
    let calls := calls ++ [.addOrUpdateDoc gammaDoc]
    let code := env.addCode s.store gammaDoc
    if code ≠ 0 then
      ({ s with status := .rolledBack, calls := calls },
        { success := some false, msg := "Fail to write doc to gamma, code: " ++ toString code })
    else
      ({ store := s.store.insert (env.keyOf gammaDoc) gammaDoc, status := .running,
         calls := calls }, { success := some true })

/-- One turn of the loop of `on_apply`; a node that has stopped applies nothing. -/
def applyEntry (codec : RequestCodec) (env : Env) (space : Space) (s : Replica)
    (closure : Option Bytes) (log : Bytes) : Replica :=
  if s.status ≠ .running then s
  else
    match entryData codec closure log with
    | none => { s with status := .aborted }
    | some data => (applyData env space s data).1

/-- An entry of the log, as `Block::write` built it. -/
structure Committed (codec : RequestCodec) where
  req : BlockRequest
  data : Bytes
  log : Bytes
  built : writeEntry codec req data = some log

/-- An entry as one node sees it: with the closure when the node took the write. -/
structure Seen (codec : RequestCodec) where
  entry : Committed codec
  closure : Bool

def Seen.data? {codec : RequestCodec} (e : Seen codec) : Option Bytes :=
  if e.closure then some e.entry.data else none

/-- `Block::on_apply` on one batch. -/
def onApply (codec : RequestCodec) (env : Env) (space : Space) (s : Replica)
    (batch : List (Seen codec)) : Replica :=
  batch.foldl (fun s e => applyEntry codec env space s e.data? e.entry.log) s

def applyBatches (codec : RequestCodec) (env : Env) (space : Space)
    (batches : List (List (Seen codec))) : Replica :=
  batches.foldl (onApply codec env space) {}

/-! ### Replicas agree -/

variable {codec : RequestCodec}

/-- The request of an entry round-trips, and its size fits in the size field. -/
def Committed.Sound (c : Committed codec) : Prop :=
  codec.RoundTrips c.req ∧ codec.byteSizeLong c.req < 2 ^ 32

/-- Both branches of `on_apply` take the attachment. -/
theorem entryData_seen {e : Seen codec} (h : e.entry.Sound) :
    entryData codec e.data? e.entry.log = some e.entry.data := by
  unfold Seen.data?
  cases e.closure with
  | true => rfl
  | false =>
    show (decodeEntry codec e.entry.log).map Prod.snd = some e.entry.data
    rw [decodeEntry_writeEntry h.1 h.2 e.entry.built, Option.map_some]

/-- A turn of `on_apply` with the attachment at hand. -/
def applyCommitted (env : Env) (space : Space) (s : Replica) (c : Committed codec) : Replica :=
  if s.status ≠ .running then s else (applyData env space s c.data).1

theorem onApply_eq (env : Env) (space : Space) :
    ∀ (batch : List (Seen codec)) (s : Replica), (∀ e ∈ batch, e.entry.Sound) →
      onApply codec env space s batch
        = (batch.map Seen.entry).foldl (applyCommitted env space) s := by
  intro batch
  induction batch with
  | nil => intro s _; rfl
  | cons e r ih =>
    intro s h
    have he : e.entry.Sound := h e List.mem_cons_self
    have hr : ∀ x ∈ r, x.entry.Sound := fun x hx => h x (List.mem_cons_of_mem _ hx)
    have hone : applyEntry codec env space s e.data? e.entry.log
        = applyCommitted env space s e.entry := by
      rw [applyEntry, entryData_seen he]
      rfl
    have hrest := ih (applyEntry codec env space s e.data? e.entry.log) hr
    rw [List.map_cons, List.foldl_cons, ← hone, ← hrest]
    rfl

/-- How the entries are cut into batches does not matter. -/
theorem applyBatches_flatten (env : Env) (space : Space) (batches : List (List (Seen codec))) :
    applyBatches codec env space batches = onApply codec env space {} batches.flatten := by
  have h : ∀ (bs : List (List (Seen codec))) (s : Replica),
      bs.foldl (onApply codec env space) s = onApply codec env space s bs.flatten := by
    intro bs
    induction bs with
    | nil => intro s; rfl
    | cons b r ih =>
      intro s
      rw [List.foldl_cons, ih, List.flatten_cons, onApply, onApply, onApply, List.foldl_append]
  exact h batches {}

def Replica.Refused (s : Replica) : Prop :=
  s.status = .rolledBack ∧ ∃ doc, s.calls.getLast? = some (.addOrUpdateDoc doc)

/-- The nodes have made the same calls, or one of them stopped at a refusal and the other
made the same calls up to there. -/
def SameCalls (s₁ s₂ : Replica) : Prop :=
  (s₁.calls = s₂.calls ∧ s₁.status = s₂.status) ∨
    (s₁.Refused ∧ s₁.calls <+: s₂.calls) ∨ (s₂.Refused ∧ s₂.calls <+: s₁.calls)

theorem calls_applyCommitted (env : Env) (space : Space) (s : Replica) (c : Committed codec) :
    s.calls <+: (applyCommitted env space s c).calls := by
  unfold applyCommitted
  split_ifs with hrun
  · exact List.prefix_rfl
  · unfold applyData
    cases env.parse c.data with
    | none => exact List.prefix_append _ _
    | some doc =>
      simp only
      split_ifs
      · rw [List.append_assoc]
        exact List.prefix_append _ _
      · rw [List.append_assoc]
        exact List.prefix_append _ _

theorem applyCommitted_of_refused {s : Replica} (h : s.Refused) (env : Env) (space : Space)
    (c : Committed codec) : applyCommitted env space s c = s := by
  refine if_pos ?_
  rw [h.1]
  decide

theorem applyCommitted_running {s : Replica} (h : s.status = .running) (env : Env) (space : Space)
    (c : Committed codec) (doc : Document) (hdoc : env.parse c.data = some doc) :
    (applyCommitted env space s c).calls = s.calls ++ [.parseFromString c.data] ++
        [.addOrUpdateDoc (pbDocToGammaDoc doc space {}).2] ∧
      ((applyCommitted env space s c).Refused ∨
        (applyCommitted env space s c).status = .running) := by
  have hturn : applyCommitted env space s c = (applyData env space s c.data).1 :=
    if_neg (by rw [h]; decide)
  rw [hturn, applyData, hdoc]
  simp only
  split_ifs with hcode
  · exact ⟨rfl, Or.inl ⟨rfl, _, List.getLast?_concat⟩⟩
  · exact ⟨rfl, Or.inr rfl⟩

theorem sameCalls_step {env₁ env₂ : Env} (hparse : env₁.parse = env₂.parse) (space : Space)
    (c : Committed codec) {s₁ s₂ : Replica} (h : SameCalls s₁ s₂) :
    SameCalls (applyCommitted env₁ space s₁ c) (applyCommitted env₂ space s₂ c) := by
  rcases h with ⟨hcalls, hstatus⟩ | ⟨href, hpre⟩ | ⟨href, hpre⟩
  · by_cases hrun : s₁.status = .running
    · have hrun₂ : s₂.status = .running := hstatus.symm.trans hrun
      cases hdoc : env₁.parse c.data with
      | none =>
        have hdoc₂ : env₂.parse c.data = none := hparse ▸ hdoc
        refine Or.inl ?_
        simp only [applyCommitted, applyData, hrun, hrun₂, hdoc, hdoc₂, hcalls, ne_eq,
          not_true_eq_false, if_false, and_self]
      | some doc =>
        have hdoc₂ : env₂.parse c.data = some doc := hparse ▸ hdoc
        obtain ⟨hc₁, h₁⟩ := applyCommitted_running hrun env₁ space c doc hdoc
        obtain ⟨hc₂, h₂⟩ := applyCommitted_running hrun₂ env₂ space c doc hdoc₂
        have hsame : (applyCommitted env₁ space s₁ c).calls
            = (applyCommitted env₂ space s₂ c).calls := by
          rw [hc₁, hc₂, hcalls]
        rcases h₁ with h₁ | h₁
        · exact Or.inr (Or.inl ⟨h₁, hsame ▸ List.prefix_rfl⟩)
        · rcases h₂ with h₂ | h₂
          · exact Or.inr (Or.inr ⟨h₂, hsame ▸ List.prefix_rfl⟩)
          · exact Or.inl ⟨hsame, h₁.trans h₂.symm⟩
    · -- both have stopped, with the same calls
      have hrun₂ : s₂.status ≠ .running := hstatus ▸ hrun
      rw [applyCommitted, if_pos hrun, applyCommitted, if_pos hrun₂]
      exact Or.inl ⟨hcalls, hstatus⟩
  · rw [applyCommitted_of_refused href]
    exact Or.inr (Or.inl ⟨href, hpre.trans (calls_applyCommitted env₂ space s₂ c)⟩)
  · rw [applyCommitted_of_refused href]
    exact Or.inr (Or.inr ⟨href, hpre.trans (calls_applyCommitted env₁ space s₁ c)⟩)

theorem sameCalls_foldl {env₁ env₂ : Env} (hparse : env₁.parse = env₂.parse) (space : Space) :
    ∀ (entries : List (Committed codec)) (s₁ s₂ : Replica), SameCalls s₁ s₂ →
      SameCalls (entries.foldl (applyCommitted env₁ space) s₁)
        (entries.foldl (applyCommitted env₂ space) s₂) := by
  intro entries
  induction entries with
  | nil => exact fun s₁ s₂ h => h
  | cons c r ih => exact fun s₁ s₂ h => ih _ _ (sameCalls_step hparse space c h)

/-- Two nodes that commit the same entries apply the same list of them. -/
theorem applyBatches_eq (env₁ env₂ : Env) (space : Space) {b₁ b₂ : List (List (Seen codec))}
    (hsound : ∀ e ∈ b₁.flatten, e.entry.Sound)
    (hsame : b₁.flatten.map Seen.entry = b₂.flatten.map Seen.entry) :
    applyBatches codec env₁ space b₁
        = (b₁.flatten.map Seen.entry).foldl (applyCommitted env₁ space) {} ∧
      applyBatches codec env₂ space b₂
        = (b₁.flatten.map Seen.entry).foldl (applyCommitted env₂ space) {} := by
  have hsound₂ : ∀ e ∈ b₂.flatten, e.entry.Sound := by
    intro e he
    have hmem : e.entry ∈ b₁.flatten.map Seen.entry := by
      rw [hsame]
      exact List.mem_map_of_mem he
    obtain ⟨e', he', heq⟩ := List.mem_map.mp hmem
    rw [← heq]
    exact hsound e' he'
  rw [applyBatches_flatten, applyBatches_flatten, onApply_eq env₁ space _ _ hsound,
    onApply_eq env₂ space _ _ hsound₂, hsame]
  exact ⟨rfl, rfl⟩

/-- **Leader and follower apply the same documents.**  Every entry gives back the request
and the attachment.  Two nodes that commit the same entries, whichever of them they took
themselves and however they were batched, each with an engine of its own, make the same
calls up to the first refusal of an engine; engines that answer alike give the same calls. -/
theorem replicas_apply_same (codec : RequestCodec) (space : Space) :
    (∀ r data, codec.RoundTrips r → codec.byteSizeLong r < 2 ^ 32 →
      ∃ log, writeEntry codec r data = some log ∧ decodeEntry codec log = some (r, data) ∧
        entryData codec none log = entryData codec (some data) log) ∧
    ∀ (env₁ env₂ : Env) (b₁ b₂ : List (List (Seen codec))), env₁.parse = env₂.parse →
      (∀ e ∈ b₁.flatten, e.entry.Sound) →
      b₁.flatten.map Seen.entry = b₂.flatten.map Seen.entry →
      SameCalls (applyBatches codec env₁ space b₁) (applyBatches codec env₂ space b₂) ∧
      (env₁.addCode = env₂.addCode → env₁.keyOf = env₂.keyOf →
        (applyBatches codec env₁ space b₁).calls = (applyBatches codec env₂ space b₂).calls) := by
  constructor
  · intro r data hr hsize
    obtain ⟨bs, hser, -, -⟩ := id hr
    have hlog : writeEntry codec r data
        = some (beBytes 4 (codec.byteSizeLong r % 2 ^ 32) ++ bs ++ data) := by
      rw [writeEntry, hser, Option.map_some]
    have hdec := decodeEntry_writeEntry hr hsize hlog
    refine ⟨_, hlog, hdec, ?_⟩
    show (decodeEntry codec _).map Prod.snd = some data
    rw [hdec, Option.map_some]
  · intro env₁ env₂ b₁ b₂ hparse hsound hsame
    obtain ⟨h₁, h₂⟩ := applyBatches_eq env₁ env₂ space hsound hsame
    rw [h₁, h₂]
    refine ⟨sameCalls_foldl hparse space _ _ _ (Or.inl ⟨rfl, rfl⟩), fun hcode hkey => ?_⟩
    obtain ⟨parse₁, code₁, key₁⟩ := env₁
    obtain ⟨parse₂, code₂, key₂⟩ := env₂
    cases hparse
    cases hcode
    cases hkey
    rfl

/-! ### The wire format of a request -/

/-- A varint, for numbers of at most ten groups of seven bits. -/
def varintFrom : Nat → Nat → Bytes
  | 0, _ => []
  | fuel + 1, n =>
    if n < 128 then [UInt8.ofNat n] else UInt8.ofNat (n % 128 + 128) :: varintFrom fuel (n / 128)

def varint (n : Nat) : Bytes := varintFrom 10 n

/-- A `string` field; the empty text is the default and is left out. -/
def wireString (tag : UInt8) (s : String) : Bytes :=
  if s = "" then [] else tag :: varint (utf8Bytes s).length ++ utf8Bytes s

/-- An enumeration field; the value zero is left out. -/
def wireEnum (tag : UInt8) (n : Nat) : Bytes := if n = 0 then [] else tag :: varint n

def implTypeNumber : ImplType → Nat
  | .upsert => 0
  | .delete => 1
  | .read => 3

def keyTypeNumber : KeyType → Nat
  | .int64 => 0
  | .string => 1

def wireBlockRequest (r : BlockRequest) : Bytes :=
  wireString 0x0a r.dbName ++ wireString 0x12 r.spaceName
    ++ wireEnum 0x18 (implTypeNumber r.implType) ++ wireEnum 0x20 (keyTypeNumber r.keyType)
    ++ wireString 0x2a r.key

/-- A request as the router sends it: the key of every document is empty. -/
def routedReq : BlockRequest := { dbName := "db", spaceName := "s", keyType := .string }

/-- The wire format, with a parser for the two requests below. -/
def wireCodec : RequestCodec where
  byteSizeLong r := (wireBlockRequest r).length
  serialize r := some (wireBlockRequest r)
  parse bs := [routedReq, {}].find? fun r => wireBlockRequest r = bs

def docOneBytes : Bytes := [0x0a, 0x01, 0x31]

def routedEntry : Committed wireCodec :=
  ⟨routedReq, docOneBytes, [0, 0, 0, 9, 0x0a, 2, 0x64, 0x62, 0x12, 1, 0x73, 0x20, 1, 0x0a, 1, 0x31],
    by decide⟩

def emptyEntry : Committed wireCodec := ⟨{}, [], [0, 0, 0, 0], by decide⟩

def sampleEnv : Env where
  parse data := if data = docOneBytes then some { idOpt := some "1" } else
    if data = [] then some {} else none
  addCode _ doc := if doc.tableFields.contains idField then 0 else -1
  keyOf doc := (doc.tableFields[idField]?.map fun f => toString (ofLeBytes f.value)).getD ""

def brokenEnv : Env := { sampleEnv with addCode := fun _ _ => -1 }

def tookBoth : List (List (Seen wireCodec)) := [[⟨routedEntry, true⟩, ⟨emptyEntry, true⟩]]

def tookSecond : List (List (Seen wireCodec)) := [[⟨routedEntry, false⟩], [⟨emptyEntry, true⟩]]

theorem tookBoth_sound : ∀ e ∈ tookBoth.flatten, e.entry.Sound := by
  intro e he
  simp only [tookBoth, List.flatten_cons, List.flatten_nil, List.append_nil, List.mem_cons,
    List.not_mem_nil, or_false] at he
  rcases he with rfl | rfl
  · exact ⟨⟨_, rfl, rfl, by decide⟩, by decide⟩
  · exact ⟨⟨_, rfl, rfl, by decide⟩, by decide⟩

theorem replicas_apply_same_two :
    (applyBatches wireCodec sampleEnv { idTypeOpt := some longSdtype } tookBoth).calls
        = (applyBatches wireCodec sampleEnv { idTypeOpt := some longSdtype } tookSecond).calls ∧
      SameCalls (applyBatches wireCodec sampleEnv { idTypeOpt := some longSdtype } tookBoth)
        (applyBatches wireCodec brokenEnv { idTypeOpt := some longSdtype } tookSecond) := by
  have hsame := (replicas_apply_same wireCodec { idTypeOpt := some longSdtype }).2
  exact ⟨(hsame sampleEnv sampleEnv tookBoth tookSecond rfl tookBoth_sound rfl).2 rfl rfl,
    (hsame sampleEnv brokenEnv tookBoth tookSecond rfl tookBoth_sound rfl).1⟩

/-- **A node whose engine refuses stops**, and the other goes on with the next entry. -/
theorem refusal_ends_calls :
    ¬ ∀ (env₁ env₂ : Env) (b₁ b₂ : List (List (Seen wireCodec))), env₁.parse = env₂.parse →
      (∀ e ∈ b₁.flatten, e.entry.Sound) →
      b₁.flatten.map Seen.entry = b₂.flatten.map Seen.entry →
      (applyBatches wireCodec env₁ { idTypeOpt := some longSdtype } b₁).calls
        = (applyBatches wireCodec env₂ { idTypeOpt := some longSdtype } b₂).calls := by
  intro hall
  have hlen := congrArg List.length
    (hall sampleEnv brokenEnv tookBoth tookSecond rfl tookBoth_sound rfl)
  exact absurd hlen (by decide)

end SimSearch.Raft
