import SimSearch.Router.Reports
import SimSearch.Raft.Client

/-!
# The writes of an upsert, down to the raft client

`PartitionConnetion::UpsertDocs` with the `RaftClient` it owns: the documents of a group are
written one after the other, and each write starts with the slots that the one before it left.

* `upsertDocsBy_refines`: whatever the client meets, the error map is one that the
  `UpsertDocs` of the routing returns for some outcomes of its writes; so what was proved of
  that one for all outcomes holds here.
* `no_false_acknowledgement`: a key without an error was acknowledged for every document that
  has it.  A text from `Write` that is empty without reason does no harm here, because
  `UpsertDocs` looks at the response as well.
-/

namespace SimSearch.Router

open SimSearch.Lib SimSearch.Raft
open Program (Yields yields_seq yields_traces yields_true)

namespace PartitionConnetion

/-- One turn of the loop of `UpsertDocs`: the error of the document, if there is one. -/
def writeDoc (conn : PartitionConnetion) (c : RaftClient) (info : PbDocInfo) :
    Client (Option String × RaftClient) :=
  match conn.serializeToString info.pbDoc with
  | none => pure (some "SerializeToString Document failed", c)
  | some binary => do
    let (oneMsg, resp, c) ← c.write (conn.blockRequest info.key) binary
    if oneMsg ≠ "" ∨ resp.success.getD false = false then
      pure (some (oneMsg ++ ", ret_msg:" ++ resp.msg), c)
    else pure (none, c)

/-- `err_docs[one._key] = one_msg`, when there is an error. -/
def noteError (err : Std.TreeMap String String) (key : String) :
    Option String → Std.TreeMap String String
  | some msg => err.insert key msg
  | none => err

def writeDocs (conn : PartitionConnetion) :
    List PbDocInfo → RaftClient → Std.TreeMap String String →
      Client (Std.TreeMap String String × RaftClient)
  | [], c, err => pure (err, c)
  | info :: infos, c, err => do
    let (oneErr, c) ← conn.writeDoc c info
    conn.writeDocs infos c (noteError err info.key oneErr)

/-- `PartitionConnetion::UpsertDocs`, on the client as it is. -/
def upsertDocsBy (conn : PartitionConnetion) (c : RaftClient) (grp : DocsGroup) :
    Client (Std.TreeMap String String × RaftClient) := conn.writeDocs grp.pbDocInfos c ∅

end PartitionConnetion

open PartitionConnetion (noteError)

/-! ### The outcomes of the writes -/

section

variable {conn : PartitionConnetion}

/-- The connection when its `j`-th write ends with `writes j`. -/
def PartitionConnetion.withWrites (conn : PartitionConnetion)
    (writes : Nat → String × BlockResponse) : PartitionConnetion :=
  { conn with raftWrite := fun j _ _ => writes j }

/-- The error of a document is the one for the outcome of its write. -/
theorem writeDoc_refines (c : RaftClient) (info : PbDocInfo) :
    (conn.writeDoc c info).Yields fun _ r => ∃ out, ∀ writes j, writes j = out →
      r.1 = (conn.withWrites writes).upsertDoc j info := by
  unfold PartitionConnetion.writeDoc PartitionConnetion.upsertDoc PartitionConnetion.withWrites
  cases hbin : conn.serializeToString info.pbDoc with
  | none => exact ⟨("", {}), fun _ _ _ => by simp only [hbin]⟩
  | some binary =>
    refine yields_seq ((yields_true _).mono fun tr x _ => ?_)
    obtain ⟨oneMsg, resp, c'⟩ := x
    by_cases hfail : oneMsg ≠ "" ∨ resp.success.getD false = false
    · simp only [if_pos hfail]
      exact ⟨(oneMsg, resp), fun writes j hj => by simp only [hbin, hj, if_pos hfail]⟩
    · simp only [if_neg hfail]
      exact ⟨(oneMsg, resp), fun writes j hj => by simp only [hbin, hj, if_neg hfail]⟩

theorem upsertDocs_eq_foldl (grp : DocsGroup) :
    conn.upsertDocs grp = grp.pbDocInfos.zipIdx.foldl
      (fun err e => noteError err e.1.key (conn.upsertDoc e.2 e.1)) ∅ := by
  unfold PartitionConnetion.upsertDocs
  refine List.foldl_ext _ _ _ fun err e _ => ?_
  cases conn.upsertDoc e.2 e.1 with
  | none => rfl
  | some msg => rfl

theorem writeDocs_refines :
    ∀ (infos : List PbDocInfo) (k : Nat) (c : RaftClient) (err : Std.TreeMap String String),
      (conn.writeDocs infos c err).Yields fun _ r => ∃ writes, r.1 = (infos.zipIdx k).foldl
        (fun err e => noteError err e.1.key ((conn.withWrites writes).upsertDoc e.2 e.1)) err := by
  intro infos
  induction infos with
  | nil => intro k c err; exact ⟨fun _ => ("", {}), rfl⟩
  | cons info infos ih =>
    intro k c err
    refine yields_seq ((writeDoc_refines c info).mono fun tr x ⟨out, hout⟩ => ?_)
    refine (ih (k + 1) x.2 (noteError err info.key x.1)).mono fun tr' r ⟨writes, hr⟩ => ?_
    -- the first write has the number `k`, and those of the others are greater
    refine ⟨Function.update writes k out, ?_⟩
    rw [List.zipIdx_cons, List.foldl_cons, ← hout _ k (Function.update_self k out writes), hr]
    refine List.foldl_ext _ _ _ fun err e he => ?_
    have hne : e.2 ≠ k := by
      have hle := List.le_snd_of_mem_zipIdx he
      omega
    unfold PartitionConnetion.withWrites PartitionConnetion.upsertDoc
    simp only [Function.update_of_ne hne]

end

/-- **The client only picks the outcomes of the writes.** -/
theorem upsertDocsBy_refines (conn : PartitionConnetion) (c : RaftClient) (grp : DocsGroup) :
    (conn.upsertDocsBy c grp).Yields fun _ r =>
      ∃ writes, r.1 = (conn.withWrites writes).upsertDocs grp := by
  refine (writeDocs_refines grp.pbDocInfos 0 c ∅).mono fun tr r ⟨writes, hr⟩ => ⟨writes, ?_⟩
  rw [upsertDocs_eq_foldl, hr]

/-! ### Acknowledged keys -/

/-- `seg` are the calls for the document of `info`: those of its `Write`, if it was serialized. -/
def WriteOf (conn : PartitionConnetion) (info : PbDocInfo) (seg : ClientTrace) : Prop :=
  (conn.serializeToString info.pbDoc = none ∧ seg = []) ∨
    ∃ binary c out, conn.serializeToString info.pbDoc = some binary ∧
      (RaftClient.write c (conn.blockRequest info.key) binary).Traces seg out

def LastSucceeded (seg : ClientTrace) : Prop :=
  ∃ resp, (responses seg).getLast? = some resp ∧ resp.success.getD false = true

theorem writeDoc_acknowledged (conn : PartitionConnetion) (c : RaftClient) (info : PbDocInfo) :
    (conn.writeDoc c info).Yields fun seg r =>
      WriteOf conn info seg ∧ (r.1 = none → LastSucceeded seg) := by
  unfold PartitionConnetion.writeDoc
  cases hbin : conn.serializeToString info.pbDoc with
  | none => exact ⟨Or.inl ⟨hbin, rfl⟩, fun h => (nomatch h)⟩
  | some binary =>
    refine yields_seq (((yields_traces _).and (wrote_writeFrom _ binary 3 "" {} c rfl)).mono
      fun seg x ⟨htr, hwrote⟩ => ?_)
    obtain ⟨oneMsg, resp, c'⟩ := x
    have hof : WriteOf conn info (seg ++ []) := by
      rw [List.append_nil]
      exact Or.inr ⟨binary, c, _, hbin, htr⟩
    by_cases hfail : oneMsg ≠ "" ∨ resp.success.getD false = false
    · simp only [if_pos hfail]
      exact ⟨hof, fun h => (nomatch h)⟩
    · simp only [if_neg hfail]
      refine ⟨hof, fun _ => ?_⟩
      obtain ⟨-, hsucc⟩ := not_or.mp hfail
      -- without an answer the response would be a cleared or a refusing one
      have hans : Answered seg := by
        by_contra hnone
        exact hsucc (hwrote.resp hnone)
      rw [List.append_nil]
      exact ⟨resp, (hwrote.answered hans).2⟩

theorem mem_noteError {err : Std.TreeMap String String} {key k : String} {e : Option String} :
    k ∈ noteError err key e ↔ k ∈ err ∨ (e ≠ none ∧ key = k) := by
  cases e with
  | none => simp [noteError]
  | some msg =>
    unfold noteError
    rw [mem_insert_iff]
    simp

theorem writeDocs_acknowledged (conn : PartitionConnetion) :
    ∀ (infos : List PbDocInfo) (c : RaftClient) (err : Std.TreeMap String String),
      (conn.writeDocs infos c err).Yields fun tr r =>
        (∀ k ∈ err, k ∈ r.1) ∧ ∃ segs : List ClientTrace, tr = segs.flatten ∧
          List.Forall₂ (fun info seg => WriteOf conn info seg ∧
            (info.key ∉ r.1 → LastSucceeded seg)) infos segs := by
  intro infos
  induction infos with
  | nil => intro c err; exact ⟨fun _ h => h, [], rfl, List.Forall₂.nil⟩
  | cons info infos ih =>
    intro c err
    refine yields_seq ((writeDoc_acknowledged conn c info).mono fun seg x ⟨hof, hack⟩ => ?_)
    refine (ih x.2 (noteError err info.key x.1)).mono ?_
    rintro tr r ⟨hkept, segs, rfl, hsegs⟩
    refine ⟨fun k hk => hkept k (mem_noteError.mpr (Or.inl hk)), seg :: segs, rfl, ?_⟩
    refine List.Forall₂.cons ⟨hof, fun habsent => hack ?_⟩ hsegs
    by_contra hsome
    exact habsent (hkept _ (mem_noteError.mpr (Or.inr ⟨hsome, rfl⟩)))

/-- **No write is acknowledged falsely**: the calls of `UpsertDocs` are those for its documents
in turn, and if a key has no error then, for every document with that key, the last response
said `success`.  The client may be in any state, as `Init` or earlier writes have left it. -/
theorem no_false_acknowledgement (conn : PartitionConnetion) (c : RaftClient) (grp : DocsGroup) :
    (conn.upsertDocsBy c grp).Yields fun tr r =>
      ∃ segs : List ClientTrace, tr = segs.flatten ∧
        List.Forall₂ (fun info seg => WriteOf conn info seg ∧
          (info.key ∉ r.1 → LastSucceeded seg)) grp.pbDocInfos segs :=
  (writeDocs_acknowledged conn grp.pbDocInfos c ∅).mono fun _ _ h => h.2

end SimSearch.Router
