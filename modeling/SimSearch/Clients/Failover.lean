import SimSearch.Clients.KeepAlive
import SimSearch.Lib.Failover

/-!
# From one etcd node to the next

`GetChannel` and `EtcdOp` of `clients/etcd_client.cc`.

The first channel is drawn, and each call of `GetChannel` after it takes the next one, so the
channels are tried in a rotation of their order (`channelsFrom_eq`) and `EtcdOp` is `tryAll` over
that rotation (`etcdOp_eq_tryAll`).  Three things make it go on to the next channel: the request
does not convert, the call fails, or the text of the response does not parse.

The message of the caller is passed to every parse and is not cleared between them.  The answer
that is returned is then the one of the first channel that answers if and only if the texts before
it have left nothing behind.  What a text that does not parse leaves is up to the JSON library;
here it may leave anything.

`traces_etcdOp` says that the loop of the thread that keeps a node registered is this one.
-/

namespace SimSearch.Clients.Failover

open SimSearch.Lib

variable {φ ν : Type} [DecidableEq φ]

/-! ### The source -/

inductive EtcdOps
  | range
  | put
  | deleteRange
  | txn
  | compact
  | leaseGrant
  | leaseRevoke
  | leaseKeepalive
  | leaseTtl
  | leaseLeases
  deriving DecidableEq, Repr

def EtcdOps.path : EtcdOps → String
  | range => "/v3/kv/range"
  | put => "/v3/kv/put"
  | deleteRange => "/v3/kv/deleterange"
  | txn => "/v3/kv/txn"
  | compact => "/v3/kv/compaction"
  | leaseGrant => "/v3/lease/grant"
  | leaseRevoke => "/v3/lease/revoke"
  | leaseKeepalive => "/v3/lease/keepalive"
  | leaseTtl => "/v3/lease/timetolive"
  | leaseLeases => "/v3/lease/leases"

/-- How a node answers a path and a body. -/
abbrev Channel (φ ν : Type) := String → String → Attempt φ ν

/-- The channel after `preIdx`; the first one is drawn, from `1` to the number of channels. -/
def getChannel (draw : Nat) (preIdx : Int) (chanSize : Nat) : Int :=
  if 0 ≤ preIdx then (preIdx + 1) % chanSize else draw - 1

/-- One turn of the loop: without an `output` nothing is sent. -/
def callMethod (chans : List (Channel φ ν)) (path : String) (output : Option String) (idx : Nat) :
    Attempt φ ν :=
  match output, chans[idx]? with
  | some body, some ch => ch path body
  | _, _ => .failed

/-- The loop of `EtcdOp` with `left` turns to go. -/
def etcdOpLoop (repeated : φ → Bool) (draw : Nat) (chans : List (Channel φ ν)) (path : String)
    (output : Option String) : Nat → Int → Message φ ν → Tried Nat φ ν
  | 0, _, response => ⟨[], false, response⟩
  | left + 1, preIdx, response =>
    let idx := getChannel draw preIdx chans.length
    match callMethod chans path output idx.toNat with
    | .failed => (etcdOpLoop repeated draw chans path output left idx response).after idx.toNat
    | .garbled stored =>
      (etcdOpLoop repeated draw chans path output left idx
        (absorb repeated response stored)).after idx.toNat
    | .ok stored => ⟨[idx.toNat], true, absorb repeated response stored⟩

/-- `output` is the request in JSON, if it converts. -/
def etcdOp (repeated : φ → Bool) (draw : Nat) (chans : List (Channel φ ν)) (op : EtcdOps)
    (output : Option String) (response : Message φ ν) : Tried Nat φ ν :=
  etcdOpLoop repeated draw chans op.path output chans.length (-1) response

/-! ### The order of the channels -/

/-- The channels that `left` calls of `GetChannel` take after `preIdx`. -/
def channelsFrom (draw n : Nat) : Nat → Int → List Nat
  | 0, _ => []
  | left + 1, preIdx =>
    (getChannel draw preIdx n).toNat :: channelsFrom draw n left (getChannel draw preIdx n)

/-- All channels, each once, from the one that is drawn. -/
def cyclicOrder (n draw : Nat) : List Nat := (List.range n).rotate (draw - 1)

theorem etcdOpLoop_eq_tryAll (repeated : φ → Bool) (draw : Nat) (chans : List (Channel φ ν))
    (path : String) (output : Option String) (left : Nat) (preIdx : Int) (response : Message φ ν) :
    etcdOpLoop repeated draw chans path output left preIdx response
      = tryAll repeated (callMethod chans path output)
          (channelsFrom draw chans.length left preIdx) response := by
  induction left generalizing preIdx response with
  | zero => rfl
  | succ left ih =>
    rw [etcdOpLoop, channelsFrom, tryAll]
    cases callMethod chans path output (getChannel draw preIdx chans.length).toNat with
    | failed => simp only [ih]
    | garbled stored => simp only [ih]
    | ok stored => rfl

theorem getChannel_next (draw n p : Nat) : getChannel draw p n = ((p + 1) % n : Nat) := by
  rw [getChannel, if_pos (Int.natCast_nonneg p)]
  push_cast
  rfl

theorem channelsFrom_next (draw n left p : Nat) :
    channelsFrom draw n left p = (List.range left).map fun j => (p + 1 + j) % n := by
  induction left generalizing p with
  | zero => rfl
  | succ left ih =>
    rw [channelsFrom, getChannel_next, ih, List.range_succ_eq_map, List.map_cons, List.map_map,
      Int.toNat_natCast, Nat.add_zero]
    refine congrArg _ (List.map_congr_left fun j _ => ?_)
    rw [Function.comp_apply, Nat.add_assoc, Nat.mod_add_mod]
    congr 1
    omega

theorem rotate_range (n s : Nat) :
    (List.range n).rotate s = (List.range n).map fun j => (s + j) % n := by
  refine List.ext_getElem (by simp) fun j _ _ => ?_
  rw [List.getElem_rotate, List.getElem_range, List.getElem_map, List.getElem_range,
    List.length_range, Nat.add_comm]

/-- **The channels of a call are a rotation of all channels.** -/
theorem channelsFrom_eq {n draw : Nat} (h : 1 ≤ draw ∧ draw ≤ n) :
    channelsFrom draw n n (-1) = cyclicOrder n draw := by
  obtain ⟨hpos, hle⟩ := h
  obtain ⟨left, rfl⟩ : ∃ left, n = left + 1 := ⟨n - 1, by omega⟩
  have hfirst : getChannel draw (-1) (left + 1) = ((draw - 1 : Nat) : Int) := by
    rw [getChannel, if_neg (by decide)]
    omega
  rw [cyclicOrder, rotate_range, channelsFrom, hfirst, channelsFrom_next, List.range_succ_eq_map,
    List.map_cons, List.map_map, Int.toNat_natCast,
    Nat.mod_eq_of_lt (by omega : draw - 1 + 0 < left + 1)]
  refine congrArg _ (List.map_congr_left fun j _ => ?_)
  rw [Function.comp_apply]
  congr 1
  omega

theorem nodup_cyclicOrder (n draw : Nat) : (cyclicOrder n draw).Nodup :=
  List.nodup_rotate.mpr List.nodup_range

theorem mem_cyclicOrder {n draw i : Nat} : i ∈ cyclicOrder n draw ↔ i < n := by
  rw [cyclicOrder, List.mem_rotate, List.mem_range]

theorem etcdOp_eq_tryAll {draw : Nat} {chans : List (Channel φ ν)}
    (h : 1 ≤ draw ∧ draw ≤ chans.length) (repeated : φ → Bool) (op : EtcdOps)
    (output : Option String) (response : Message φ ν) :
    etcdOp repeated draw chans op output response
      = tryAll repeated (callMethod chans op.path output) (cyclicOrder chans.length draw)
          response := by
  rw [etcdOp, etcdOpLoop_eq_tryAll, channelsFrom_eq h]

/-! ### Failover -/

/-- **Every channel is tried once, in a rotation of their order, until one answers.  The response
is the one of that channel if and only if the texts before it leave nothing behind.** -/
theorem failover_iff (repeated : φ → Bool) (chans : List (Channel φ ν)) (draw : Nat)
    (h : 1 ≤ draw ∧ draw ≤ chans.length) (op : EtcdOps) (output : Option String)
    (response : Message φ ν) :
    (cyclicOrder chans.length draw).Nodup ∧
    (∀ i, i ∈ cyclicOrder chans.length draw ↔ i < chans.length) ∧
    (etcdOp repeated draw chans op output response).visited <+: cyclicOrder chans.length draw ∧
    ((etcdOp repeated draw chans op output response).ret = true ↔
      ∃ i < chans.length, Answers (callMethod chans op.path output) i) ∧
    ((∀ i < chans.length, ¬ Answers (callMethod chans op.path output) i) →
      (etcdOp repeated draw chans op output response).visited = cyclicOrder chans.length draw) ∧
    ∀ pre c post stored, cyclicOrder chans.length draw = pre ++ c :: post →
      (∀ d ∈ pre, ¬ Answers (callMethod chans op.path output) d) →
      callMethod chans op.path output c = .ok stored →
      (etcdOp repeated draw chans op output response).visited = pre ++ [c] ∧
      ((etcdOp repeated draw chans op output response).response = absorb repeated response stored ↔
        LeavesNothing repeated response
          (pre.flatMap fun d => (callMethod chans op.path output d).leftover) stored) := by
  rw [etcdOp_eq_tryAll h]
  obtain ⟨hvisited, hret⟩ := @tryAll_spec _ _ _ _ repeated (callMethod chans op.path output)
    (cyclicOrder chans.length draw) response
  refine ⟨nodup_cyclicOrder _ _, fun i => mem_cyclicOrder, hvisited, ?_, fun hnone => ?_, ?_⟩
  · rw [hret]
    simp only [mem_cyclicOrder]
  · rw [tryAll_none fun c hc => hnone c (mem_cyclicOrder.mp hc)]
  · intro pre c post stored horder hpre hc
    rw [horder, tryAll_first hpre hc]
    exact ⟨rfl, absorb_absorb_iff repeated response _ stored⟩

/-- The fields of a `RangeResponse` that the nodes fill here. -/
inductive RangeField
  | kvs
  | count
  deriving DecidableEq, Repr

inductive RangeValue
  | kv (key value : String)
  | number (n : Int)
  deriving DecidableEq, Repr

def rangeRepeated : RangeField → Bool
  | .kvs => true
  | .count => false

def healthy : Channel RangeField RangeValue :=
  fun _ _ => .ok [(.kvs, .kv "a" "1"), (.count, .number 1)]

/-- A node whose list of keys goes on with something that is no key: the parse has stored the
key and begun another one when it fails. -/
def halfParsed : Channel RangeField RangeValue :=
  fun _ _ => .garbled [(.kvs, .kv "a" "1"), (.kvs, .kv "" "")]

/-- A node that cannot be reached in front of a healthy one: the response is that of the healthy
one. -/
theorem failover_unreachable :
    (1 ≤ 1 ∧ 1 ≤ [fun _ _ => Attempt.failed, healthy].length) ∧
    (etcdOp rangeRepeated 1 [fun _ _ => .failed, healthy] .range (some "") fun _ => []).response
      = absorb rangeRepeated (fun _ => []) [(.kvs, .kv "a" "1"), (.count, .number 1)] := by
  refine ⟨by decide, ?_⟩
  have hall := failover_iff rangeRepeated [fun _ _ => .failed, healthy] 1 (by decide) .range
    (some "") fun _ => []
  refine ((hall.2.2.2.2.2 [0] 1 [] _ rfl ?_ rfl).2).mpr ?_
  · intro d hd
    obtain rfl := List.mem_singleton.mp hd
    rintro ⟨stored, hstored⟩
    cases hstored
  · intro f
    cases f with
    | kvs => rfl
    | count => exact fun _ v hv => (nomatch hv)

/-- The key of the text that did not parse stays in front of the same key of the answer, with
another one that nobody has. -/
theorem failover_repeats_key :
    (etcdOp rangeRepeated 1 [halfParsed, healthy] .range (some "") fun _ => []).visited = [0, 1] ∧
    (etcdOp rangeRepeated 1 [halfParsed, healthy] .range (some "") fun _ => []).ret = true ∧
    (etcdOp rangeRepeated 1 [halfParsed, healthy] .range (some "") fun _ => []).response .kvs
      = [.kv "a" "1", .kv "" "", .kv "a" "1"] ∧
    absorb rangeRepeated (fun _ => []) [(.kvs, .kv "a" "1"), (.count, .number 1)] .kvs
      = [RangeValue.kv "a" "1"] := by
  refine ⟨?_, ?_, ?_, ?_⟩ <;> rfl

/-! ### The loop of the thread that keeps a node registered -/

/-- The fields of a response that the thread reads. -/
inductive LeaseField
  | id
  | ttl
  deriving DecidableEq, Repr

def fieldsOf (stored : List (LeaseField × Int64)) : Fields where
  id := latest stored .id
  ttl := latest stored .ttl

/-- A field without a value reads as `0`. -/
def responseOf (m : Message LeaseField Int64) : Response where
  id := (m .id).getLast?.getD 0
  ttl := (m .ttl).getLast?.getD 0

def replyOf : Attempt LeaseField Int64 → Reply
  | .failed => .failed
  | .garbled stored => .garbled (fieldsOf stored)
  | .ok stored => .ok (fieldsOf stored)

theorem getLast_absorb (m : Message LeaseField Int64) (stored : List (LeaseField × Int64))
    (f : LeaseField) :
    (absorb (fun _ => false) m stored f).getLast?.getD 0
      = (latest stored f).getD ((m f).getLast?.getD 0) := by
  rw [absorb_apply, if_neg Bool.false_ne_true]
  cases latest stored f with
  | none => rfl
  | some v => rfl

theorem responseOf_absorb (m : Message LeaseField Int64) (stored : List (LeaseField × Int64)) :
    responseOf (absorb (fun _ => false) m stored) = (responseOf m).merge (fieldsOf stored) := by
  rw [responseOf, getLast_absorb, getLast_absorb]
  rfl

theorem traces_tryAll (req : Request) (reply : Nat → Attempt LeaseField Int64) (cs : List Nat)
    (m : Message LeaseField Int64) :
    (Clients.etcdOp req cs.length (responseOf m)).Traces
      ((tryAll (fun _ => false) reply cs m).visited.map fun c => ⟨req, replyOf (reply c)⟩)
      ((tryAll (fun _ => false) reply cs m).ret,
        responseOf (tryAll (fun _ => false) reply cs m).response) := by
  induction cs generalizing m with
  | nil => exact Program.Traces.ret _
  | cons c cs ih =>
    rw [tryAll]
    cases hc : reply c with
    | failed =>
      refine @Program.Traces.call _ (fun _ => Reply) _ req _ _ _ (replyOf (reply c)) ?_
      rw [hc]
      exact ih m
    | garbled stored =>
      refine @Program.Traces.call _ (fun _ => Reply) _ req _ _ _ (replyOf (reply c)) ?_
      rw [hc]
      have hrest := ih (absorb (fun _ => false) m stored)
      rw [responseOf_absorb] at hrest
      exact hrest
    | ok stored =>
      refine @Program.Traces.call _ (fun _ => Reply) _ req _ _ _ (replyOf (reply c)) ?_
      rw [hc, responseOf_absorb]
      exact Program.Traces.ret _

/-- **The calls of a lease request are those of the loop over its channels**, in the order in
which they are visited, and it returns what the loop returns. -/
theorem traces_etcdOp {draw : Nat} {chans : List (Channel LeaseField Int64)}
    (h : 1 ≤ draw ∧ draw ≤ chans.length) (req : Request) (op : EtcdOps) (output : Option String)
    (m : Message LeaseField Int64) :
    (Clients.etcdOp req chans.length (responseOf m)).Traces
      ((etcdOp (fun _ => false) draw chans op output m).visited.map fun c =>
        ⟨req, replyOf (callMethod chans op.path output c)⟩)
      ((etcdOp (fun _ => false) draw chans op output m).ret,
        responseOf (etcdOp (fun _ => false) draw chans op output m).response) := by
  have hlength : (cyclicOrder chans.length draw).length = chans.length := by
    rw [cyclicOrder, List.length_rotate, List.length_range]
  have htraces := traces_tryAll req (callMethod chans op.path output)
    (cyclicOrder chans.length draw) m
  rw [hlength] at htraces
  rw [etcdOp_eq_tryAll h]
  exact htraces

end SimSearch.Clients.Failover
