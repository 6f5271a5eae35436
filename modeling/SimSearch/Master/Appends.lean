import SimSearch.Master.Answers
import SimSearch.Lib.Concurrent
import SimSearch.Lib.Ledger

/-!
# Appending diagnostics to a key

`PutOrAppend` of `master/etcdcluster/etcd_client.go`, called any number of times for one key
by masters that run side by side.  A call is a `Get` and then a `Put`, without a transaction.

A run of such calls is a run of the ledger of `Lib/Ledger.lean` (`sim_reach`): the ledger's
cell is the value under the key, a call reads it with its `Get`, and a call has put when it
has returned without an error.  `appends_lost_iff` carries the results over.
-/

namespace SimSearch.Master

open SimSearch.Lib

/-! ### Calls side by side -/

section

variable {net : Network} (key : String) (n : Nat) (vals : Nat → String)

/-- The calls of `PutOrAppend` on the key; a thread is labelled with the value it appends. -/
abbrev AppendCalls (net : Network) := Config (master net) String (Except String Unit)

def appendBody (val : String) : Prog (Except String Unit) := putOrAppend key val n

def afterGet (val : String) : Except String (Option String) → Prog (Except String Unit)
  | .error e =>
    .ret (.error ("EtcdClient PutOrAppend() failed to get key " ++ key ++ ", error: " ++ e))
  | .ok old =>
    if (old.getD "" ++ val).utf8ByteSize > n * 1024 then
      .ret (.error ("EtcdClient PutOrAppend() value len:"
        ++ toString (old.getD "" ++ val).utf8ByteSize ++ " > maxLenBytes: " ++ toString (n * 1024)))
    else .call (.put key (old.getD "" ++ val)) .ret

theorem appendBody_eq (val : String) :
    appendBody key n val = .call (.get key) (afterGet key n val) := by
  refine congrArg (Program.call (Op.get key)) (funext fun r => ?_)
  cases r with
  | error e => rfl
  | ok old => rfl

/-- The call `t` appends `vals t`, and nobody else writes. -/
structure AppendOk (c : AppendCalls net) (e : Event (master net) String) : Prop where
  alone : ∀ w, e ≠ .env w
  value : ∀ t val, e = .spawn t val → val = vals t

/-- The value under the key; a key that is not there counts as the empty value. -/
def contentsOf (c : AppendCalls net) : String := (c.state.etcd[key]?).getD ""

def Succeeded (c : AppendCalls net) (t : Nat) : Prop :=
  ∃ val tr, c.threads t = some ⟨val, tr, .ret (.ok ())⟩

def HasRead (c : AppendCalls net) (t : Nat) (x : String) : Prop :=
  ∃ th old, c.threads t = some th ∧ (⟨.get key, .ok old⟩ : Σ o, Res o) ∈ th.trace ∧ old.getD "" = x

/-! ### The ledger of the calls -/

inductive AppendPhase (s : Ledger.State Nat Char) (t : Nat) :
    Thread Op Res String (Except String Unit) → Prop
  | started {val : String} (hread : s.read t = none) (hnew : t ∉ s.written) :
      AppendPhase s t ⟨val, [], .call (.get key) (afterGet key n val)⟩
  | opened {val : String} {old : Option String} (hread : s.read t = some (old.getD "").toList)
      (hnew : t ∉ s.written) (hfits : (old.getD "" ++ val).utf8ByteSize ≤ n * 1024) :
      AppendPhase s t ⟨val, [⟨.get key, .ok old⟩], .call (.put key (old.getD "" ++ val)) .ret⟩
  | failed {val : String} {tr : Trace Op Res} {e : String} (hnew : t ∉ s.written) :
      AppendPhase s t ⟨val, tr, .ret (.error e)⟩
  | done {val : String} {old : Option String} (hread : s.read t = some (old.getD "").toList)
      (hput : t ∈ s.written) :
      AppendPhase s t ⟨val, [⟨.get key, .ok old⟩, ⟨.put key (old.getD "" ++ val), .ok ()⟩], .ret (.ok ())⟩

variable {key n} in
/-- What a call sees of the ledger is what it has done itself. -/
theorem AppendPhase.congr {s s' : Ledger.State Nat Char} {t : Nat}
    {th : Thread Op Res String (Except String Unit)} (h : AppendPhase key n s t th)
    (hread : s'.read t = s.read t) (hput : t ∈ s'.written ↔ t ∈ s.written) :
    AppendPhase key n s' t th := by
  cases h with
  | started hr hn => exact .started (hread.trans hr) fun h => hn (hput.mp h)
  | opened hr hn hf => exact .opened (hread.trans hr) (fun h => hn (hput.mp h)) hf
  | failed hn => exact .failed fun h => hn (hput.mp h)
  | done hr hp => exact .done (hread.trans hr) (hput.mpr hp)

/-- The ledger `s` of the calls in `c`, and a limit on the size of the value. -/
structure AppendSim (lim : Nat) (c : AppendCalls net) (s : Ledger.State Nat Char) : Prop where
  value : s.value = (contentsOf key c).toList
  size : (contentsOf key c).utf8ByteSize ≤ lim
  fresh : ∀ t, c.threads t = none → s.read t = none ∧ t ∉ s.written
  label : ∀ t th, c.threads t = some th → th.label = vals t
  phase : ∀ t th, c.threads t = some th → AppendPhase key n s t th

variable {lim : Nat}

variable {key n vals} in
theorem AppendSim.set {c : AppendCalls net} {s s' : Ledger.State Nat Char} (h : AppendSim key n vals lim c s)
    {t : Nat} {w : World net} {th : Thread Op Res String (Except String Unit)}
    (hvalue : s'.value = ((w.etcd[key]?).getD "").toList)
    (hsize : ((w.etcd[key]?).getD "").utf8ByteSize ≤ lim)
    (hread : ∀ u, u ≠ t → s'.read u = s.read u)
    (hput : ∀ u, u ≠ t → (u ∈ s'.written ↔ u ∈ s.written))
    (hlabel : th.label = vals t) (hphase : AppendPhase key n s' t th) :
    AppendSim key n vals lim (c.set t w th) s' := by
  refine ⟨hvalue, hsize, fun u hu => ?_, fun u th' hu => ?_, fun u th' hu => ?_⟩
  · have hut : u ≠ t := by
      rintro rfl
      simp [Config.set] at hu
    simp only [Config.set, Function.update_of_ne hut] at hu
    rw [hread u hut, hput u hut]
    exact h.fresh u hu
  · rcases Config.threads_set hu with ⟨rfl, rfl⟩ | ⟨-, hu⟩
    · exact hlabel
    · exact h.label u th' hu
  · rcases Config.threads_set hu with ⟨rfl, rfl⟩ | ⟨hut, hu⟩
    · exact hphase
    · exact (h.phase u th' hu).congr (hread u hut) (hput u hut)

variable {key n vals} in
theorem AppendSim.stays {c : AppendCalls net} {s : Ledger.State Nat Char}
    (h : AppendSim key n vals lim c s) {t : Nat}
    {th : Thread Op Res String (Except String Unit)} (hlabel : th.label = vals t)
    (hphase : AppendPhase key n s t th) : AppendSim key n vals lim (c.set t c.state th) s :=
  h.set h.value h.size (fun _ _ => rfl) (fun _ _ => Iff.rfl) hlabel hphase

def textOf (t : Nat) : List Char := (vals t).toList

variable {key n vals} in
/-- **One event is at most one event of the ledger.** -/
theorem sim_step {c : AppendCalls net} {s : Ledger.State Nat Char} (hlim : n * 1024 ≤ lim)
    (h : AppendSim key n vals lim c s) {e : Event (master net) String} (he : AppendOk vals c e) :
    AppendSim key n vals lim (step (appendBody key n) c e) s ∨
      ∃ a, AppendSim key n vals lim (step (appendBody key n) c e) (Ledger.step (textOf vals) s a) := by
  have htakes := step_takes (appendBody key n) c e
  generalize step (appendBody key n) c e = c' at htakes ⊢
  cases htakes with
  | stays => exact Or.inl h
  | moves => exact absurd rfl (he.alone _)
  | @starts t val ht =>
    obtain ⟨hread, hnew⟩ := h.fresh t ht
    refine Or.inl (h.stays (he.value t val rfl) ?_)
    rw [appendBody_eq]
    exact .started hread hnew
  | @calls t pick val tr o k ht =>
    have hlabel : val = vals t := h.label t _ ht
    have hphase := h.phase t _ ht
    cases hphase with
    | started hread hnew =>
      cases pick (.get key) with
      | some e =>
        have hexec : (master net).exec t c.state (.get key) (some e) = (.error e, c.state) := rfl
        rw [hexec]
        exact Or.inl (h.stays hlabel (.failed hnew))
      | none =>
        have hexec : (master net).exec t c.state (.get key) none
            = (.ok c.state.etcd[key]?, c.state) := rfl
        rw [hexec]
        simp only [afterGet]
        by_cases hlong : ((c.state.etcd[key]?).getD "" ++ val).utf8ByteSize > n * 1024
        · rw [if_pos hlong]
          exact Or.inl (h.stays hlabel (.failed hnew))
        · rw [if_neg hlong]
          have hstep : Ledger.step (textOf vals) s (.read t)
              = { s with read := Function.update s.read t (some s.value) } := by
            simp only [Ledger.step, hread]
          refine Or.inr ⟨.read t, ?_⟩
          rw [hstep]
          refine h.set h.value h.size (fun u hu => Function.update_of_ne hu ..)
            (fun _ _ => Iff.rfl) hlabel ?_
          refine .opened ?_ hnew (Nat.le_of_not_lt hlong)
          rw [← contentsOf, ← h.value]
          exact Function.update_self ..
    | @opened _ old hread hnew hfits =>
      cases pick (.put key (old.getD "" ++ val)) with
      | some e =>
        have hexec : (master net).exec t c.state (.put key (old.getD "" ++ val)) (some e)
            = (.error e, c.state) := rfl
        rw [hexec]
        exact Or.inl (h.stays hlabel (.failed hnew))
      | none =>
        have hexec : (master net).exec t c.state (.put key (old.getD "" ++ val)) none
            = (.ok (), { c.state with etcd := c.state.etcd.insert key (old.getD "" ++ val) }) := rfl
        rw [hexec]
        have hstep : Ledger.step (textOf vals) s (.put t)
            = { s with value := (old.getD "").toList ++ textOf vals t
                       written := s.written ++ [t] } := by
          simp only [Ledger.step, hread, if_neg hnew]
        refine Or.inr ⟨.put t, ?_⟩
        rw [hstep]
        refine h.set ?_ ?_ (fun _ _ => rfl) (fun u hu => ?_) hlabel ?_
        · simp only [Std.TreeMap.getElem?_insert_self, Option.getD_some, String.toList_append]
          rw [textOf, ← hlabel]
        · simp only [Std.TreeMap.getElem?_insert_self, Option.getD_some]
          omega
        · simp [hu]
        · exact .done hread (List.mem_append_right _ List.mem_cons_self)

abbrev AppendRun (w : World net) : AppendCalls net → Prop :=
  Reach (step (appendBody key n)) (AppendOk vals) (Config.init w)

variable {key n vals} in
/-- **A run of the calls is a run of the ledger.** -/
theorem sim_reach {w : World net} {c : AppendCalls net} (h : AppendRun key n vals w c) :
    ∃ s, Ledger.Reached (textOf vals) ((w.etcd[key]?).getD "").toList s ∧
      AppendSim key n vals (max ((w.etcd[key]?).getD "").utf8ByteSize (n * 1024)) c s := by
  refine h.invariant (fun c => ∃ s, Ledger.Reached (textOf vals) ((w.etcd[key]?).getD "").toList s ∧
    AppendSim key n vals (max ((w.etcd[key]?).getD "").utf8ByteSize (n * 1024)) c s) ?_ ?_
  · refine ⟨_, Reach.start, rfl, Nat.le_max_left _ _, ?_, ?_, ?_⟩
    · exact fun t _ => ⟨rfl, List.not_mem_nil⟩
    · exact fun t th ht => (nomatch ht)
    · exact fun t th ht => (nomatch ht)
  · rintro c e ⟨s, hs, hsim⟩ he
    rcases sim_step (Nat.le_max_right _ _) hsim he with hsim' | ⟨a, hsim'⟩
    · exact ⟨s, hs, hsim'⟩
    · exact ⟨_, Reach.next a hs trivial, hsim'⟩

section

variable {key n vals} {c : AppendCalls net} {s : Ledger.State Nat Char}

theorem succeeded_iff (h : AppendSim key n vals lim c s) (t : Nat) : Succeeded c t ↔ t ∈ s.written := by
  constructor
  · rintro ⟨val, tr, ht⟩
    cases h.phase t _ ht with
    | done _ hput => exact hput
  · intro hput
    cases ht : c.threads t with
    | none => exact absurd hput (h.fresh t ht).2
    | some th =>
      cases h.phase t th ht with
      | started _ hnew => exact absurd hput hnew
      | opened _ hnew _ => exact absurd hput hnew
      | failed hnew => exact absurd hput hnew
      | done _ _ => exact ⟨_, _, ht⟩

/-- What a call that has put has read. -/
theorem hasRead_iff (h : AppendSim key n vals lim c s) {t : Nat} (ht : t ∈ s.written) (x : String) :
    HasRead key c t x ↔ s.read t = some x.toList := by
  obtain ⟨val, tr, hthread⟩ := (succeeded_iff h t).mpr ht
  cases h.phase t _ hthread with
  | @done _ old hread _ =>
    rw [hread, Option.some.injEq, String.toList_inj]
    constructor
    · rintro ⟨th, old', hth, hmem, rfl⟩
      rw [hthread, Option.some.injEq] at hth
      rw [← hth] at hmem
      simp only [List.mem_cons, List.not_mem_nil, or_false] at hmem
      rcases hmem with hmem | hmem
      · cases hmem
        rfl
      · cases hmem
    · intro hx
      exact ⟨_, old, hthread, List.mem_cons_self, hx⟩

/-- Two calls that returned without an error have read the same value. -/
def SameRead (key : String) (c : AppendCalls net) : Prop :=
  ∃ t u x, t ≠ u ∧ Succeeded c t ∧ Succeeded c u ∧ HasRead key c t x ∧ HasRead key c u x

theorem sameRead_iff (h : AppendSim key n vals lim c s) (ho : Ledger.Ordered s) :
    SameRead key c ↔ Ledger.Collision s := by
  constructor
  · rintro ⟨t, u, x, hne, ht, hu, htx, hux⟩
    have ht' := (succeeded_iff h t).mp ht
    have hu' := (succeeded_iff h u).mp hu
    exact ⟨t, ht', u, hu', hne,
      ((hasRead_iff h ht' x).mp htx).trans ((hasRead_iff h hu' x).mp hux).symm⟩
  · rintro ⟨t, ht, u, hu, hne, heq⟩
    obtain ⟨x, hx⟩ := ho.hasRead t ht
    have hx' : s.read t = some (String.ofList x).toList := by rw [hx, String.toList_ofList]
    refine ⟨t, u, String.ofList x, hne, (succeeded_iff h t).mpr ht, (succeeded_iff h u).mpr hu,
      ?_, ?_⟩
    · exact (hasRead_iff h ht _).mpr hx'
    · exact (hasRead_iff h hu _).mpr (heq ▸ hx')

end

/-- The value is the initial one followed by the values of all calls that returned without an
error, each once, in some order. -/
def Appended (base : String) (c : AppendCalls net) : Prop :=
  ∃ l : List Nat, l.Nodup ∧ (∀ t, t ∈ l ↔ Succeeded c t) ∧
    contentsOf key c = base ++ String.join (l.map vals)

theorem toList_join_map (l : List Nat) :
    (String.join (l.map vals)).toList = l.flatMap (textOf vals) := by
  rw [String.toList_join, List.flatMap_map]
  rfl

variable {key n vals} in
/-- Without a common read the texts are there in the order of the puts. -/
theorem appended_of_not_sameRead {base : String} {c : AppendCalls net}
    {s : Ledger.State Nat Char} (hs : Ledger.Reached (textOf vals) base.toList s)
    (h : AppendSim key n vals lim c s) (hno : ¬ SameRead key c) : Appended key vals base c := by
  have ho := Ledger.ordered_reached (textOf vals) hs
  rw [sameRead_iff h ho] at hno
  refine ⟨s.written, ho.nodup, fun t => (succeeded_iff h t).symm, ?_⟩
  rw [← String.toList_inj, ← h.value, String.toList_append, toList_join_map]
  exact Ledger.value_of_no_collision (textOf vals) hs hno

variable {key n vals} in
/-- If no text is empty, texts that are all there have the length of all texts. -/
theorem not_sameRead_of_appended {base : String} {c : AppendCalls net}
    {s : Ledger.State Nat Char} (hs : Ledger.Reached (textOf vals) base.toList s)
    (h : AppendSim key n vals lim c s) (hvals : ∀ t, vals t ≠ "") (happ : Appended key vals base c) :
    ¬ SameRead key c := by
  have ho := Ledger.ordered_reached (textOf vals) hs
  obtain ⟨l, hnodup, hmem, hvalue⟩ := happ
  have hperm : l.Perm s.written := by
    rw [List.perm_ext_iff_of_nodup hnodup ho.nodup]
    exact fun t => (hmem t).trans (succeeded_iff h t)
  rw [sameRead_iff h ho]
  refine Ledger.no_collision_of_length (textOf vals) ?_ hs ?_
  · intro t hnil
    exact hvals t (String.toList_eq_nil_iff.mp hnil)
  · rw [h.value, hvalue, String.toList_append, toList_join_map, List.length_append, Ledger.total,
      (hperm.flatMap_right (textOf vals)).length_eq]

/-- **Which appends are lost.**  For any number of calls of `PutOrAppend` on one key and every
interleaving of their steps: the value changes only in the step in which a call returns
without an error, and it does not grow beyond the limit.  The value is the initial one with
the values of all calls that returned without an error if no two of them have read the same
value, and, where no value is empty, only then. -/
theorem appends_lost_iff (w : World net) (c : AppendCalls net) (h : AppendRun key n vals w c) :
    (∀ e, AppendOk vals c e →
        contentsOf key (step (appendBody key n) c e) ≠ contentsOf key c →
        ∃ t, ¬ Succeeded c t ∧ Succeeded (step (appendBody key n) c e) t) ∧
      (contentsOf key c).utf8ByteSize
        ≤ max ((w.etcd[key]?).getD "").utf8ByteSize (n * 1024) ∧
      (¬ SameRead key c → Appended key vals ((w.etcd[key]?).getD "") c) ∧
      ((∀ t, vals t ≠ "") → Appended key vals ((w.etcd[key]?).getD "") c → ¬ SameRead key c) := by
  obtain ⟨s, hs, hsim⟩ := sim_reach h
  refine ⟨fun e he hne => ?_, hsim.size, appended_of_not_sameRead hs hsim,
    not_sameRead_of_appended hs hsim⟩
  rcases sim_step (Nat.le_max_right _ _) hsim he with hsim' | ⟨a, hsim'⟩
  · exact absurd (String.toList_inj.mp (hsim'.value.symm.trans hsim.value)) hne
  · have hmoves := Ledger.step_moves (textOf vals) s a
    generalize Ledger.step (textOf vals) s a = s' at hmoves hsim'
    cases hmoves with
    | stays => exact absurd (String.toList_inj.mp (hsim'.value.symm.trans hsim.value)) hne
    | reads _ => exact absurd (String.toList_inj.mp (hsim'.value.symm.trans hsim.value)) hne
    | @puts t x hx hnew =>
      refine ⟨t, fun hsucc => hnew ((succeeded_iff hsim t).mp hsucc), ?_⟩
      exact (succeeded_iff hsim' t).mpr (List.mem_append_right _ List.mem_cons_self)

end

/-! ### Two calls -/

def noteVals (t : Nat) : String := if t = 0 then "create failed; " else "delete failed; "

/-- The events of two calls that make their steps in the given order. -/
def noteEvents (order : List Nat) : List (Event (master ackNet) String) :=
  .spawn 0 (noteVals 0) :: .spawn 1 (noteVals 1) ::
    order.map fun t => .act t (smooth ackNet sampleTime ())

/-- Two calls on the key that disables DDL, which is not there before. -/
def noteRun (order : List Nat) : AppendCalls ackNet :=
  (noteEvents order).foldl (step (appendBody ddlDisabledKey etcdValMaxLen))
    (Config.init { etcd := ∅, net := () })

theorem noteRun_reach (order : List Nat) :
    AppendRun ddlDisabledKey etcdValMaxLen noteVals { etcd := ∅, net := () } (noteRun order) := by
  refine reach_of_runOk _ _ Reach.start (runOk_of_forall _ _ fun e he c => ?_)
  simp only [noteEvents, List.mem_cons, List.mem_map] at he
  rcases he with rfl | rfl | ⟨t, -, rfl⟩
  · exact ⟨fun w h => (nomatch h), fun t val h => by cases h; rfl⟩
  · exact ⟨fun w h => (nomatch h), fun t val h => by cases h; rfl⟩
  · exact ⟨fun w h => (nomatch h), fun t val h => (nomatch h)⟩

theorem noteRun_succeeded {order : List Nat} {t : Nat} (h : Succeeded (noteRun order) t) :
    t = 0 ∨ t = 1 := by
  by_contra hne
  rw [not_or] at hne
  obtain ⟨val, tr, ht⟩ := h
  have hnone : (noteRun order).threads t = none := by
    refine threads_foldl_none _ _ rfl fun e he i hspawn => ?_
    rw [hspawn] at he
    simp [noteEvents, hne.1, hne.2] at he
  rw [hnone] at ht
  cases ht

theorem noteVals_ne (t : Nat) : noteVals t ≠ "" := by
  unfold noteVals
  split_ifs <;> decide

/-- One call after the other: both values are there, and the second call has read the first. -/
theorem appends_lost_sequential :
    contentsOf ddlDisabledKey (noteRun [0, 0, 1, 1]) = "create failed; delete failed; " ∧
      ¬ SameRead ddlDisabledKey (noteRun [0, 0, 1, 1]) := by
  have hvalue : contentsOf ddlDisabledKey (noteRun [0, 0, 1, 1])
      = "create failed; delete failed; " := by decide +kernel
  refine ⟨hvalue, ?_⟩
  refine (appends_lost_iff ddlDisabledKey etcdValMaxLen noteVals _ _
    (noteRun_reach [0, 0, 1, 1])).2.2.2 noteVals_ne ⟨[0, 1], by decide, fun t => ?_, hvalue⟩
  constructor
  · intro ht
    simp only [List.mem_cons, List.not_mem_nil, or_false] at ht
    rcases ht with rfl | rfl
    · exact ⟨_, _, rfl⟩
    · exact ⟨_, _, rfl⟩
  · intro ht
    rcases noteRun_succeeded ht with rfl | rfl
    · decide
    · decide

/-- Both calls read before either puts: both return without an error, and one value is lost. -/
theorem append_lost :
    AppendRun ddlDisabledKey etcdValMaxLen noteVals { etcd := ∅, net := () }
        (noteRun [0, 1, 0, 1]) ∧
      Succeeded (noteRun [0, 1, 0, 1]) 0 ∧ Succeeded (noteRun [0, 1, 0, 1]) 1 ∧
      contentsOf ddlDisabledKey (noteRun [0, 1, 0, 1]) = "delete failed; " ∧
      ¬ Appended ddlDisabledKey noteVals "" (noteRun [0, 1, 0, 1]) := by
  have hreach := noteRun_reach [0, 1, 0, 1]
  have h0 : Succeeded (noteRun [0, 1, 0, 1]) 0 := ⟨_, _, rfl⟩
  have h1 : Succeeded (noteRun [0, 1, 0, 1]) 1 := ⟨_, _, rfl⟩
  refine ⟨hreach, h0, h1, by decide +kernel, fun happ => ?_⟩
  obtain ⟨s, hs, hsim⟩ := sim_reach hreach
  refine not_sameRead_of_appended hs hsim noteVals_ne happ ⟨0, 1, "", by decide, h0, h1, ?_, ?_⟩
  · exact ⟨_, none, rfl, List.mem_cons_self, rfl⟩
  · exact ⟨_, none, rfl, List.mem_cons_self, rfl⟩

end SimSearch.Master
