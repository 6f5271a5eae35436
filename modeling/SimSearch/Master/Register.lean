import SimSearch.Master.Mutex

/-!
# Registering an address

`register` of `cluster_api.go` looks for a node of the same address with another id among
the recorded spaces and the keys below `PsNodesPrefix`, and then means to put the key of
the node there for some seconds.  `PsNodeTTL` is a plain `5` where nanoseconds are
expected, so `CreateWithTTL` refuses it before any call, and nobody looks at its result:
no request ever puts the key.

What is left of the contract is the check.  `parse_register` is the format of the keys,
`yields_register` says what the answer depends on, and `address_exclusive` puts the
requests together: while the key of one id is in etcd, and no key of the other id, a
request with the other id is answered with 12.
-/

namespace SimSearch.Master

open SimSearch.Lib Program

/-! ### The keys of an address -/

/-- What `register` scans: the keys of one address below `pre`. -/
def addressPrefix (pre ip : String) (port : Int) : String := pre ++ "/" ++ getPsNodeName ip port

theorem splitColon_append {a : String} (h : ':' ∉ a.toList) (r : String) :
    splitColon (a ++ ":" ++ r) = a :: splitColon r := by
  have hchars : (a ++ ":" ++ r).toList = a.toList ++ ':' :: r.toList := by
    rw [String.toList_append, String.toList_append, List.append_assoc]
    rfl
  rw [splitColon, hchars, List.splitOn_append_cons_self_of_not_mem h, List.map_cons,
    String.ofList_toList]
  rfl

theorem colon_not_mem_toString (n : Int) : ':' ∉ (toString n).toList := by
  intro hmem
  have hdigits : ':' ∉ Nat.toDigits 10 n.natAbs := fun h =>
    absurd (Nat.isDigit_of_mem_toDigits (by decide) (by decide) h) (by decide)
  rw [toList_toString] at hmem
  by_cases hn : 0 ≤ n
  · rw [if_pos hn] at hmem
    exact hdigits hmem
  · rw [if_neg hn] at hmem
    rcases List.mem_cons.mp hmem with h | h
    · cases h
    · exact hdigits h

theorem exists_of_startsWith {pre key : String} (h : startsWith pre key = true) :
    ∃ rest, key = pre ++ rest := by
  obtain ⟨rest, hrest⟩ := List.isPrefixOf_iff_prefix.mp h
  refine ⟨String.ofList rest, String.toList_inj.mp ?_⟩
  rw [String.toList_append, String.toList_ofList, hrest]

section

variable {pre ip : String} {port : Int}

theorem splitColon_address (hpre : ':' ∉ pre.toList) (hip : ':' ∉ ip.toList) (rest : String) :
    splitColon (addressPrefix pre ip port ++ rest)
      = (pre ++ "/") :: ip :: toString port :: splitColon rest := by
  have hslash : ':' ∉ (pre ++ "/").toList := by
    rw [String.toList_append]
    intro h
    rcases List.mem_append.mp h with h | h
    · exact hpre h
    · exact absurd h (by decide)
  have hassoc : addressPrefix pre ip port ++ rest
      = (pre ++ "/") ++ ":" ++ (ip ++ ":" ++ (toString port ++ ":" ++ rest)) := by
    simp only [addressPrefix, getPsNodeName, String.append_assoc]
  rw [hassoc, splitColon_append hslash, splitColon_append hip,
    splitColon_append (colon_not_mem_toString port)]

theorem splitColon_toString (n : Int) : splitColon (toString n) = [toString n] := by
  rw [splitColon, List.splitOn_eq_singleton (colon_not_mem_toString n), List.map_singleton,
    String.ofList_toList]

/-- **The keys of an address parse to it.** -/
theorem parse_address (hpre : ':' ∉ pre.toList) (hip : ':' ∉ ip.toList) (hport : GoInt port)
    {key : String} (h : startsWith (addressPrefix pre ip port) key = true) :
    ∃ id, parsePsRegisterKey key = some (ip, port, id) := by
  obtain ⟨rest, rfl⟩ := exists_of_startsWith h
  unfold parsePsRegisterKey
  rw [splitColon_address hpre hip]
  have hne : splitColon rest ≠ [] := by
    rw [splitColon]
    exact fun hnil => List.splitOn_ne_nil _ _ (List.map_eq_nil_iff.mp hnil)
  obtain ⟨x, xs, hx⟩ := List.exists_cons_of_ne_nil hne
  rw [hx]
  exact ⟨atoi x, by simp only [atoi_toString hport]⟩

theorem parse_addressKey (hpre : ':' ∉ pre.toList) (hip : ':' ∉ ip.toList) (hport : GoInt port)
    {id : Int} (hid : GoInt id) :
    parsePsRegisterKey (addressPrefix pre ip port ++ toString id) = some (ip, port, id) := by
  unfold parsePsRegisterKey
  rw [splitColon_address hpre hip, splitColon_toString]
  simp only [atoi_toString hport, atoi_toString hid]

theorem parse_register (hip : ':' ∉ ip.toList) (hport : GoInt port) {id : Int} (hid : GoInt id) :
    parsePsRegisterKey (getPsRegisterKey ip port id) = some (ip, port, id) :=
  parse_addressKey (by decide) hip hport hid

/-- Of the keys of one address the first one counts. -/
theorem repDeserialize_address {keys : List String}
    (h : ∀ key ∈ keys, ∃ id, parsePsRegisterKey key = some (ip, port, id)) :
    ∃ m, repDeserializeFromByte keys = some m ∧ (keys ≠ [] → ∃ key ∈ keys, ∃ id,
      parsePsRegisterKey key = some (ip, port, id) ∧
      m.lookup (getPsNodeName ip port) = some { psId := id, psIp := ip, psPort := port }) := by
  -- once the name is listed the list stays
  have hstay : ∀ (keys : List String) (r : Replica),
      (∀ key ∈ keys, ∃ id, parsePsRegisterKey key = some (ip, port, id)) →
      keys.foldlM addPsNode [(getPsNodeName ip port, r)]
        = some [(getPsNodeName ip port, r)] := by
    intro keys r
    induction keys with
    | nil => intro _; rfl
    | cons key keys ih =>
      intro h
      obtain ⟨id, hid⟩ := h key List.mem_cons_self
      have hone : addPsNode [(getPsNodeName ip port, r)] key
          = some [(getPsNodeName ip port, r)] := by
        simp only [addPsNode, hid, Option.map_some, List.map_cons, List.map_nil,
          List.mem_singleton, if_true]
      rw [List.foldlM_cons, hone]
      exact ih fun x hx => h x (List.mem_cons_of_mem _ hx)
  unfold repDeserializeFromByte
  cases keys with
  | nil => exact ⟨[], rfl, fun hne => absurd rfl hne⟩
  | cons key keys =>
    obtain ⟨id, hid⟩ := h key List.mem_cons_self
    have hone : addPsNode [] key = some
        [(getPsNodeName ip port, { psId := id, psIp := ip, psPort := port })] := by
      simp only [addPsNode, hid, Option.map_some, List.map_nil, List.not_mem_nil, if_false,
        List.nil_append]
    refine ⟨[(getPsNodeName ip port, { psId := id, psIp := ip, psPort := port })], ?_, fun _ => ?_⟩
    · rw [List.foldlM_cons, hone]
      exact hstay keys _ fun x hx => h x (List.mem_cons_of_mem _ hx)
    · exact ⟨key, List.mem_cons_self, id, hid, by simp⟩

end

/-! ### What the check finds -/

/-- The key of the address with the id `id₁` is in etcd, and none that parses to `id₂`. -/
structure Registered (ip : String) (port id₁ id₂ : Int) (e : Std.TreeMap String String) : Prop where
  key : e.contains (getPsRegisterKey ip port id₁) = true
  others : ∀ key, e.contains key = true →
    startsWith (addressPrefix psNodesPrefix ip port) key = true →
    key ≠ getPsRegisterKey ip port id₁ → ∀ id, parsePsRegisterKey key = some (ip, port, id) → id ≠ id₂

section

variable {ip : String} {port id₁ id₂ : Int} {net : Network}

theorem startsWith_psNodes {key : String}
    (h : startsWith (addressPrefix psNodesPrefix ip port) key = true) :
    startsWith psNodesPrefix key = true := by
  obtain ⟨rest, rfl⟩ := exists_of_startsWith h
  simp only [addressPrefix, String.append_assoc]
  exact startsWith_append _ _

theorem startsWith_register (ip : String) (port id : Int) :
    startsWith (addressPrefix psNodesPrefix ip port) (getPsRegisterKey ip port id) = true :=
  startsWith_append _ _

theorem contains_of_agree {e e' : Std.TreeMap String String} (h : Agree psNodesPrefix e e')
    {key : String} (hkey : startsWith psNodesPrefix key = true) :
    e'.contains key = e.contains key := by
  rw [Std.TreeMap.contains_eq_isSome_getElem?, Std.TreeMap.contains_eq_isSome_getElem?, h key hkey]

theorem Registered.agree {e e' : Std.TreeMap String String} (h : Registered ip port id₁ id₂ e)
    (he : Agree psNodesPrefix e e') : Registered ip port id₁ id₂ e' := by
  refine ⟨?_, fun key hkey hstart hne => ?_⟩
  · rw [contains_of_agree he (startsWith_psNodes (startsWith_register ip port id₁))]
    exact h.key
  · rw [contains_of_agree he (startsWith_psNodes hstart)] at hkey
    exact h.others key hkey hstart hne

/-- The scanned keys have a node of the address, and its id is not `id₂`. -/
theorem Registered.conflict (hip : ':' ∉ ip.toList) (hport : GoInt port) (hid₁ : GoInt id₁)
    (hne : id₁ ≠ id₂) {e : Std.TreeMap String String} (h : Registered ip port id₁ id₂ e) :
    ∃ m, repDeserializeFromByte ((scanEtcd e (addressPrefix psNodesPrefix ip port)).map Prod.fst)
        = some m ∧
      ∃ node, m.lookup (getPsNodeName ip port) = some node ∧ node.psId ≠ id₂ := by
  have hkeys : ∀ key ∈ (scanEtcd e (addressPrefix psNodesPrefix ip port)).map Prod.fst,
      e.contains key = true ∧ startsWith (addressPrefix psNodesPrefix ip port) key = true := by
    intro key hmem
    obtain ⟨⟨k, v⟩, hkv, rfl⟩ := List.mem_map.mp hmem
    obtain ⟨hget, hstart⟩ := mem_scanEtcd.mp hkv
    refine ⟨?_, hstart⟩
    rw [Std.TreeMap.contains_eq_isSome_getElem?, hget]
    rfl
  have hscanned : getPsRegisterKey ip port id₁
      ∈ (scanEtcd e (addressPrefix psNodesPrefix ip port)).map Prod.fst := by
    have hkey := h.key
    rw [Std.TreeMap.contains_eq_isSome_getElem?] at hkey
    obtain ⟨v, hv⟩ := Option.isSome_iff_exists.mp hkey
    exact List.mem_map.mpr ⟨_, mem_scanEtcd.mpr ⟨hv, startsWith_register ip port id₁⟩, rfl⟩
  have hparse : ∀ key ∈ (scanEtcd e (addressPrefix psNodesPrefix ip port)).map Prod.fst,
      ∃ id, parsePsRegisterKey key = some (ip, port, id) :=
    fun key hmem => parse_address (by decide) hip hport (hkeys key hmem).2
  obtain ⟨m, hm, hfirst⟩ := repDeserialize_address hparse
  obtain ⟨key, hmem, id, hid, hlook⟩ := hfirst (List.ne_nil_of_mem hscanned)
  refine ⟨m, hm, _, hlook, ?_⟩
  show id ≠ id₂
  by_cases hk : key = getPsRegisterKey ip port id₁
  · rw [hk, parse_register hip hport hid₁] at hid
    cases hid
    exact hne
  · exact h.others key (hkeys key hmem).1 (hkeys key hmem).2 hk id hid

theorem registerConflict_of_lookup (req : RegisterRequest) (busy err : List (String × Replica))
    {m : List (String × Replica)} {node : Replica}
    (hlook : m.lookup (getPsNodeName req.ip req.port) = some node) (hne : node.psId ≠ req.id) :
    ∃ node', registerConflict req [busy, m, err] = some node' := by
  have hfound : (m.lookup (getPsNodeName req.ip req.port)).filter (fun node => node.psId ≠ req.id)
      = some node := by
    rw [hlook]
    exact Option.filter_eq_some_iff.mpr ⟨rfl, decide_eq_true hne⟩
  refine Option.isSome_iff_exists.mp (List.findSome?_isSome_iff.mpr ⟨m, by simp, ?_⟩)
  rw [hfound]
  rfl

/-! ### What the answer depends on -/

/-- The calls that a request of the address has made: there was a session and the lock,
and the scan of the nodes showed the key. -/
structure Heard (ip : String) (port id₁ id₂ : Int) (tr : Trace Op Res) : Prop where
  session : ∀ r, (⟨.newSession, r⟩ : Σ o, Res o) ∈ tr → r = .ok ()
  lock : ∀ r, (⟨.tryLock 19, r⟩ : Σ o, Res o) ∈ tr → r = true
  nodes : ∀ r, (⟨.scan (addressPrefix psNodesPrefix ip port), r⟩ : Σ o, Res o) ∈ tr →
    ∃ e, Registered ip port id₁ id₂ e ∧ r = .ok (scanEtcd e (addressPrefix psNodesPrefix ip port))
  errs : ∀ r, (⟨.scan (addressPrefix errPsNodesPrefix ip port), r⟩ : Σ o, Res o) ∈ tr →
    ∀ l, r = .ok l → ∃ e, l = scanEtcd e (addressPrefix errPsNodesPrefix ip port)

def scanned : Except String (List (String × String)) → List (String × String)
  | .ok kvs => kvs
  | .error _ => []

theorem yields_scanOrEmpty (pre : String) : (scanOrEmpty pre).Yields fun tr l =>
    ∃ r, tr = [⟨.scan pre, r⟩] ∧ l = scanned r := by
  refine yields_perform fun r => ?_
  cases r with
  | error e => exact ⟨.error e, rfl, rfl⟩
  | ok l => exact ⟨.ok l, rfl, rfl⟩

theorem yields_tryLock : (tryLock 20).Yields fun tr b =>
    b = false → (⟨.tryLock 19, false⟩ : Σ o, Res o) ∈ tr := by
  -- by induction on the attempts that are left after the next one
  have hfrom : ∀ fuel i, (tryLockFrom (fuel + 1) i).Yields fun tr b =>
      b = false → (⟨.tryLock (i + fuel), false⟩ : Σ o, Res o) ∈ tr := by
    intro fuel
    induction fuel with
    | zero =>
      intro i
      refine yields_perform fun r => ?_
      cases r with
      | true => exact fun hb => nomatch hb
      | false => exact fun _ => List.mem_cons_self
    | succ fuel ih =>
      intro i
      refine yields_perform fun r => ?_
      cases r with
      | true => exact fun hb => nomatch hb
      | false =>
        refine (ih (i + 1)).mono fun tr b h hb => List.mem_cons_of_mem _ ?_
        have hidx : i + (fuel + 1) = i + 1 + fuel := by omega
        rw [hidx]
        exact h hb
  exact hfrom 19 0

/-- The scan of the nodes has a node of the address with another id. -/
theorem Heard.nodes_conflict {tr : Trace Op Res} (h : Heard ip port id₁ id₂ tr)
    (hip : ':' ∉ ip.toList) (hport : GoInt port) (hid₁ : GoInt id₁) (hne : id₁ ≠ id₂)
    {r : Except String (List (String × String))}
    (hr : (⟨.scan (addressPrefix psNodesPrefix ip port), r⟩ : Σ o, Res o) ∈ tr) :
    ∃ m, repDeserializeFromByte ((scanned r).map Prod.fst) = some m ∧
      ∃ node, m.lookup (getPsNodeName ip port) = some node ∧ node.psId ≠ id₂ := by
  obtain ⟨e, he, rfl⟩ := h.nodes r hr
  exact he.conflict hip hport hid₁ hne

theorem Heard.errs_parse {tr : Trace Op Res} (h : Heard ip port id₁ id₂ tr)
    (hip : ':' ∉ ip.toList) (hport : GoInt port) {r : Except String (List (String × String))}
    (hr : (⟨.scan (addressPrefix errPsNodesPrefix ip port), r⟩ : Σ o, Res o) ∈ tr) :
    ∃ m, repDeserializeFromByte ((scanned r).map Prod.fst) = some m := by
  cases r with
  | error msg => exact ⟨[], rfl⟩
  | ok l =>
    obtain ⟨e, rfl⟩ := h.errs (.ok l) hr l rfl
    have hparse : ∀ key ∈ (scanEtcd e (addressPrefix errPsNodesPrefix ip port)).map Prod.fst,
        ∃ id, parsePsRegisterKey key = some (ip, port, id) := by
      intro key hmem
      obtain ⟨⟨k, v⟩, hkv, rfl⟩ := List.mem_map.mp hmem
      exact parse_address (by decide) hip hport (mem_scanEtcd.mp hkv).2
    obtain ⟨m, hm, -⟩ := repDeserialize_address hparse
    exact ⟨m, hm⟩

/-- **With the key in the scan the check finds the conflict.** -/
theorem yields_registerLocked (json : SpaceJson) (hip : ':' ∉ ip.toList) (hport : GoInt port)
    (hid₁ : GoInt id₁) (hne : id₁ ≠ id₂) :
    (registerLocked json ⟨ip, port, id₂⟩).Yields fun tr ans =>
      Heard ip port id₁ id₂ tr → ans.code = 12 := by
  refine yields_seq ((yields_scanOrEmpty _).mono ?_)
  rintro tr₁ psKeys ⟨r₁, rfl, rfl⟩
  refine yields_seq ((yields_scanOrEmpty _).mono ?_)
  rintro tr₂ errPsKeys ⟨r₂, rfl, rfl⟩
  simp only
  rcases hm : repDeserializeFromByte ((scanned r₁).map Prod.fst) with _ | nodes
  · intro h
    obtain ⟨m, hm', -⟩ :=
      h.nodes_conflict (r := r₁) hip hport hid₁ hne (by simp [addressPrefix])
    rw [hm] at hm'
    cases hm'
  rcases hm₂ : repDeserializeFromByte ((scanned r₂).map Prod.fst) with _ | errNodes
  · intro h
    obtain ⟨m, hm'⟩ := h.errs_parse (r := r₂) hip hport (by simp [addressPrefix])
    rw [hm₂] at hm'
    cases hm'
  simp only
  refine yields_seq ((yields_true _).mono fun tr₃ spaces _ => ?_)
  refine yields_seq ((yields_true _).mono fun tr₄ busy _ => ?_)
  cases hconf : registerConflict ⟨ip, port, id₂⟩ [getAllPsMap busy, nodes, errNodes] with
  | some node => exact fun _ => rfl
  | none =>
    intro h
    obtain ⟨m, hm', node, hlook, hid⟩ :=
      h.nodes_conflict (r := r₁) hip hport hid₁ hne (by simp [addressPrefix])
    rw [hm] at hm'
    cases hm'
    obtain ⟨node', hnode'⟩ := registerConflict_of_lookup ⟨ip, port, id₂⟩ (getAllPsMap busy)
      errNodes hlook hid
    rw [hconf] at hnode'
    cases hnode'

theorem yields_register (json : SpaceJson) (hip : ':' ∉ ip.toList) (hport : GoInt port)
    (hid₁ : GoInt id₁) (hne : id₁ ≠ id₂) :
    (register json (.ok ⟨ip, port, id₂⟩)).Yields fun tr ans =>
      Heard ip port id₁ id₂ tr → ans.code = 12 := by
  refine yields_perform fun r => ?_
  cases r with
  | error e =>
    intro h
    cases h.session (.error e) List.mem_cons_self
  | ok u =>
    refine yields_seq (yields_seq (yields_tryLock.mono fun tr b hb => ?_))
    cases b with
    | false =>
      intro r h
      cases h.lock false (List.mem_cons_of_mem _ (List.mem_append_left _
        (List.mem_append_left _ (hb rfl))))
    | true =>
      refine (yields_registerLocked json hip hport hid₁ hne).mono fun tr' ans hans => ?_
      intro r h
      refine hans ⟨fun r hr => h.session r ?_, fun r hr => h.lock r ?_, fun r hr => h.nodes r ?_,
        fun r hr => h.errs r ?_⟩
      all_goals exact List.mem_cons_of_mem _ (List.mem_append_left _ (List.mem_append_right _ hr))

/-! ### Requests side by side -/

/-- What must not fail in a request of the address: the session, the last attempt at the
lock and the scan of the nodes. -/
def CallPasses (ip : String) (port : Int) (net : Network) (t : Nat) (w : World net) :
    (o : Op) → Choice net o → Prop
  | .newSession, c => c = none
  | .tryLock n, c => n = 19 → (exec net t w (.tryLock n) c).1 = true
  | .scan pre, c => pre = addressPrefix psNodesPrefix ip port → c = none
  | _, _ => True

/-- Nobody from outside removes the key of `id₁` or puts one of `id₂`, and what the
request with `id₂` relies on does not fail. -/
def KeepsRegistered (ip : String) (port id₁ id₂ : Int) (c : Cluster net) :
    Event (master net) Request → Prop
  | .spawn _ _ => True
  | .act t pick =>
    match c.threads t with
    | some ⟨.register (.ok req), _, .call o _⟩ =>
      req = ⟨ip, port, id₂⟩ → CallPasses ip port net t c.state o (pick o)
    | _ => True
  | .env w => Registered ip port id₁ id₂ (World.etcd w)

theorem HandlerOp.spares_ps (o : Op) (h : HandlerOp o) : Spares psNodesPrefix o := by
  have hkey : ∀ key, (NoteKey key ∨ ∃ db sp, key = getSpaceEtcdKey db sp) →
      startsWith psNodesPrefix key = false := by
    rintro key (hnote | ⟨db, sp, rfl⟩)
    · exact hnote.not_psKey
    · exact not_psKey_getSpaceEtcdKey db sp
  cases o with
  | put key val => exact hkey key h
  | delete key => exact hkey key h
  | newId key =>
    cases h
    exact (by decide : startsWith psNodesPrefix genSpaceIdKey = false)
  | _ => trivial

theorem mem_snoc {tr : Trace Op Res} {o o' : Op} {x : Res o} {r : Res o'}
    (h : (⟨o', r⟩ : Σ o, Res o) ∈ tr ++ [⟨o, x⟩]) :
    (⟨o', r⟩ : Σ o, Res o) ∈ tr ∨ ∃ heq : o = o', heq ▸ x = r := by
  rcases List.mem_append.mp h with h | h
  · exact Or.inl h
  · cases List.mem_singleton.mp h
    exact Or.inr ⟨rfl, rfl⟩

/-- One more call of the request, while the key is there. -/
theorem Heard.exec {t : Nat} {tr : Trace Op Res} (h : Heard ip port id₁ id₂ tr) {w : World net}
    (hw : Registered ip port id₁ id₂ w.etcd) {o : Op} {c : Choice net o}
    (hc : CallPasses ip port net t w o c) :
    Heard ip port id₁ id₂ (tr ++ [⟨o, (exec net t w o c).1⟩]) := by
  refine ⟨fun r hr => ?_, fun r hr => ?_, fun r hr => ?_, fun r hr l hl => ?_⟩
  · rcases mem_snoc hr with hr | ⟨rfl, rfl⟩
    · exact h.session r hr
    · cases hc
      rfl
  · rcases mem_snoc hr with hr | ⟨rfl, rfl⟩
    · exact h.lock r hr
    · exact hc rfl
  · rcases mem_snoc hr with hr | ⟨rfl, rfl⟩
    · exact h.nodes r hr
    · cases hc rfl
      exact ⟨w.etcd, hw, rfl⟩
  · rcases mem_snoc hr with hr | ⟨rfl, rfl⟩
    · exact h.errs r hr l hl
    · cases c with
      | some e => cases hl
      | none =>
        cases hl
        exact ⟨w.etcd, rfl⟩

theorem heard_nil : Heard ip port id₁ id₂ [] :=
  ⟨fun _ h => (nomatch h), fun _ h => (nomatch h), fun _ h => (nomatch h), fun _ h => (nomatch h)⟩

/-- The key stays, and every request with `id₂` has seen it. -/
theorem heard_reach {json : SpaceJson} {w : World net} (hw : Registered ip port id₁ id₂ w.etcd)
    {c : Cluster net}
    (h : Reach (step (serve json)) (KeepsRegistered ip port id₁ id₂) (Config.init w) c) :
    Registered ip port id₁ id₂ (World.etcd c.state) ∧ c.All fun _ th _ =>
      th.label = .register (.ok ⟨ip, port, id₂⟩) → Heard ip port id₁ id₂ th.trace := by
  refine h.invariant_reached (fun c : Cluster net => Registered ip port id₁ id₂ (World.etcd c.state) ∧
    c.All fun _ th _ => th.label = .register (.ok ⟨ip, port, id₂⟩) → Heard ip port id₁ id₂ th.trace)
    ⟨hw, all_init w⟩ ?_
  rintro c e hreach ⟨hc, hthreads⟩ hok
  have huses := reach_uses (uses_serve json) hreach
  refine ⟨state_step (M := master net)
    (I := fun w : World net => Registered ip port id₁ id₂ w.etcd) hc ?_ ?_,
    all_step hthreads ?_ ?_ ?_⟩
  · intro t pick i tr o k _ ht
    exact hc.agree (exec_spares c.state o (pick o) (HandlerOp.spares_ps o (huses t _ ht).1))
  · rintro w rfl
    exact hok
  · exact fun t i _ _ _ => heard_nil
  · rintro t pick i tr o k rfl ht
    refine ⟨fun hlabel => ?_, fun u th _ hu => hthreads u th hu⟩
    obtain rfl : i = .register (.ok ⟨ip, port, id₂⟩) := hlabel
    simp only [KeepsRegistered, ht] at hok
    exact (hthreads t _ ht rfl).exec hc (hok trivial)
  · exact fun _ _ t th ht => hthreads t th ht

/-- **An address belongs to one id.**  In every run in which nobody from outside removes
the key of `id₁` or puts one of `id₂`, and the session, the lock and the scan of requests
with `id₂` do not fail, the key of `id₁` is in etcd, and every request for the address
with `id₂` that was answered was answered with 12. -/
theorem address_exclusive (json : SpaceJson) (net : Network) (ip : String) (port id₁ id₂ : Int)
    (hip : ':' ∉ ip.toList) (hport : GoInt port) (hid₁ : GoInt id₁) (hne : id₁ ≠ id₂)
    (w : World net) (hw : Registered ip port id₁ id₂ w.etcd) (c : Cluster net)
    (h : Reach (step (serve json)) (KeepsRegistered ip port id₁ id₂) (Config.init w) c) :
    (World.etcd c.state).contains (getPsRegisterKey ip port id₁) = true ∧
      ∀ t tr ans, c.threads t = some ⟨.register (.ok ⟨ip, port, id₂⟩), tr, .ret (.reg ans)⟩ →
        ans.code = 12 := by
  obtain ⟨hreg, hheard⟩ := heard_reach hw h
  refine ⟨hreg.key, fun t tr ans ht => ?_⟩
  have hyields := reach_yields (Y := fun i tr out => ∀ ans,
      i = .register (.ok ⟨ip, port, id₂⟩) → out = .reg ans → Heard ip port id₁ id₂ tr →
        ans.code = 12) ?_ h
  · have hret := hyields t _ ht ans rfl rfl
    rw [List.append_nil] at hret
    exact hret (hheard t _ ht rfl)
  · intro i
    by_cases hi : i = .register (.ok ⟨ip, port, id₂⟩)
    · subst hi
      refine yields_seq ((yields_register json hip hport hid₁ hne).mono fun tr ans hans => ?_)
      intro ans' _ hout hheard'
      cases hout
      rw [List.append_nil] at hheard'
      exact hans hheard'
    · exact (yields_true _).mono fun tr out _ ans hlabel => absurd hlabel hi

end

def registerCode {net : Network} (c : Cluster net) (t : Nat) : Option Int :=
  match c.threads t with
  | some ⟨_, _, .ret (.reg ans)⟩ => some ans.code
  | _ => none

/-- A request of the node at 10.0.0.1:8081 that meets no failure and no other request. -/
def registerRun (t : Nat) (id : Int) : List (Event (master ackNet) Request) :=
  .spawn t (.register (.ok ⟨"10.0.0.1", 8081, id⟩)) :: List.replicate 7 (go t)

/-- The node has put its key itself, with the id 1. -/
def nodeWorld : World ackNet where
  etcd := (∅ : Std.TreeMap String String).insert (getPsRegisterKey "10.0.0.1" 8081 1) ""
  net := ()

theorem registered_insert (ip : String) (port id₁ id₂ : Int) (v : String) :
    Registered ip port id₁ id₂
      ((∅ : Std.TreeMap String String).insert (getPsRegisterKey ip port id₁) v) := by
  refine ⟨?_, fun key hkey _ hne => ?_⟩
  · rw [Std.TreeMap.contains_insert_self]
  · rw [Std.TreeMap.contains_insert] at hkey
    simp [hne.symm] at hkey

theorem address_exclusive_node :
    RunOk (step (serve goJson)) (KeepsRegistered "10.0.0.1" 8081 1 2) (Config.init nodeWorld)
        (registerRun 0 2) ∧
      registerCode ((registerRun 0 2).foldl (step (serve goJson)) (Config.init nodeWorld)) 0
        = some 12 ∧
      ∀ t tr ans, ((registerRun 0 2).foldl (step (serve goJson)) (Config.init nodeWorld)).threads t
          = some ⟨.register (.ok ⟨"10.0.0.1", 8081, 2⟩), tr, .ret (.reg ans)⟩ →
        ans.code = 12 := by
  have hrun : RunOk (step (serve goJson)) (KeepsRegistered "10.0.0.1" 8081 1 2)
      (Config.init nodeWorld) (registerRun 0 2) := by
    refine ⟨trivial, ?_, ?_, ?_, ?_, ?_, ?_, ?_, trivial⟩
    · exact fun _ => rfl
    · exact fun _ h => nomatch h
    · exact fun _ _ => rfl
    · exact fun _ _ => rfl
    · exact fun _ _ => rfl
    · exact fun _ => trivial
    · exact fun _ => trivial
  refine ⟨hrun, by decide +kernel, ?_⟩
  exact (address_exclusive goJson ackNet "10.0.0.1" 8081 1 2 (by decide) (by decide) (by decide)
    (by decide) nodeWorld (registered_insert _ _ _ _ _) _
    (reach_of_runOk (registerRun 0 2) _ Reach.start hrun)).2

def emptyWorld : World ackNet where
  net := ()

/-- Two processes register one address, and both are told that they have. -/
theorem register_twice :
    let c₁ := (registerRun 0 1).foldl (step (serve goJson)) (Config.init emptyWorld)
    let c₂ := (registerRun 1 2).foldl (step (serve goJson)) c₁
    Reach (step (serve goJson)) anyEvent (Config.init emptyWorld) c₁ ∧
      Reach (step (serve goJson)) anyEvent c₁ c₂ ∧
      registerCode c₁ 0 = some 0 ∧
      (World.etcd c₁.state).contains (getPsRegisterKey "10.0.0.1" 8081 1) = false ∧
      registerCode c₂ 1 = some 0 :=
  ⟨reach_foldl _ _ _, reach_foldl _ _ _, by decide +kernel, by decide +kernel, by decide +kernel⟩

end SimSearch.Master
