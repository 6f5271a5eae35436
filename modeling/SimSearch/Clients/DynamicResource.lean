import SimSearch.Lib.DoubleBuffer
import SimSearch.Lib.Verdicts

/-!
# The registry of dynamic resources

`DynamicResource` and `DynamicResourceManager` of `clients/dynamic_resource.h`.

A resource is registered under a name: `addDynamicResource` writes it to the map that is not in
use, copies the names that this map lacks from the one that is, and then changes over.  Nothing
copies a name that the map has, so a name that was added again is back at its old resource after
the next add of another name.

* `agrees_run`: the two maps are the two buffers of `Lib.DoubleBuffer`, filled by the adds that
  have returned `true`; every other call leaves them.
* `right_iff_current` carries `current_iff` over to every history of calls.
-/

namespace SimSearch.Clients

open SimSearch.Lib

/-! ### Resources -/

abbrev Content := Std.TreeMap String String

/-- What a call of `IResource::get_resource` gives; `none` is an exception. -/
abbrev Reading := Option Content

/-- `DynamicResource`; a time is a number of nanoseconds, and the index `false` is `0`. -/
structure DynamicResource where
  flushInterval : Int
  twoBuffer : Bool → Content
  idx : Bool := false
  updateTime : Int

def getResource (reading : Reading) : Content := reading.getD ∅

/-- The constructor of `DynamicResource`, which reads twice. -/
def DynamicResource.make (flushInterval now : Int) (first second : Reading) : DynamicResource where
  flushInterval := flushInterval
  twoBuffer i := if i then getResource second else getResource first
  updateTime := now

/-- The clock and the reading of one call of `getResourceWrapper`; the second time is the one
that `updateResource` takes under its lock. -/
structure WrapperCall where
  now : Int
  lockedNow : Int
  reading : Reading

/-- `duration_cast<seconds>`. -/
def seconds (ns : Int) : Int := ns.tdiv 1000000000

/-- `DynamicResource::updateResource`; it does not catch an exception. -/
def DynamicResource.updateResource (r : DynamicResource) (c : WrapperCall) :
    Option DynamicResource :=
  if seconds (c.lockedNow - r.updateTime) > r.flushInterval then
    c.reading.map fun newRes =>
      if newRes.isEmpty then r
      else
        { r with twoBuffer := Function.update r.twoBuffer (!r.idx) newRes
                 idx := !r.idx
                 updateTime := c.lockedNow }
  else some r

/-- `DynamicResource::getResourceWrapper`: the content, and the resource afterwards. -/
def DynamicResource.getResourceWrapper (r : DynamicResource) (c : WrapperCall) :
    Option (Content × DynamicResource) :=
  (if seconds (c.now - r.updateTime) > r.flushInterval then r.updateResource c else some r).map
    fun r => (r.twoBuffer r.idx, r)

/-! ### The manager -/

/-- `DynamicResourceManager`.  A pointer is the number of a resource in the order in which they
were registered. -/
structure DynamicResourceManager where
  resources : List DynamicResource := []
  idx : Bool := false
  resourceMap : Bool → Std.TreeMap String Nat := fun _ => ∅

structure AddResourceCall where
  name : String
  flushInterval : Int
  now : Int
  first : Reading
  second : Reading
  wrapper : WrapperCall

/-- The loop of `addDynamicResource` over the map in use. -/
def copyMissing (source target : Std.TreeMap String Nat) : Std.TreeMap String Nat :=
  source.toList.foldl (fun m e => if e.1 ∈ m then m else m.insert e.1 e.2) target

namespace DynamicResourceManager

/-- `addDynamicResource`: its result, `none` for an exception, and the manager afterwards.  The
wait of 200 ms between two adds changes nothing. -/
def addDynamicResource (m : DynamicResourceManager) (c : AddResourceCall) :
    Option Bool × DynamicResourceManager :=
  let dynRes := DynamicResource.make c.flushInterval c.now c.first c.second
  match dynRes.getResourceWrapper c.wrapper with
  | none => (none, m)
  | some (res, dynRes) =>
    if res.isEmpty = false then
      let newIdx := !m.idx
      let target := (m.resourceMap newIdx).insert c.name m.resources.length
      (some true,
        { resources := m.resources ++ [dynRes]
          idx := newIdx
          resourceMap := Function.update m.resourceMap newIdx
            (copyMissing (m.resourceMap m.idx) target) })
    else (some false, m)

/-- `getDynamicResource`: the content, `none` for an exception, and the manager afterwards. -/
def getDynamicResource (m : DynamicResourceManager) (name : String) (c : WrapperCall) :
    Option Content × DynamicResourceManager :=
  match (m.resourceMap m.idx)[name]?.bind fun p => m.resources[p]?.map fun r => (p, r) with
  | none => (some ∅, m)
  | some (p, r) =>
    match r.getResourceWrapper c with
    | none => (none, m)
    | some (res, r) => (some res, { m with resources := m.resources.set p r })

end DynamicResourceManager

/-! ### Histories -/

inductive ResourceEvent
  | add (c : AddResourceCall)
  | get (name : String) (c : WrapperCall)

/-- A manager, and the adds that have returned `true`, each with its resource. -/
structure Registry where
  manager : DynamicResourceManager := {}
  log : List (String × Nat) := []

def Registry.step (r : Registry) : ResourceEvent → Registry
  | .add c =>
    let (ret, manager) := r.manager.addDynamicResource c
    { manager := manager
      log := if ret = some true then r.log ++ [(c.name, r.manager.resources.length)] else r.log }
  | .get name c => { r with manager := (r.manager.getDynamicResource name c).2 }

def registryAfter (events : List ResourceEvent) : Registry := events.foldl Registry.step {}

def Registry.activeMap (r : Registry) : Std.TreeMap String Nat :=
  r.manager.resourceMap r.manager.idx

/-- Every name that was added is bound to the resource of its latest add. -/
def Registry.Right (r : Registry) : Prop :=
  ∀ name p, latest r.log name = some p → r.activeMap[name]? = some p

/-! ### The two maps -/

def Registry.otherMap (r : Registry) : Std.TreeMap String Nat :=
  r.manager.resourceMap (!r.manager.idx)

/-- The two maps are the two buffers, and the resources are numbered in the order of their
adds. -/
structure Agrees (r : Registry) : Prop where
  active : ∀ k, r.activeMap[k]? = (buffersAfter r.log).active k
  other : ∀ k, r.otherMap[k]? = (buffersAfter r.log).inactive k
  pointers : r.log.map Prod.snd = List.range r.log.length
  count : r.manager.resources.length = r.log.length

def DynamicResourceManager.registered (m : DynamicResourceManager) (name : String)
    (dynRes : DynamicResource) : DynamicResourceManager where
  resources := m.resources ++ [dynRes]
  idx := !m.idx
  resourceMap := Function.update m.resourceMap (!m.idx)
    (copyMissing (m.resourceMap m.idx) ((m.resourceMap (!m.idx)).insert name m.resources.length))

/-- **What an add can do**: it fails and changes nothing, or it registers a resource. -/
theorem addDynamicResource_cases (m : DynamicResourceManager) (c : AddResourceCall) :
    ((m.addDynamicResource c).1 ≠ some true ∧ (m.addDynamicResource c).2 = m) ∨
      ∃ dynRes, m.addDynamicResource c = (some true, m.registered c.name dynRes) := by
  cases hwrap : (DynamicResource.make c.flushInterval c.now c.first c.second).getResourceWrapper
    c.wrapper with
  | none =>
    have hadd : m.addDynamicResource c = (none, m) := by
      simp only [DynamicResourceManager.addDynamicResource, hwrap]
    rw [hadd]
    exact Or.inl ⟨fun h => (nomatch h), rfl⟩
  | some pair =>
    obtain ⟨res, dynRes⟩ := pair
    by_cases hres : res.isEmpty = false
    · refine Or.inr ⟨dynRes, ?_⟩
      simp only [DynamicResourceManager.addDynamicResource, hwrap, if_pos hres,
        DynamicResourceManager.registered]
    · have hadd : m.addDynamicResource c = (some false, m) := by
        simp only [DynamicResourceManager.addDynamicResource, hwrap, if_neg hres]
      rw [hadd]
      exact Or.inl ⟨fun h => Bool.false_ne_true (Option.some.inj h), rfl⟩

theorem getDynamicResource_maps (m : DynamicResourceManager) (name : String) (c : WrapperCall) :
    (m.getDynamicResource name c).2.idx = m.idx ∧
      (m.getDynamicResource name c).2.resourceMap = m.resourceMap ∧
      (m.getDynamicResource name c).2.resources.length = m.resources.length := by
  unfold DynamicResourceManager.getDynamicResource
  split
  · exact ⟨rfl, rfl, rfl⟩
  · split
    · exact ⟨rfl, rfl, rfl⟩
    · exact ⟨rfl, rfl, List.length_set⟩

/-- **What a call can do to the registry**: it changes no map, or it puts a resource into the
buffers. -/
theorem step_cases (r : Registry) (e : ResourceEvent) :
    ((r.step e).log = r.log ∧ (r.step e).manager.idx = r.manager.idx ∧
      (r.step e).manager.resourceMap = r.manager.resourceMap ∧
      (r.step e).manager.resources.length = r.manager.resources.length) ∨
    ∃ name dynRes, (r.step e).log = r.log ++ [(name, r.manager.resources.length)] ∧
      (r.step e).manager = r.manager.registered name dynRes := by
  cases e with
  | add c =>
    rcases addDynamicResource_cases r.manager c with ⟨hret, hsame⟩ | ⟨dynRes, hadd⟩
    · refine Or.inl ?_
      simp only [Registry.step, if_neg hret, hsame, and_self]
    · refine Or.inr ⟨c.name, dynRes, ?_⟩
      simp only [Registry.step, hadd, if_true, and_self]
  | get name c => exact Or.inl ⟨rfl, getDynamicResource_maps r.manager name c⟩

theorem agrees_step {r : Registry} (h : Agrees r) (e : ResourceEvent) : Agrees (r.step e) := by
  rcases step_cases r e with ⟨hlog, hidx, hmap, hlen⟩ | ⟨name, dynRes, hlog, hmanager⟩
  · have hactive : (r.step e).activeMap = r.activeMap := by
      rw [Registry.activeMap, hmap, hidx]
      rfl
    have hother : (r.step e).otherMap = r.otherMap := by
      rw [Registry.otherMap, hmap, hidx]
      rfl
    exact ⟨by rw [hactive, hlog]; exact h.active, by rw [hother, hlog]; exact h.other,
      by rw [hlog]; exact h.pointers, by rw [hlen, hlog]; exact h.count⟩
  · have hactive : (r.step e).activeMap
        = copyMissing r.activeMap (r.otherMap.insert name r.manager.resources.length) := by
      rw [Registry.activeMap, hmanager]
      exact Function.update_self ..
    have hother : (r.step e).otherMap = r.activeMap := by
      rw [Registry.otherMap, hmanager]
      show Function.update r.manager.resourceMap (!r.manager.idx) _ (!!r.manager.idx) = _
      rw [Bool.not_not, Function.update_of_ne (Bool.not_ne_self _).symm]
      rfl
    refine ⟨fun k => ?_, fun k => ?_, ?_, ?_⟩
    · rw [hactive, hlog, buffersAfter_concat, copyMissing, getElem?_foldl_missing,
        Std.TreeMap.getElem?_insert, h.active, h.other]
      show _ = if k = name then _ else _
      by_cases hk : k = name
      · rw [if_pos hk, if_pos (compare_eq_iff_eq.mpr hk.symm)]
        rfl
      · rw [if_neg hk, if_neg fun hc => hk (compare_eq_iff_eq.mp hc).symm]
    · rw [hother, hlog, buffersAfter_concat, h.active]
      rfl
    · rw [hlog, List.map_append, h.pointers, List.length_append, List.map_singleton, h.count,
        List.length_singleton, List.range_succ]
    · rw [hmanager, hlog, List.length_append, ← h.count]
      exact List.length_append

theorem registryAfter_concat (events : List ResourceEvent) (e : ResourceEvent) :
    registryAfter (events ++ [e]) = (registryAfter events).step e := by
  rw [registryAfter, List.foldl_append]
  rfl

theorem agrees_run (events : List ResourceEvent) : Agrees (registryAfter events) := by
  induction events using List.reverseRecOn with
  | nil => exact ⟨fun _ => rfl, fun _ => rfl, rfl, rfl⟩
  | append_singleton events e ih =>
    rw [registryAfter_concat]
    exact agrees_step ih e

/-! ### Histories and their adds -/

theorem log_step (r : Registry) (e : ResourceEvent) :
    (r.step e).log = r.log ∨ ∃ x, (r.step e).log = r.log ++ [x] := by
  rcases step_cases r e with ⟨hlog, -⟩ | ⟨name, dynRes, hlog, -⟩
  · exact Or.inl hlog
  · exact Or.inr ⟨_, hlog⟩

theorem prefix_log_iff (events : List ResourceEvent) (q : List (String × Nat)) :
    q <+: (registryAfter events).log ↔ ∃ pre, pre <+: events ∧ (registryAfter pre).log = q := by
  induction events using List.reverseRecOn with
  | nil =>
    constructor
    · intro hq
      exact ⟨[], List.prefix_rfl, (List.prefix_nil.mp hq).symm⟩
    · rintro ⟨pre, hpre, rfl⟩
      rw [List.prefix_nil.mp hpre]
  | append_singleton events e ih =>
    have hstep : (registryAfter (events ++ [e])).log = (registryAfter events).log ∨
        ∃ x, (registryAfter (events ++ [e])).log = (registryAfter events).log ++ [x] := by
      rw [registryAfter_concat]
      exact log_step _ e
    have hsame : q <+: (registryAfter (events ++ [e])).log ↔
        q <+: (registryAfter events).log ∨ q = (registryAfter (events ++ [e])).log := by
      rcases hstep with hlog | ⟨x, hlog⟩
      · rw [hlog]
        exact ⟨Or.inl, fun h => h.elim id fun heq => heq ▸ List.prefix_rfl⟩
      · rw [hlog, List.prefix_concat_iff, or_comm]
    rw [hsame, ih]
    constructor
    · rintro (⟨pre, hpre, hlog⟩ | heq)
      · exact ⟨pre, hpre.trans (List.prefix_append events [e]), hlog⟩
      · exact ⟨events ++ [e], List.prefix_rfl, heq.symm⟩
    · rintro ⟨pre, hpre, hlog⟩
      rcases List.prefix_concat_iff.mp hpre with rfl | hpre
      · exact Or.inr hlog.symm
      · exact Or.inl ⟨pre, hpre, hlog⟩

theorem right_iff {r : Registry} (h : Agrees r) :
    r.Right ↔ ∀ k, (buffersAfter r.log).active k = latest r.log k := by
  constructor
  · intro hright k
    cases hlatest : latest r.log k with
    | some p => rw [← h.active, hright k p hlatest]
    | none =>
      rw [← Option.not_isSome_iff_eq_none, (active_isSome_iff r.log k).1, ← latest_isSome_iff,
        hlatest]
      exact Bool.false_ne_true
  · intro hcurrent name p hlatest
    rw [h.active, hcurrent, hlatest]

theorem right_iff_current (events : List ResourceEvent) :
    (∀ pre, pre <+: events → (registryAfter pre).Right) ↔ Current (registryAfter events).log := by
  constructor
  · intro hright q hq
    obtain ⟨pre, hpre, rfl⟩ := (prefix_log_iff events q).mp hq
    exact (right_iff (agrees_run pre)).mp (hright pre hpre)
  · intro hcurrent pre hpre
    exact (right_iff (agrees_run pre)).mpr
      (hcurrent _ ((prefix_log_iff events _).mpr ⟨pre, hpre, rfl⟩))

theorem latest_ne {r : Registry} (h : Agrees r) {pre post : List (String × Nat)}
    {d : String × Nat} (hlog : r.log = pre ++ d :: post) (k : String) :
    latest pre k ≠ some d.2 := by
  intro hlatest
  obtain ⟨e, he, hsnd⟩ := Option.map_eq_some_iff.mp hlatest
  have hmem : e ∈ pre := List.mem_reverse.mp (List.mem_of_find?_eq_some he)
  have hnodup : (r.log.map Prod.snd).Nodup := by
    rw [h.pointers]
    exact List.nodup_range
  rw [hlog, List.map_append, List.map_cons] at hnodup
  refine (List.nodup_append.mp hnodup).2.2 e.2 (List.mem_map_of_mem hmem) d.2
    List.mem_cons_self hsnd

/-- **When the registry never goes back.**  Every name that was added is there after every call.
It is bound to the resource of its latest add after every call if and only if no add of a name
that was there already is followed by an add of another name. -/
theorem never_back_iff (events : List ResourceEvent) :
    (∀ pre, pre <+: events → ∀ name ∈ (registryAfter pre).log.map Prod.fst,
      name ∈ (registryAfter pre).activeMap) ∧
    ((∀ pre, pre <+: events → (registryAfter pre).Right) ↔
      ∀ (before : List (String × Nat)) (d e : String × Nat) (after : List (String × Nat)),
        (registryAfter events).log = before ++ d :: e :: after →
          d.1 ∈ before.map Prod.fst → e.1 = d.1) := by
  refine ⟨fun pre _ name hname => ?_, ?_⟩
  · rw [Std.TreeMap.mem_iff_isSome_getElem?, (agrees_run pre).active]
    exact (active_isSome_iff _ name).1.mpr hname
  · rw [right_iff_current, current_iff]
    refine forall_congr' fun before => forall_congr' fun d => forall_congr' fun e =>
      forall_congr' fun after => forall_congr' fun hlog => ?_
    have hne := latest_ne (agrees_run events) hlog d.1
    rw [← latest_isSome_iff]
    cases hold : latest before d.1 with
    | none => exact ⟨fun _ h => (nomatch h), fun _ => Or.inr (Or.inl rfl)⟩
    | some p =>
      rw [hold] at hne
      refine ⟨fun h _ => h.resolve_right ?_, fun h => Or.inl (h rfl)⟩
      rintro (hnone | hsame)
      · cases hnone
      · exact hne hsame

def addOf (name value : String) : ResourceEvent :=
  let content : Content := (∅ : Content).insert "msg" value
  .add { name := name, flushInterval := 2, now := 0, first := some content,
         second := some content, wrapper := ⟨0, 0, none⟩ }

/-- The name `a` is added twice, and then `b`.  All three calls return `true`, and `a` is back at
its first resource. -/
theorem registry_goes_back :
    let r := registryAfter [addOf "a" "old", addOf "a" "new", addOf "b" "other"]
    r.log = [("a", 0), ("a", 1), ("b", 2)] ∧ r.activeMap["a"]? = some 0 ∧ ¬ r.Right ∧
      ((r.manager.getDynamicResource "a" ⟨0, 0, none⟩).1.map fun c => c.toList)
        = some [("msg", "old")] := by
  have hlog : (registryAfter [addOf "a" "old", addOf "a" "new", addOf "b" "other"]).log
      = [("a", 0), ("a", 1), ("b", 2)] := by decide +kernel
  have hactive : (registryAfter
      [addOf "a" "old", addOf "a" "new", addOf "b" "other"]).activeMap["a"]? = some 0 := by
    decide +kernel
  refine ⟨hlog, hactive, fun hright => ?_, by decide +kernel⟩
  have hwrong := hright "a" 1 (by rw [hlog]; decide)
  rw [hactive] at hwrong
  exact absurd hwrong (by decide)

end SimSearch.Clients
