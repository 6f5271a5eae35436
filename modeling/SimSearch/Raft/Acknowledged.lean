import SimSearch.Raft.Snapshot
import SimSearch.Lib.Runs

/-!
# Acknowledged writes

`Block::on_apply` calls three functions that can refuse a document: `CheckPbDoc`,
`PbDocToGammaDoc` and the engine.  Only the code of the engine decides about the answer:
the result of `CheckPbDoc` is stored in `cmsg` and the test reads `msg`, and the result of
`PbDocToGammaDoc` is dropped.

`acknowledged_iff` says what an answer of success means in the code.  `acknowledged_intact`
is the contract, for entries whose document is not refused by the first two when the
engine takes what was built.
-/

namespace SimSearch.Raft

open SimSearch.Lib

variable {codec : RequestCodec} {env : Env} {space : Space}

/-! ### One turn -/

def entryPbDoc (env : Env) (e : Seen codec) : Option Document :=
  (entryData codec e.data? e.entry.log).bind env.parse

/-- All three functions take the document of the entry. -/
def Passes (env : Env) (space : Space) (s : Replica) (e : Seen codec) : Prop :=
  ∃ doc, entryPbDoc env e = some doc ∧ checkPbDoc doc = "" ∧ (pbDocToGammaDoc doc space {}).1 = "" ∧
    env.addCode s.store (pbDocToGammaDoc doc space {}).2 = 0

/-- The response that a turn of `on_apply` writes, if a closure waits for one. -/
def turnResponse (env : Env) (space : Space) (s : Replica) (e : Seen codec) : Option BlockResponse :=
  if s.status ≠ .running then none
  else if e.closure then some (applyData env space s e.entry.data).2
  else none

def Acknowledged (env : Env) (space : Space) (s : Replica) (e : Seen codec) : Prop :=
  (turnResponse env space s e).map BlockResponse.success = some (some true)

instance (s : Replica) (e : Seen codec) : Decidable (Acknowledged env space s e) :=
  inferInstanceAs (Decidable (_ = _))

/-- **The code of the engine alone decides about the answer.** -/
theorem acknowledged_iff {s : Replica} (hs : s.status = .running) {e : Seen codec}
    (hc : e.closure = true) : Acknowledged env space s e ↔
      ∃ doc, entryPbDoc env e = some doc ∧
        env.addCode s.store (pbDocToGammaDoc doc space {}).2 = 0 := by
  have hdata : entryData codec e.data? e.entry.log = some e.entry.data := by
    rw [Seen.data?, if_pos hc]
    rfl
  unfold Acknowledged turnResponse entryPbDoc
  rw [if_neg (not_not_intro hs), if_pos hc, hdata, Option.bind_some, Option.map_some]
  unfold applyData
  cases hparse : env.parse e.entry.data with
  | none =>
    constructor
    · intro h
      cases h
    · rintro ⟨doc, hdoc, -⟩
      cases hdoc
  | some doc =>
    by_cases hcode : env.addCode s.store (pbDocToGammaDoc doc space {}).2 = 0
    · simp only [hcode, ne_eq, not_true_eq_false, if_false]
      exact ⟨fun _ => ⟨doc, rfl, hcode⟩, fun _ => trivial⟩
    · simp only [ne_eq, hcode, not_false_eq_true, if_true]
      constructor
      · intro h
        cases h
      · rintro ⟨doc', hdoc, hzero⟩
        cases hdoc
        exact absurd hzero hcode

/-- A document that the engine takes was refused by neither check. -/
def Vetted (env : Env) (space : Space) (s : Replica) (e : Seen codec) : Prop :=
  ∀ doc ∈ entryPbDoc env e, env.addCode s.store (pbDocToGammaDoc doc space {}).2 = 0 →
    checkPbDoc doc = "" ∧ (pbDocToGammaDoc doc space {}).1 = ""

instance (s : Replica) (e : Seen codec) : Decidable (Vetted env space s e) :=
  inferInstanceAs (Decidable (∀ doc ∈ _, _ → _ ∧ _))

theorem Vetted.passes {s : Replica} {e : Seen codec} (hv : Vetted env space s e)
    (hack : Acknowledged env space s e) : Passes env space s e := by
  have hs : s.status = .running := by
    by_contra hs
    rw [Acknowledged, turnResponse, if_pos hs] at hack
    cases hack
  have hc : e.closure = true := by
    by_contra hc
    rw [Acknowledged, turnResponse, if_neg (not_not_intro hs), if_neg hc] at hack
    cases hack
  obtain ⟨doc, hdoc, hcode⟩ := (acknowledged_iff hs hc).mp hack
  obtain ⟨hcheck, hconv⟩ := hv doc hdoc hcode
  exact ⟨doc, hdoc, hcheck, hconv, hcode⟩

theorem Vetted.store_unchanged {s : Replica} {e : Seen codec} (hv : Vetted env space s e)
    (hfail : ¬ Passes env space s e) :
    (applyEntry codec env space s e.data? e.entry.log).store = s.store := by
  by_cases hs : s.status = .running
  · rcases applyEntry_running env space hs e with ⟨g, hg, hcode, -, -⟩ | ⟨-, -, hstore⟩
    · -- the engine took the document, so it passes
      obtain ⟨doc, hdoc, rfl⟩ := Option.map_eq_some_iff.mp hg
      obtain ⟨hcheck, hconv⟩ := hv doc hdoc hcode
      exact absurd ⟨doc, hdoc, hcheck, hconv, hcode⟩ hfail
    · exact hstore
  · rw [applyEntry, if_pos hs]

/-! ### A sequence of entries -/

/-- **No write is acknowledged that was not stored intact.**  In a sequence of entries that
are all vetted, an entry that is answered with success passes all checks, and one that does
not pass leaves the engine as it was. -/
theorem acknowledged_intact (codec : RequestCodec) (env : Env) (space : Space) (s : Replica)
    (entries : List (Seen codec))
    (h : RunOk (fun s e => applyEntry codec env space s e.data? e.entry.log) (Vetted env space) s
      entries)
    (pre : List (Seen codec)) (e : Seen codec) (post : List (Seen codec))
    (hsplit : entries = pre ++ e :: post) :
    (Acknowledged env space (onApply codec env space s pre) e →
      Passes env space (onApply codec env space s pre) e) ∧
    (¬ Passes env space (onApply codec env space s pre) e →
      (onApply codec env space s (pre ++ [e])).store = (onApply codec env space s pre).store) := by
  have hv : Vetted env space (onApply codec env space s pre) e := by
    rw [hsplit] at h
    exact h.at_split
  refine ⟨hv.passes, fun hfail => ?_⟩
  unfold onApply
  rw [List.foldl_append]
  exact hv.store_unchanged hfail

/-- The wire format of the document with the id `1` and the int field `n`, which is `7`. -/
def docFullBytes : Bytes := [0x0a, 0x01, 0x31, 0x12, 0x05, 0x0a, 0x01, 0x6e, 0x10, 0x07]

def fullEntry : Committed wireCodec :=
  ⟨routedReq, docFullBytes, [0, 0, 0, 9, 0x0a, 2, 0x64, 0x62, 0x12, 1, 0x73, 0x20, 1, 0x0a, 1, 0x31,
    0x12, 0x05, 0x0a, 0x01, 0x6e, 0x10, 0x07], by decide⟩

def fullEnv : Env :=
  { sampleEnv with
    parse := fun data => if data = docFullBytes then
        some { idOpt := some "1", ints := (∅ : PbMap Int32).insert "n" 7 }
      else sampleEnv.parse data }

/-- A document with a field is stored, and one without `_id` is refused. -/
theorem acknowledged_intact_full :
    RunOk (fun s e => applyEntry wireCodec fullEnv { idTypeOpt := some longSdtype } s e.data?
        e.entry.log) (Vetted fullEnv { idTypeOpt := some longSdtype }) {}
        [⟨fullEntry, true⟩, ⟨emptyEntry, true⟩] ∧
      Acknowledged fullEnv { idTypeOpt := some longSdtype } {} (⟨fullEntry, true⟩ : Seen wireCodec) ∧
      Passes fullEnv { idTypeOpt := some longSdtype } {} (⟨fullEntry, true⟩ : Seen wireCodec) := by
  have hrun : RunOk (fun s e => applyEntry wireCodec fullEnv { idTypeOpt := some longSdtype } s
      e.data? e.entry.log) (Vetted fullEnv { idTypeOpt := some longSdtype }) {}
      [⟨fullEntry, true⟩, ⟨emptyEntry, true⟩] := by decide +kernel
  have hack : Acknowledged fullEnv { idTypeOpt := some longSdtype } {}
      (⟨fullEntry, true⟩ : Seen wireCodec) := by decide +kernel
  exact ⟨hrun, hack, (acknowledged_intact wireCodec fullEnv { idTypeOpt := some longSdtype } {} _
    hrun [] ⟨fullEntry, true⟩ [⟨emptyEntry, true⟩] rfl).1 hack⟩

/-- A document without fields, which `CheckPbDoc` refuses, is stored and acknowledged. -/
theorem empty_document_acknowledged :
    let e : Seen wireCodec := ⟨routedEntry, true⟩
    let space : Space := { idTypeOpt := some longSdtype }
    (entryPbDoc sampleEnv e).map checkPbDoc = some "Document is empty" ∧
      Acknowledged sampleEnv space {} e ∧ ¬ Passes sampleEnv space {} e ∧
      ((onApply wireCodec sampleEnv space {} [e]).store.contains "1") = true := by
  refine ⟨by decide, by decide +kernel, ?_, by decide +kernel⟩
  rintro ⟨doc, hdoc, hcheck, -⟩
  have hempty : (entryPbDoc sampleEnv (⟨routedEntry, true⟩ : Seen wireCodec)).map checkPbDoc
      = some "Document is empty" := by decide
  rw [hdoc, Option.map_some, hcheck] at hempty
  exact absurd hempty (by decide)

end SimSearch.Raft
