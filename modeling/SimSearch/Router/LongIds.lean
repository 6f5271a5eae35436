import SimSearch.Router.Routing

/-!
# Ids that are numbers

A space with `_id` type `long` stores a document under the number that its id stands for,
while `CheckPbIds` and the router compare and hash the id as it is written, and `std::stoll`
reads one number from many texts.

* `checkPbIdsFrom_cons`: what one turn of the loop of `CheckPbIds` has to meet.
* `duplicate_reported`: an id that occurs again is reported.
* `pbDocToGammaDoc_sameValue`: two spellings of a number give the same document of the engine.
-/

namespace SimSearch.Router

open SimSearch.Lib

section

variable {space : Space}

theorem ne_empty_of_strToInt64 {str : String} {v : Int} (h : strToInt64 str = .ok v) :
    str ≠ "" := by
  rintro rfl
  cases h

theorem checkPbIdsFrom_new {key : String} {v : Int} (hkey : strToInt64 key = .ok v)
    {st : List String} (hnew : key ∉ st) (keys : List String) :
    checkPbIdsFrom space st (key :: keys) = checkPbIdsFrom space (key :: st) keys := by
  rw [checkPbIdsFrom, if_neg (ne_empty_of_strToInt64 hkey)]
  simp only [hkey, if_neg hnew, ite_self]

theorem checkPbIdsFrom_seen {key : String} {v : Int} (hkey : strToInt64 key = .ok v)
    {st : List String} (hseen : key ∈ st) (keys : List String) :
    checkPbIdsFrom space st (key :: keys) = "Duplicate document key: " ++ key := by
  rw [checkPbIdsFrom, if_neg (ne_empty_of_strToInt64 hkey)]
  simp only [hkey, if_pos hseen, ite_self]

theorem checkPbIdsFrom_cons (hlong : space.idType = longSdtype) {st : List String} {key : String}
    {keys : List String} (h : checkPbIdsFrom space st (key :: keys) = "") :
    (∃ v, strToInt64 key = .ok v) ∧ key ∉ st ∧ checkPbIdsFrom space (key :: st) keys = "" := by
  cases hkey : strToInt64 key with
  | error status =>
    -- the empty text and a text that is no number are refused
    rw [checkPbIdsFrom] at h
    simp only [if_pos hlong, hkey] at h
    split_ifs at h
    · exact absurd h (by decide)
    · exact absurd (congrArg String.length h) (by simp)
  | ok v =>
    by_cases hseen : key ∈ st
    · rw [checkPbIdsFrom_seen hkey hseen] at h
      exact absurd (congrArg String.length h) (by simp)
    · rw [checkPbIdsFrom_new hkey hseen] at h
      exact ⟨⟨v, rfl⟩, hseen, h⟩

/-- **An id that occurs again is reported**, when nothing before it is refused. -/
theorem duplicate_reported (hlong : space.idType = longSdtype) {key : String} {v : Int}
    (hkey : strToInt64 key = .ok v) (post : List String) :
    ∀ (ids st : List String), key ∈ ids ∨ key ∈ st → checkPbIdsFrom space st (ids ++ post) = "" →
      checkPbIdsFrom space st (ids ++ key :: post) = "Duplicate document key: " ++ key := by
  intro ids
  induction ids with
  | nil =>
    intro st hmem _
    rcases hmem with hmem | hmem
    · cases hmem
    · exact checkPbIdsFrom_seen hkey hmem post
  | cons x ids ih =>
    intro st hmem h
    obtain ⟨⟨w, hx⟩, hnew, hrest⟩ := checkPbIdsFrom_cons hlong h
    rw [List.cons_append, checkPbIdsFrom_new hx hnew]
    refine ih (x :: st) ?_ hrest
    rcases hmem with hmem | hmem
    · rcases List.mem_cons.mp hmem with rfl | hmem
      · exact Or.inr List.mem_cons_self
      · exact Or.inl hmem
    · exact Or.inr (List.mem_cons_of_mem _ hmem)

/-- Two different texts are no duplicates. -/
theorem checkPbIds_pair {a b : String} {v w : Int} (ha : strToInt64 a = .ok v)
    (hb : strToInt64 b = .ok w) (hne : a ≠ b) : checkPbIds [a, b] space = "" := by
  have hnew : b ∉ [a] := fun h => hne (List.mem_singleton.mp h).symm
  rw [checkPbIds, checkPbIdsFrom_new ha List.not_mem_nil, checkPbIdsFrom_new hb hnew]
  rfl

/-- Two spellings of one number give the same document of the engine, key and all. -/
theorem pbDocToGammaDoc_sameValue {a b : String} {v : Int} (ha : strToInt64 a = .ok v)
    (hb : strToInt64 b = .ok v) (hlong : space.idType = longSdtype) (doc : Document)
    (out : GammaDoc) :
    pbDocToGammaDoc { doc with idOpt := some a } space out
      = pbDocToGammaDoc { doc with idOpt := some b } space out := by
  have hid : ∀ c : String, ({ doc with idOpt := some c } : Document).id = c := fun _ => rfl
  simp only [pbDocToGammaDoc, if_pos hlong, hid, ha, hb]

end

/-- The ids `a` and `b` count as one: they are sent to one partition, and in every request
whose other ids are accepted the second of them is reported as a duplicate. -/
def CountAsOne (hasher : String → UInt64) (partitionNum : Int32) (space : Space) (a b : String) :
    Prop :=
  getPartitionId hasher a partitionNum = getPartitionId hasher b partitionNum ∧
    ∀ pre mid post, checkPbIds (pre ++ a :: mid ++ post) space = "" →
      checkPbIds (pre ++ a :: mid ++ b :: post) space = "Duplicate document key: " ++ b

/-- **Two spellings of one number count as one exactly when they are the same text**, whatever
the hash function and the number of partitions; the engine stores both under one key. -/
theorem long_ids_by_value_iff (hasher : String → UInt64) (partitionNum : Int32) (space : Space)
    (hlong : space.idType = longSdtype) (a b : String) (v : Int) (ha : strToInt64 a = .ok v)
    (hb : strToInt64 b = .ok v) :
    (CountAsOne hasher partitionNum space a b ↔ a = b) ∧
      ∀ (doc : Document) (out : GammaDoc),
        pbDocToGammaDoc { doc with idOpt := some a } space out
          = pbDocToGammaDoc { doc with idOpt := some b } space out := by
  refine ⟨⟨?_, ?_⟩, pbDocToGammaDoc_sameValue ha hb hlong⟩
  · rintro ⟨-, hreport⟩
    by_contra hne
    have hone : checkPbIds [a] space = "" := by
      rw [checkPbIds, checkPbIdsFrom_new ha List.not_mem_nil]
      rfl
    have hdup := hreport [] [] [] hone
    rw [List.nil_append, List.cons_append, List.nil_append, checkPbIds_pair ha hb hne] at hdup
    exact absurd (congrArg String.length hdup.symm) (by simp)
  · rintro rfl
    refine ⟨rfl, fun pre mid post h => ?_⟩
    exact duplicate_reported hlong ha post (pre ++ a :: mid) [] (Or.inl (by simp)) h

def longIdSpace : Space := { idTypeOpt := some longSdtype, partitionNum := 3 }

theorem long_ids_by_value_seven :
    strToInt64 "7" = .ok 7 ∧ CountAsOne libstdcxxHash 3 longIdSpace "7" "7" :=
  ⟨by decide, (long_ids_by_value_iff libstdcxxHash 3 longIdSpace (by decide) "7" "7" 7 (by decide)
    (by decide)).1.mpr rfl⟩

/-- `7` and `07` are one number, are sent to two partitions and pass in one request. -/
theorem long_ids_by_value_fails :
    longIdSpace.idType = longSdtype ∧ strToInt64 "7" = .ok 7 ∧ strToInt64 "07" = .ok 7 ∧
      getPartitionId libstdcxxHash "7" 3 = 1 ∧ getPartitionId libstdcxxHash "07" 3 = 2 ∧
      checkPbIds ["7", "07"] longIdSpace = "" := by
  refine ⟨by decide, by decide, by decide, by decide +kernel, by decide +kernel, by decide⟩

end SimSearch.Router
