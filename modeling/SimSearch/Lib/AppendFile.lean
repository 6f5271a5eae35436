import SimSearch.Lib.Bytes

/-!
# Files that are written at their end

A file is the list of its bytes.  `writeAt` is a write at an offset and `readAt` a read
there.  A write at the end appends (`writeAt_length`), and what was read before it is
read after it (`readAt_append`).

* `entriesFrom off docs`: documents that are added one after the other from the offset `off`
  on, each with its key and the place of its bytes.
* `readLast_entries`: **the place that the last entry of a key names holds the bytes that
  were added last for the key.**
* `foldl_records`: a loop over the records of a file of records of one size, read by their
  position, is a loop over what was written.
* `foldRecords_append_record` and `foldRecords_append_tail`: the same for a file that grows by
  a record, and for one that ends within a record; `foldRecords_append_shifted` is what is read
  when the file then grows.
-/

namespace SimSearch.Lib

/-! ### Reads and writes at an offset -/

section

variable {β : Type}

/-- The file after a write at an offset; a gap before it is filled, and to write nothing
does not extend the file. -/
def writeAt (fill : β) (file : List β) (off : Nat) (bs : List β) : List β :=
  if bs = [] then file
  else file.take off ++ List.replicate (off - file.length) fill ++ bs ++ file.drop (off + bs.length)

def readAt (file : List β) (off len : Nat) : List β := (file.drop off).take len

theorem writeAt_length (fill : β) (file bs : List β) :
    writeAt fill file file.length bs = file ++ bs := by
  unfold writeAt
  by_cases h : bs = []
  · rw [if_pos h, h, List.append_nil]
  · rw [if_neg h, List.take_length, Nat.sub_self, List.replicate_zero, List.append_nil,
      List.drop_eq_nil_of_le (Nat.le_add_right _ _), List.append_nil]

/-- A write that starts in the file keeps what is before it, and reaches at most to its own
end. -/
theorem take_writeAt (fill : β) {file : List β} {off : Nat} (h : off ≤ file.length)
    (bs : List β) : (writeAt fill file off bs).take off = file.take off := by
  unfold writeAt
  by_cases hbs : bs = []
  · rw [if_pos hbs]
  · rw [if_neg hbs, Nat.sub_eq_zero_of_le h, List.replicate_zero, List.append_nil,
      List.append_assoc]
    exact List.take_left' (by rw [List.length_take, Nat.min_eq_left h])

theorem length_writeAt (fill : β) {file : List β} {off : Nat} (h : off ≤ file.length)
    (bs : List β) :
    (writeAt fill file off bs).length = max file.length (off + bs.length) := by
  unfold writeAt
  by_cases hbs : bs = []
  · rw [if_pos hbs, hbs, List.length_nil]
    omega
  · rw [if_neg hbs, List.length_append, List.length_append, List.length_append, List.length_take,
      List.length_replicate, List.length_drop]
    omega

theorem writeAt_of_length_le (fill : β) {file bs : List β} {off : Nat} (h : off ≤ file.length)
    (hend : file.length ≤ off + bs.length) : writeAt fill file off bs = file.take off ++ bs := by
  unfold writeAt
  by_cases hbs : bs = []
  · rw [if_pos hbs, hbs, List.append_nil, List.take_of_length_le]
    simpa [hbs] using hend
  · rw [if_neg hbs, Nat.sub_eq_zero_of_le h, List.replicate_zero, List.append_nil,
      List.drop_eq_nil_of_le hend, List.append_nil]

/-- A write within the file changes the bytes of its place and no others. -/
theorem getElem?_writeAt (fill : β) {file bs : List β} {off : Nat}
    (h : off + bs.length ≤ file.length) (j : Nat) :
    (writeAt fill file off bs)[j]?
      = if off ≤ j ∧ j < off + bs.length then bs[j - off]? else file[j]? := by
  unfold writeAt
  by_cases hbs : bs = []
  · rw [if_pos hbs, if_neg (by rw [hbs, List.length_nil]; omega)]
  · have htake : (file.take off).length = off := List.length_take_of_le (by omega)
    rw [if_neg hbs, Nat.sub_eq_zero_of_le (by omega), List.replicate_zero, List.append_nil,
      List.getElem?_append, List.length_append, htake]
    by_cases hlt : j < off + bs.length
    · rw [if_pos hlt, List.getElem?_append, htake]
      by_cases hj : off ≤ j
      · rw [if_neg (by omega), if_pos ⟨hj, hlt⟩]
      · rw [if_pos (by omega), if_neg (by omega), List.getElem?_take_of_lt (by omega)]
    · rw [if_neg hlt, if_neg (by omega), List.getElem?_drop]
      congr 1
      omega

theorem readAt_add (file : List β) (off a b : Nat) :
    readAt file off (a + b) = readAt file off a ++ readAt file (off + a) b := by
  unfold readAt
  rw [List.take_add, List.drop_drop]

theorem length_readAt {file : List β} {off len : Nat} (h : off + len ≤ file.length) :
    (readAt file off len).length = len := by
  rw [readAt, List.length_take, List.length_drop]
  omega

theorem getElem?_readAt {file : List β} {off len j : Nat} (h : j < len) :
    (readAt file off len)[j]? = file[off + j]? := by
  rw [readAt, List.getElem?_take_of_lt h, List.getElem?_drop]

theorem readAt_congr {file file' : List β} {off len n : Nat} (h : off + len ≤ n)
    (hfile : file.take n = file'.take n) : readAt file off len = readAt file' off len := by
  have hpart : ∀ f : List β, readAt f off len = readAt (f.take n) off len := by
    intro f
    unfold readAt
    rw [List.drop_take, List.take_take, Nat.min_eq_left (by omega)]
  rw [hpart file, hpart file', hfile]

theorem readAt_writeAt (fill : β) {file : List β} {off : Nat} (h : off ≤ file.length)
    (bs : List β) : readAt (writeAt fill file off bs) off bs.length = bs := by
  unfold readAt writeAt
  by_cases hbs : bs = []
  · rw [hbs, List.length_nil, List.take_zero]
  · have htake : (file.take off).length = off := List.length_take_of_le h
    rw [if_neg hbs, Nat.sub_eq_zero_of_le h, List.replicate_zero, List.append_nil,
      List.append_assoc, List.drop_left' htake, List.take_left]

theorem readAt_append {file : List β} {off len : Nat} (h : off + len ≤ file.length)
    (bs : List β) : readAt (file ++ bs) off len = readAt file off len := by
  have hoff : off ≤ file.length := by omega
  have hlen : len ≤ (file.drop off).length := by
    rw [List.length_drop]
    omega
  unfold readAt
  rw [List.drop_append_of_le_length hoff, List.take_append_of_le_length hlen]

theorem readAt_length_append (file bs rest : List β) :
    readAt (file ++ (bs ++ rest)) file.length bs.length = bs := by
  unfold readAt
  rw [List.drop_left, List.take_left]

end

/-! ### Documents one after the other -/

section

variable {κ β : Type}

/-- Where the bytes of a document are. -/
structure Entry (κ : Type) where
  key : κ
  off : Nat
  len : Nat

/-- The entries of documents that were added one after the other from an offset on. -/
def entriesFrom : Nat → List (κ × List β) → List (Entry κ)
  | _, [] => []
  | off, d :: docs => ⟨d.1, off, d.2.length⟩ :: entriesFrom (off + d.2.length) docs

def contents (docs : List (κ × List β)) : List β := docs.flatMap Prod.snd

theorem contents_concat (docs : List (κ × List β)) (d : κ × List β) :
    contents (docs ++ [d]) = contents docs ++ d.2 := by
  rw [contents, List.flatMap_append, List.flatMap_singleton]
  rfl

theorem entriesFrom_concat (d : κ × List β) : ∀ (docs : List (κ × List β)) (off : Nat),
    entriesFrom off (docs ++ [d])
      = entriesFrom off docs ++ [⟨d.1, off + (contents docs).length, d.2.length⟩] := by
  intro docs
  induction docs with
  | nil => intro off; rfl
  | cons a docs ih =>
    intro off
    have hoff : off + a.2.length + (contents docs).length
        = off + (contents (a :: docs)).length := by
      rw [contents, contents, List.flatMap_cons, List.length_append]
      omega
    rw [List.cons_append, entriesFrom, ih, hoff]
    rfl

theorem length_entriesFrom : ∀ (docs : List (κ × List β)) (off : Nat),
    (entriesFrom off docs).length = docs.length := by
  intro docs
  induction docs with
  | nil => intro off; rfl
  | cons a docs ih => intro off; rw [entriesFrom, List.length_cons, ih, List.length_cons]

/-- The bytes that were added last for a key, none if it was never added. -/
def lastAdded [DecidableEq κ] (docs : List (κ × List β)) (k : κ) : List β :=
  ((docs.reverse.find? fun d => d.1 = k).map Prod.snd).getD []

theorem lastAdded_concat [DecidableEq κ] (docs : List (κ × List β)) (d : κ × List β) (k : κ) :
    lastAdded (docs ++ [d]) k = if d.1 = k then d.2 else lastAdded docs k := by
  unfold lastAdded
  rw [List.reverse_append, List.reverse_singleton, List.singleton_append]
  by_cases h : d.1 = k
  · rw [if_pos h, List.find?_cons_of_pos (by simpa using h)]
    rfl
  · rw [if_neg h, List.find?_cons_of_neg (by simpa using h)]

def lastEntry [DecidableEq κ] (es : List (Entry κ)) (k : κ) : Option (Entry κ) :=
  es.reverse.find? fun e => e.key = k

theorem lastEntry_concat [DecidableEq κ] (es : List (Entry κ)) (e : Entry κ) (k : κ) :
    lastEntry (es ++ [e]) k = if e.key = k then some e else lastEntry es k := by
  unfold lastEntry
  rw [List.reverse_append, List.reverse_singleton, List.singleton_append]
  by_cases h : e.key = k
  · rw [if_pos h, List.find?_cons_of_pos (by simpa using h)]
  · rw [if_neg h, List.find?_cons_of_neg (by simpa using h)]

/-- What a reader gets for a key: the bytes at the place that the last entry names. -/
def readLast [DecidableEq κ] (file : List β) (es : List (Entry κ)) (k : κ) : List β :=
  ((lastEntry es k).map fun e => readAt file e.off e.len).getD []

/-- **The last entry of a key is in the file, and leads to what was added last.** -/
theorem readLast_entries [DecidableEq κ] (docs : List (κ × List β)) (k : κ) :
    (∀ e, lastEntry (entriesFrom 0 docs) k = some e → e.off + e.len ≤ (contents docs).length) ∧
      readLast (contents docs) (entriesFrom 0 docs) k = lastAdded docs k := by
  induction docs using List.reverseRecOn with
  | nil => exact ⟨fun e he => (nomatch he), rfl⟩
  | append_singleton docs d ih =>
    obtain ⟨hin, hread⟩ := ih
    unfold readLast at hread ⊢
    rw [entriesFrom_concat, contents_concat, lastEntry_concat, lastAdded_concat, Nat.zero_add]
    by_cases hk : d.1 = k
    · -- the new document is the last one
      simp only [if_pos hk]
      refine ⟨fun e he => ?_, ?_⟩
      · rw [Option.some.injEq] at he
        subst he
        rw [List.length_append]
      · have hnew := readAt_length_append (contents docs) d.2 []
        rw [List.append_nil] at hnew
        exact hnew
    · -- an older one lies before the new bytes
      simp only [if_neg hk]
      refine ⟨fun e he => ?_, ?_⟩
      · have hle := hin e he
        rw [List.length_append]
        omega
      · rw [← hread]
        cases he : lastEntry (entriesFrom 0 docs) k with
        | none => rfl
        | some e =>
          rw [Option.map_some, Option.map_some, readAt_append (hin e he)]

theorem off_add_len_le : ∀ (docs : List (κ × List β)) (off : Nat), ∀ e ∈ entriesFrom off docs,
    e.off + e.len ≤ off + (contents docs).length := by
  intro docs
  induction docs with
  | nil => intro off e he; cases he
  | cons d docs ih =>
    intro off e he
    have hlen : (contents (d :: docs)).length = d.2.length + (contents docs).length := by
      rw [contents, List.flatMap_cons, List.length_append]
      rfl
    rw [entriesFrom] at he
    rcases List.mem_cons.mp he with rfl | he
    · show off + d.2.length ≤ _
      omega
    · have hrest := ih _ e he
      omega

theorem len_of_mem_entriesFrom : ∀ (docs : List (κ × List β)) (off : Nat) {e : Entry κ},
    e ∈ entriesFrom off docs → ∃ d ∈ docs, e.len = d.2.length := by
  intro docs
  induction docs with
  | nil => intro off e he; cases he
  | cons d docs ih =>
    intro off e he
    rw [entriesFrom] at he
    rcases List.mem_cons.mp he with rfl | he
    · exact ⟨d, List.mem_cons_self, rfl⟩
    · obtain ⟨d', hd', hlen⟩ := ih _ he
      exact ⟨d', List.mem_cons_of_mem _ hd', hlen⟩

end

/-! ### Records of one size -/

section

variable {α γ β : Type} {size : Nat} {enc : α → List β}

theorem length_records (hsize : ∀ a, (enc a).length = size) (l : List α) :
    (l.flatMap enc).length = l.length * size := by
  induction l with
  | nil => simp
  | cons a l ih =>
    rw [List.flatMap_cons, List.length_append, hsize, ih, List.length_cons, Nat.succ_mul]
    omega

/-- The loop over the positions of a file of records; what is left over at its end is no
record. -/
def foldRecords (size : Nat) (f : γ → List β → γ) (start : γ) (file : List β) : γ :=
  (List.range (file.length / size)).foldl (fun m i => f m (readAt file (i * size) size)) start

/-- The records of a file are read the same when something comes after them. -/
theorem foldl_positions_append {size : Nat} (f : γ → List β → γ) (start : γ) {file : List β}
    (hwhole : size ∣ file.length) (more : List β) :
    (List.range (file.length / size)).foldl
        (fun m i => f m (readAt (file ++ more) (i * size) size)) start
      = foldRecords size f start file := by
  unfold foldRecords
  refine List.foldl_ext _ _ _ fun m i hi => congrArg (f m) (readAt_append ?_ more)
  have hlast : (i + 1) * size ≤ file.length / size * size :=
    Nat.mul_le_mul_right size (List.mem_range.mp hi)
  rw [Nat.div_mul_cancel hwhole, Nat.succ_mul] at hlast
  exact hlast

theorem foldRecords_append_tail {size : Nat} (f : γ → List β → γ) (start : γ) {file tail : List β}
    (hwhole : size ∣ file.length) (htail : tail.length < size) :
    foldRecords size f start (file ++ tail) = foldRecords size f start file := by
  obtain ⟨n, hn⟩ := hwhole
  have hcount : (file ++ tail).length / size = file.length / size := by
    rw [List.length_append, hn, Nat.mul_add_div (by omega), Nat.div_eq_of_lt htail,
      Nat.mul_div_cancel_left _ (by omega)]
    rfl
  rw [← foldl_positions_append f start ⟨n, hn⟩ tail, foldRecords, hcount]

theorem foldRecords_append_record {size : Nat} (f : γ → List β → γ) (start : γ)
    {file record : List β} (hwhole : size ∣ file.length) (hrecord : record.length = size)
    (hpos : 0 < size) :
    foldRecords size f start (file ++ record) = f (foldRecords size f start file) record := by
  have hcount : (file ++ record).length / size = file.length / size + 1 := by
    rw [List.length_append, hrecord, Nat.add_div_right _ hpos]
  have hread : readAt (file ++ record) (file.length / size * size) size = record := by
    have hself := readAt_length_append file record []
    rw [List.append_nil, hrecord] at hself
    rw [Nat.div_mul_cancel hwhole]
    exact hself
  rw [← foldl_positions_append f start hwhole record, foldRecords, hcount, List.range_succ,
    List.foldl_append, List.foldl_cons, List.foldl_nil, hread]

/-- After whole records, the next record is whatever bytes come next. -/
theorem foldRecords_append_shifted {size : Nat} (f : γ → List β → γ) (start : γ)
    {file rest : List β} (hwhole : size ∣ file.length) (hle : size ≤ rest.length)
    (hlt : rest.length < size + size) :
    foldRecords size f start (file ++ rest)
      = f (foldRecords size f start file) (rest.take size) := by
  have hnext : (rest.take size).length = size := List.length_take_of_le hle
  have hwhole' : size ∣ (file ++ rest.take size).length := by
    rw [List.length_append, hnext]
    exact (Nat.dvd_add_right hwhole).mpr (Nat.dvd_refl _)
  have htail : (rest.drop size).length < size := by
    rw [List.length_drop]
    omega
  have hsplit : file ++ rest = file ++ rest.take size ++ rest.drop size := by
    rw [List.append_assoc, List.take_append_drop]
  rw [hsplit, foldRecords_append_tail f start hwhole' htail,
    foldRecords_append_record f start hwhole hnext (by omega)]

/-- **A loop over the positions of a file of records is a loop over the records.** -/
theorem foldl_records (hsize : ∀ a, (enc a).length = size) (hpos : 0 < size)
    (f : γ → List β → γ) (start : γ) (l : List α) :
    (List.range ((l.flatMap enc).length / size)).foldl
        (fun m i => f m (readAt (l.flatMap enc) (i * size) size)) start
      = l.foldl (fun m a => f m (enc a)) start := by
  show foldRecords size f start (l.flatMap enc) = _
  induction l using List.reverseRecOn with
  | nil => simp [foldRecords]
  | append_singleton l a ih =>
    have hwhole : size ∣ (l.flatMap enc).length := by
      rw [length_records hsize]
      exact Nat.dvd_mul_left _ _
    rw [List.flatMap_append, List.flatMap_singleton, List.foldl_append, List.foldl_cons,
      List.foldl_nil, foldRecords_append_record f start hwhole (hsize a) hpos, ih]

end

theorem getElem?_foldl_insert_or {α κ δ : Type} [Ord κ] [Std.TransOrd κ] (key : α → κ)
    (val : α → δ) (start : Std.TreeMap κ δ) (k : κ) (l : List α) :
    (l.foldl (fun m a => m.insert (key a) (val a)) start)[k]?
      = (l.foldl (fun m a => m.insert (key a) (val a)) (∅ : Std.TreeMap κ δ))[k]?.or start[k]? := by
  induction l using List.reverseRecOn with
  | nil => simp
  | append_singleton l a ih =>
    simp only [List.foldl_append, List.foldl_cons, List.foldl_nil, Std.TreeMap.getElem?_insert]
    by_cases hk : compare (key a) k = .eq
    · rw [if_pos hk, if_pos hk]
      rfl
    · rw [if_neg hk, if_neg hk, ih]

end SimSearch.Lib
