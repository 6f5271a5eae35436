import Mathlib

/-!
# JSON as an encoder writes it

`Json` is a tree of null, integers, strings, arrays and objects; `render` writes it
without blanks, with the escapes that Go's `encoding/json` uses, and `parse` reads it
back.  `parse_render` is the round trip, for any text that may follow.

`struct` makes the object of a struct from its fields in their order, a field that is
left out being `none`; `field_struct` says that a field is found again under its name, as
long as no name is used twice.
-/

namespace SimSearch.Lib

inductive Json
  | null
  | int (n : Int)
  | str (s : String)
  | arr (items : List Json)
  | obj (fields : List (String × Json))

namespace Json

/-! ### Strings -/

def hexDigit (n : Nat) : Char := "0123456789abcdef".toList.getD n '0'

def ofHexDigit (c : Char) : Option Nat :=
  if '0' ≤ c ∧ c ≤ '9' then some (c.toNat - 48)
  else if 'a' ≤ c ∧ c ≤ 'f' then some (c.toNat - 87)
  else if 'A' ≤ c ∧ c ≤ 'F' then some (c.toNat - 55)
  else none

def hex4 (n : Nat) : List Char :=
  [hexDigit (n / 4096), hexDigit (n / 256 % 16), hexDigit (n / 16 % 16), hexDigit (n % 16)]

def shortEscape (c : Char) : Option Char :=
  if c = '"' then some '"'
  else if c = '\\' then some '\\'
  else if c = '\x08' then some 'b'
  else if c = '\x0c' then some 'f'
  else if c = '\n' then some 'n'
  else if c = '\r' then some 'r'
  else if c = '\t' then some 't'
  else none

def unescape (e : Char) : Option Char :=
  if e = '"' then some '"'
  else if e = '\\' then some '\\'
  else if e = '/' then some '/'
  else if e = 'b' then some '\x08'
  else if e = 'f' then some '\x0c'
  else if e = 'n' then some '\n'
  else if e = 'r' then some '\r'
  else if e = 't' then some '\t'
  else none

/-- The other characters that are escaped: control characters, those that matter to
HTML, and the two line separators. -/
def hexEscaped (c : Char) : Bool :=
  c.toNat < 32 || c == '<' || c == '>' || c == '&' || c.toNat == 0x2028 || c.toNat == 0x2029

def escaped (c : Char) : List Char :=
  match shortEscape c with
  | some e => ['\\', e]
  | none => if hexEscaped c then '\\' :: 'u' :: hex4 c.toNat else [c]

def quote (s : String) : List Char := '"' :: s.toList.flatMap escaped ++ ['"']

def unhex4 (a b c d : Char) : Option Char := do
  let a ← ofHexDigit a
  let b ← ofHexDigit b
  let c ← ofHexDigit c
  let d ← ofHexDigit d
  return Char.ofNat (4096 * a + 256 * b + 16 * c + d)

def addChar (c : Char) (p : List Char × List Char) : List Char × List Char := (c :: p.1, p.2)

/-- The rest of a string, after its opening quote. -/
def parseStr : List Char → Option (List Char × List Char)
  | '"' :: r => some ([], r)
  | '\\' :: 'u' :: a :: b :: c :: d :: r =>
    (unhex4 a b c d).bind fun x => (parseStr r).map (addChar x)
  | '\\' :: e :: r => (unescape e).bind fun x => (parseStr r).map (addChar x)
  | c :: r => (parseStr r).map (addChar c)
  | [] => none

theorem ofHexDigit_hexDigit {n : Nat} (h : n < 16) : ofHexDigit (hexDigit n) = some n := by
  have hall : ∀ n < 16, ofHexDigit (hexDigit n) = some n := by decide
  exact hall n h

theorem unescape_of_shortEscape {c e : Char} (h : shortEscape c = some e) :
    unescape e = some c ∧ e ≠ 'u' := by
  unfold shortEscape at h
  split_ifs at h with h₁ h₂ h₃ h₄ h₅ h₆ h₇ <;> cases h <;> subst_vars <;> exact ⟨rfl, by decide⟩

theorem parseStr_escape {e : Char} (he : e ≠ 'u') (r : List Char) :
    parseStr ('\\' :: e :: r) =
      (unescape e).bind fun x => (parseStr r).map (addChar x) := by
  rw [parseStr]
  intro a b c d r' heu
  cases heu
  exact absurd rfl he

theorem parseStr_char {c : Char} (hq : c ≠ '"') (hb : c ≠ '\\') (r : List Char) :
    parseStr (c :: r) = (parseStr r).map (addChar c) := by
  rw [parseStr]
  · exact fun h => hq h
  · intro a b d e r' h
    exact absurd h hb
  · intro e r' h
    exact absurd h hb

theorem unhex4_hex4 {n : Nat} (h : n < 65536) :
    unhex4 (hexDigit (n / 4096)) (hexDigit (n / 256 % 16)) (hexDigit (n / 16 % 16))
      (hexDigit (n % 16)) = some (Char.ofNat n) := by
  unfold unhex4
  rw [ofHexDigit_hexDigit (by omega), ofHexDigit_hexDigit (by omega), ofHexDigit_hexDigit (by omega),
    ofHexDigit_hexDigit (by omega)]
  have hsum : 4096 * (n / 4096) + 256 * (n / 256 % 16) + 16 * (n / 16 % 16) + n % 16 = n := by
    omega
  show some (Char.ofNat _) = _
  rw [hsum]

theorem toNat_lt_of_hexEscaped {c : Char} (h : hexEscaped c = true) : c.toNat < 65536 := by
  unfold hexEscaped at h
  simp only [Bool.or_eq_true, decide_eq_true_eq, beq_iff_eq] at h
  rcases h with ((((h | rfl) | rfl) | rfl) | h) | h
  · omega
  · decide
  · decide
  · decide
  · omega
  · omega

theorem parseStr_escaped (c : Char) (r : List Char) :
    parseStr (escaped c ++ r) = (parseStr r).map (addChar c) := by
  unfold escaped
  cases hshort : shortEscape c with
  | some e =>
    obtain ⟨hun, hu⟩ := unescape_of_shortEscape hshort
    show parseStr ('\\' :: e :: r) = _
    rw [parseStr_escape hu, hun]
    rfl
  | none =>
    by_cases hhex : hexEscaped c = true
    · rw [if_pos hhex]
      show parseStr ('\\' :: 'u' :: _ :: _ :: _ :: _ :: r) = _
      rw [parseStr, unhex4_hex4 (toNat_lt_of_hexEscaped hhex), Char.ofNat_toNat]
      rfl
    · rw [if_neg hhex]
      have hq : c ≠ '"' := by rintro rfl; cases hshort
      have hb : c ≠ '\\' := by rintro rfl; cases hshort
      exact parseStr_char hq hb r

theorem parseStr_quote (cs r : List Char) :
    parseStr (cs.flatMap escaped ++ '"' :: r) = some (cs, r) := by
  induction cs with
  | nil => rfl
  | cons c cs ih =>
    rw [List.flatMap_cons, List.append_assoc, parseStr_escaped, ih]
    rfl

/-! ### Numbers -/

def intChars : Int → List Char
  | .ofNat n => Nat.toDigits 10 n
  | .negSucc n => '-' :: Nat.toDigits 10 (n + 1)

def parseNat (cs : List Char) : Option (Nat × List Char) :=
  let ds := cs.takeWhile Char.isDigit
  if ds = [] then none else some (Nat.ofDigitChars 10 ds 0, cs.dropWhile Char.isDigit)

def parseInt : List Char → Option (Int × List Char)
  | '-' :: r => (parseNat r).map fun p => (-(p.1 : Int), p.2)
  | r => (parseNat r).map fun p => ((p.1 : Int), p.2)

/-- The text that follows a number does not go on with a digit. -/
def NoDigit (r : List Char) : Prop := ∀ c ∈ r.head?, Char.isDigit c = false

theorem parseNat_toDigits (n : Nat) {r : List Char} (hr : NoDigit r) :
    parseNat (Nat.toDigits 10 n ++ r) = some (n, r) := by
  have hdigits : ∀ c ∈ Nat.toDigits 10 n, c.isDigit = true := fun c hc =>
    Nat.isDigit_of_mem_toDigits (by decide) (by decide) hc
  have htake : r.takeWhile Char.isDigit = [] := by
    cases r with
    | nil => rfl
    | cons c r => rw [List.takeWhile_cons, hr c rfl]; rfl
  have hdrop : r.dropWhile Char.isDigit = r := by
    cases r with
    | nil => rfl
    | cons c r => rw [List.dropWhile_cons, hr c rfl]; rfl
  unfold parseNat
  rw [List.takeWhile_append_of_pos hdigits, List.dropWhile_append_of_pos hdigits, htake, hdrop,
    List.append_nil]
  simp only [if_neg Nat.toDigits_ne_nil, Nat.ofDigitChars_ten_toDigits]

theorem toDigits_head (n : Nat) : ∃ c cs, Nat.toDigits 10 n = c :: cs ∧ c.isDigit = true := by
  rcases hd : Nat.toDigits 10 n with _ | ⟨c, cs⟩
  · exact absurd hd Nat.toDigits_ne_nil
  · have hmem : c ∈ Nat.toDigits 10 n := hd ▸ List.mem_cons_self
    exact ⟨c, cs, rfl, Nat.isDigit_of_mem_toDigits (by decide) (by decide) hmem⟩

theorem intChars_head (n : Int) : ∃ c cs, intChars n = c :: cs ∧ (c = '-' ∨ c.isDigit = true) := by
  cases n with
  | ofNat n =>
    obtain ⟨c, cs, hd, hc⟩ := toDigits_head n
    exact ⟨c, cs, hd, Or.inr hc⟩
  | negSucc n => exact ⟨'-', _, rfl, Or.inl rfl⟩

theorem parseInt_intChars (n : Int) {r : List Char} (hr : NoDigit r) :
    parseInt (intChars n ++ r) = some (n, r) := by
  cases n with
  | ofNat n =>
    have hhead : ∀ r', Nat.toDigits 10 n ++ r ≠ '-' :: r' := by
      intro r' h
      obtain ⟨c, cs, hd, hc⟩ := toDigits_head n
      rw [hd] at h
      cases h
      cases hc
    show parseInt (Nat.toDigits 10 n ++ r) = _
    rw [parseInt, parseNat_toDigits n hr]
    · rfl
    · exact fun r' h => hhead r' h
  | negSucc n =>
    show parseInt ('-' :: (Nat.toDigits 10 (n + 1) ++ r)) = _
    rw [parseInt, parseNat_toDigits (n + 1) hr]
    rfl

/-! ### Trees -/

mutual

def render : Json → List Char
  | .null => ['n', 'u', 'l', 'l']
  | .int n => intChars n
  | .str s => quote s
  | .arr [] => ['[', ']']
  | .arr (j :: l) => '[' :: (render j ++ renderItems l)
  | .obj [] => ['{', '}']
  | .obj ((k, j) :: l) => '{' :: (quote k ++ ':' :: (render j ++ renderFields l))

/-- The items after the first, and the bracket that closes the array. -/
def renderItems : List Json → List Char
  | [] => [']']
  | j :: l => ',' :: (render j ++ renderItems l)

def renderFields : List (String × Json) → List Char
  | [] => ['}']
  | (k, j) :: l => ',' :: (quote k ++ ':' :: (render j ++ renderFields l))

end

mutual

def parse : Nat → List Char → Option (Json × List Char)
  | 0, _ => none
  | fuel + 1, cs =>
    match cs with
    | 'n' :: 'u' :: 'l' :: 'l' :: r => some (.null, r)
    | '"' :: r => (parseStr r).map fun p => (.str (String.ofList p.1), p.2)
    | '[' :: ']' :: r => some (.arr [], r)
    | '[' :: r =>
      (parse fuel r).bind fun p => (parseItems fuel p.2).map fun q => (.arr (p.1 :: q.1), q.2)
    | '{' :: '}' :: r => some (.obj [], r)
    | '{' :: r =>
      (parseField fuel r).bind fun p => (parseFields fuel p.2).map fun q => (.obj (p.1 :: q.1), q.2)
    | r => (parseInt r).map fun p => (.int p.1, p.2)

def parseItems : Nat → List Char → Option (List Json × List Char)
  | 0, _ => none
  | fuel + 1, cs =>
    match cs with
    | ']' :: r => some ([], r)
    | ',' :: r => (parse fuel r).bind fun p => (parseItems fuel p.2).map fun q => (p.1 :: q.1, q.2)
    | _ => none

def parseFields : Nat → List Char → Option (List (String × Json) × List Char)
  | 0, _ => none
  | fuel + 1, cs =>
    match cs with
    | '}' :: r => some ([], r)
    | ',' :: r =>
      (parseField fuel r).bind fun p => (parseFields fuel p.2).map fun q => (p.1 :: q.1, q.2)
    | _ => none

def parseField : Nat → List Char → Option ((String × Json) × List Char)
  | 0, _ => none
  | fuel + 1, cs =>
    match cs with
    | '"' :: r => (parseStr r).bind fun k =>
        match k.2 with
        | ':' :: r => (parse fuel r).map fun p => ((String.ofList k.1, p.1), p.2)
        | _ => none
    | _ => none

end

/-! ### Round trip -/

theorem noDigit_cons {c : Char} (h : c.isDigit = false) (r : List Char) : NoDigit (c :: r) := by
  intro d hd
  cases hd
  exact h

theorem noDigit_renderItems (l : List Json) (r : List Char) : NoDigit (renderItems l ++ r) := by
  cases l with
  | nil => exact noDigit_cons (by decide) _
  | cons j l => exact noDigit_cons (by decide) _

theorem noDigit_renderFields (l : List (String × Json)) (r : List Char) :
    NoDigit (renderFields l ++ r) := by
  cases l with
  | nil => exact noDigit_cons (by decide) _
  | cons j l => exact noDigit_cons (by decide) _

mutual

def size : Json → Nat
  | .arr [] | .obj [] => 1
  | .arr (j :: l) => size j + sizeItems l + 1
  | .obj ((_, j) :: l) => size j + sizeFields l + 2
  | _ => 1

def sizeItems : List Json → Nat
  | [] => 1
  | j :: l => size j + sizeItems l + 1

def sizeFields : List (String × Json) → Nat
  | [] => 1
  | (_, j) :: l => size j + sizeFields l + 2

end

theorem render_head (j : Json) : ∃ c cs, render j = c :: cs ∧ c ≠ ']' := by
  cases j with
  | null => exact ⟨'n', _, rfl, by decide⟩
  | str s => exact ⟨'"', _, rfl, by decide⟩
  | arr l => cases l <;> exact ⟨'[', _, rfl, by decide⟩
  | obj l => cases l <;> exact ⟨'{', _, rfl, by decide⟩
  | int n =>
    obtain ⟨c, cs, heq, hc⟩ := intChars_head n
    refine ⟨c, cs, heq, ?_⟩
    rintro rfl
    revert hc
    decide

theorem parse_arr {fuel : Nat} {c : Char} {cs : List Char} (hc : c ≠ ']') :
    parse (fuel + 1) ('[' :: c :: cs) =
      (parse fuel (c :: cs)).bind fun p =>
        (parseItems fuel p.2).map fun q => (.arr (p.1 :: q.1), q.2) := by
  rw [parse]
  intro r h
  cases h
  exact absurd rfl hc

theorem parse_int (fuel : Nat) (n : Int) {r : List Char} (hr : NoDigit r) :
    parse (fuel + 1) (intChars n ++ r) = some (.int n, r) := by
  have hparse := parseInt_intChars n hr
  obtain ⟨c, cs, heq, hc⟩ := intChars_head n
  rw [heq, List.cons_append] at hparse ⊢
  rw [parse, hparse]
  · rfl
  -- no other branch starts like a number
  all_goals
    intro r' h
    rw [(List.cons.inj h).1] at hc
    revert hc
    decide

mutual

/-- **What was rendered is read back**, whatever follows, with enough fuel. -/
theorem parse_render (j : Json) : ∀ (fuel : Nat) (r : List Char), NoDigit r → size j ≤ fuel →
    parse fuel (render j ++ r) = some (j, r) := by
  intro fuel r hr hsize
  match j, fuel with
  | .null, fuel + 1 => rfl
  | .int n, fuel + 1 => exact parse_int fuel n hr
  | .str s, fuel + 1 =>
    show parse (fuel + 1) ('"' :: (s.toList.flatMap escaped ++ ['"'] ++ r)) = _
    rw [List.append_assoc, parse, List.singleton_append, parseStr_quote]
    show some (str (String.ofList s.toList), r) = _
    rw [String.ofList_toList]
  | .arr [], fuel + 1 => rfl
  | .arr (j :: l), fuel + 1 =>
    have hj : size j + sizeItems l + 1 ≤ fuel + 1 := hsize
    obtain ⟨c, cs, heq, hc⟩ := render_head j
    have hitem := parse_render j fuel (renderItems l ++ r) (noDigit_renderItems l r) (by omega)
    show parse (fuel + 1) ('[' :: (render j ++ renderItems l ++ r)) = _
    rw [List.append_assoc]
    rw [heq, List.cons_append] at hitem ⊢
    rw [parse_arr hc, hitem]
    show (parseItems fuel (renderItems l ++ r)).map _ = _
    rw [parseItems_render l fuel r (by omega)]
    rfl
  | .obj [], fuel + 1 => rfl
  | .obj ((k, j) :: l), fuel + 1 =>
    have hj : size j + sizeFields l + 2 ≤ fuel + 1 := hsize
    show (parseField fuel (quote k ++ ':' :: (render j ++ renderFields l) ++ r)).bind _ = _
    rw [parseField_render k j l fuel r (by omega)]
    show (parseFields fuel (renderFields l ++ r)).map _ = _
    rw [parseFields_render l fuel r (by omega)]
    rfl

theorem parseItems_render (l : List Json) : ∀ (fuel : Nat) (r : List Char), sizeItems l ≤ fuel →
    parseItems fuel (renderItems l ++ r) = some (l, r) := by
  intro fuel r hsize
  match l, fuel with
  | [], fuel + 1 => rfl
  | j :: l, fuel + 1 =>
    have hj : size j + sizeItems l + 1 ≤ fuel + 1 := hsize
    show (parse fuel (render j ++ renderItems l ++ r)).bind _ = _
    rw [List.append_assoc,
      parse_render j fuel (renderItems l ++ r) (noDigit_renderItems l r) (by omega)]
    show (parseItems fuel (renderItems l ++ r)).map _ = _
    rw [parseItems_render l fuel r (by omega)]
    rfl

theorem parseFields_render (l : List (String × Json)) : ∀ (fuel : Nat) (r : List Char),
    sizeFields l ≤ fuel → parseFields fuel (renderFields l ++ r) = some (l, r) := by
  intro fuel r hsize
  match l, fuel with
  | [], fuel + 1 => rfl
  | (k, j) :: l, fuel + 1 =>
    have hj : size j + sizeFields l + 2 ≤ fuel + 1 := hsize
    show (parseField fuel (quote k ++ ':' :: (render j ++ renderFields l) ++ r)).bind _ = _
    rw [parseField_render k j l fuel r (by omega)]
    show (parseFields fuel (renderFields l ++ r)).map _ = _
    rw [parseFields_render l fuel r (by omega)]
    rfl

theorem parseField_render (k : String) (j : Json) (l : List (String × Json)) :
    ∀ (fuel : Nat) (r : List Char), size j + 1 ≤ fuel →
      parseField fuel (quote k ++ ':' :: (render j ++ renderFields l) ++ r)
        = some ((k, j), renderFields l ++ r) := by
  intro fuel r hsize
  match fuel with
  | fuel + 1 =>
    have hvalue := parse_render j fuel (renderFields l ++ r) (noDigit_renderFields l r) (by omega)
    have htext : quote k ++ ':' :: (render j ++ renderFields l) ++ r
        = '"' :: (k.toList.flatMap escaped ++ '"' :: ':' :: (render j ++ (renderFields l ++ r))) := by
      simp [quote]
    rw [htext, parseField, parseStr_quote]
    show (parse fuel (render j ++ (renderFields l ++ r))).map _ = _
    rw [hvalue]
    show some ((String.ofList k.toList, j), renderFields l ++ r) = _
    rw [String.ofList_toList]

end

/-! ### Texts and structs -/

def toText (j : Json) : String := String.ofList (render j)

/-- The tree that a text stands for; a text that goes on after it is refused. -/
def ofText (s : String) : Option Json :=
  match parse (s.length + 1) s.toList with
  | some (j, []) => some j
  | _ => none

mutual

theorem size_le_length (j : Json) : size j ≤ (render j).length := by
  match j with
  | .null => decide
  | .int n =>
    obtain ⟨c, cs, heq, -⟩ := intChars_head n
    show 1 ≤ (intChars n).length
    rw [heq, List.length_cons]
    omega
  | .str s =>
    show 1 ≤ (quote s).length
    simp [quote]
  | .arr [] => decide
  | .arr (j :: l) =>
    have hj := size_le_length j
    have hl := sizeItems_le_length l
    show size j + sizeItems l + 1 ≤ ('[' :: (render j ++ renderItems l)).length
    rw [List.length_cons, List.length_append]
    omega
  | .obj [] => decide
  | .obj ((k, j) :: l) =>
    have hj := size_le_length j
    have hl := sizeFields_le_length l
    show size j + sizeFields l + 2 ≤ ('{' :: (quote k ++ ':' :: (render j ++ renderFields l))).length
    rw [List.length_cons, List.length_append, List.length_cons, List.length_append]
    omega

theorem sizeItems_le_length (l : List Json) : sizeItems l ≤ (renderItems l).length := by
  match l with
  | [] => decide
  | j :: l =>
    have hj := size_le_length j
    have hl := sizeItems_le_length l
    show size j + sizeItems l + 1 ≤ (',' :: (render j ++ renderItems l)).length
    rw [List.length_cons, List.length_append]
    omega

theorem sizeFields_le_length (l : List (String × Json)) :
    sizeFields l ≤ (renderFields l).length := by
  match l with
  | [] => decide
  | (k, j) :: l =>
    have hj := size_le_length j
    have hl := sizeFields_le_length l
    show size j + sizeFields l + 2 ≤ (',' :: (quote k ++ ':' :: (render j ++ renderFields l))).length
    rw [List.length_cons, List.length_append, List.length_cons, List.length_append]
    omega

end

theorem ofText_toText (j : Json) : ofText (toText j) = some j := by
  have hlen : size j ≤ (toText j).length + 1 := by
    have hsize := size_le_length j
    rw [toText, String.length_ofList]
    omega
  have hparse := parse_render j ((toText j).length + 1) [] (fun c hc => (nomatch hc)) hlen
  rw [List.append_nil] at hparse
  unfold ofText
  rw [toText, String.toList_ofList, ← toText, hparse]

/-- The fields of a struct in their order; one that is left out is `none`. -/
def struct (fields : List (String × Option Json)) : Json :=
  .obj (fields.filterMap fun e => e.2.map (Prod.mk e.1))

def field (j : Json) (name : String) : Option Json :=
  match j with
  | .obj fields => fields.lookup name
  | _ => none

theorem field_struct {fields : List (String × Option Json)} (h : (fields.map Prod.fst).Nodup)
    (name : String) : (struct fields).field name = (fields.lookup name).join := by
  show List.lookup name (fields.filterMap fun e => e.2.map (Prod.mk e.1)) = _
  induction fields with
  | nil => rfl
  | cons e fields ih =>
    obtain ⟨k, v⟩ := e
    rw [List.map_cons, List.nodup_cons] at h
    have hrest := ih h.2
    rw [List.filterMap_cons, List.lookup_cons]
    by_cases hk : name = k
    · subst hk
      rw [beq_self_eq_true]
      cases v with
      | some v => simp
      | none =>
        have hnone : fields.lookup name = none := by
          rw [List.lookup_eq_none_iff]
          intro e he
          have hne : name ≠ e.1 := fun heq => h.1 (List.mem_map.mpr ⟨e, he, heq.symm⟩)
          simpa using hne
        refine hrest.trans ?_
        rw [hnone]
        rfl
    · have hbeq : (name == k) = false := by simpa using hk
      rw [hbeq]
      cases v with
      | some v =>
        show List.lookup name ((k, v) :: _) = _
        rw [List.lookup_cons, hbeq]
        exact hrest
      | none => exact hrest

end Json

end SimSearch.Lib
