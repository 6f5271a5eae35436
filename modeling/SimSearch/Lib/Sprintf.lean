import Mathlib

/-!
# Sprintf

`fmt.Sprintf` of Go for arguments that are slices of strings.  A format that is put together
from text of a user may hold any verb, so all of them are here: flags, width, precision and
the index of an argument, and the texts that a format gets that does not fit its arguments.
The strings are taken to need no escape when they are quoted, and the address that `%p` prints
is left out.
-/

namespace SimSearch.Lib.Sprintf

/-- What stands between the `%` and the verb. -/
structure Spec where
  sharp : Bool := false
  zero : Bool := false
  minus : Bool := false
  space : Bool := false
  wid : Option Nat := none
  prec : Option Nat := none

/-! ### Printing -/

/-- Zeros go to the left only. -/
def pad (sp : Spec) (s : List Char) : List Char :=
  let missing := sp.wid.getD 0 - s.length
  if sp.minus then s ++ List.replicate missing ' '
  else List.replicate missing (if sp.zero then '0' else ' ') ++ s

def truncate {α : Type} (sp : Spec) (s : List α) : List α :=
  match sp.prec with
  | none => s
  | some n => s.take n

def fmtS (sp : Spec) (s : List Char) : List Char := pad sp (truncate sp s)

def fmtQ (sp : Spec) (s : List Char) : List Char :=
  let quote := Char.ofNat (if sp.sharp then 96 else 34)
  pad sp (quote :: truncate sp s ++ [quote])

def hexDigit (upper : Bool) (n : Nat) : Char :=
  if n < 10 then Char.ofNat (48 + n) else Char.ofNat ((if upper then 55 else 87) + n)

def fmtSx (sp : Spec) (upper : Bool) (s : List Char) : List Char :=
  let bytes := (truncate sp (s.flatMap String.utf8EncodeChar)).map fun b =>
    [hexDigit upper (b.toNat / 16), hexDigit upper (b.toNat % 16)]
  let lead := if sp.sharp then ['0', if upper then 'X' else 'x'] else []
  if bytes = [] then pad sp []
  else if sp.space then pad sp ([' '].intercalate (bytes.map fun b => lead ++ b))
  else pad sp (lead ++ bytes.flatten)

/-- A string of a slice; `goSyntax` is the flag `#` of `%v`. -/
def printString (sp : Spec) (goSyntax : Bool) (verb : Char) (s : List Char) : List Char :=
  let value := if goSyntax then fmtQ { sp with sharp := false } s else fmtS sp s
  match verb with
  | 'v' => value
  | 's' => fmtS sp s
  | 'q' => fmtQ sp s
  | 'x' => fmtSx sp false s
  | 'X' => fmtSx sp true s
  | _ => "%!".toList ++ verb :: "(string=".toList ++ value ++ [')']

def printArg (sp : Spec) (verb : Char) (arg : List String) : List Char :=
  let goSyntax := sp.sharp && (verb = 'v' || verb = 'w')
  let items := arg.map fun s => printString sp goSyntax verb s.toList
  if verb = 'T' then fmtS sp "[]string".toList
  else if verb = 'p' then []
  else if goSyntax then "[]string\x7b".toList ++ ", ".toList.intercalate items ++ ['\x7d']
  else '[' :: [' '].intercalate items ++ [']']

def printExtra (args : List (List String)) (argNum : Nat) (reordered : Bool) : List Char :=
  if reordered || args.length ≤ argNum then []
  else "%!(EXTRA ".toList ++ ", ".toList.intercalate ((args.drop argNum).map fun arg =>
    "[]string=".toList ++ printArg {} 'v' arg) ++ [')']

/-! ### Reading the format -/

structure Scan where
  rest : List Char
  argNum : Nat
  reordered : Bool
  spec : Spec := {}
  afterIndex : Bool := false
  goodArgNum : Bool := true
  out : List Char := []

def scanFlags : Spec → List Char → Spec × List Char
  | sp, '#' :: cs => scanFlags { sp with sharp := true } cs
  | sp, '0' :: cs => scanFlags { sp with zero := true } cs
  | sp, '+' :: cs => scanFlags sp cs
  | sp, '-' :: cs => scanFlags { sp with minus := true } cs
  | sp, ' ' :: cs => scanFlags { sp with space := true } cs
  | sp, cs => (sp, cs)

/-- A number of more than seven digits ends the format. -/
def parsenum : Option Nat → List Char → Option Nat × List Char
  | acc, [] => (acc, [])
  | acc, c :: cs =>
    if c.isDigit then
      if acc.getD 0 > 10 ^ 6 then (none, [])
      else parsenum (some (acc.getD 0 * 10 + (c.toNat - '0'.toNat))) cs
    else (acc, c :: cs)

/-- An index as in `%[2]v`. -/
def argNumber (numArgs : Nat) (s : Scan) : Scan :=
  match s.rest with
  | '[' :: cs =>
    let inner := cs.takeWhile (· ≠ ']')
    let after := cs.drop (inner.length + 1)
    if cs.length < 2 ∨ ']' ∉ cs then
      { s with rest := cs, reordered := true, goodArgNum := false, afterIndex := false }
    else
      match parsenum none inner with
      | (some n, []) =>
        if 1 ≤ n ∧ n ≤ numArgs then
          { s with rest := after, reordered := true, argNum := n - 1, afterIndex := true }
        else { s with rest := after, reordered := true, goodArgNum := false, afterIndex := true }
      | _ => { s with rest := after, reordered := true, goodArgNum := false, afterIndex := false }
  | _ => { s with afterIndex := false }

/-- A `*` takes an argument, which is no number. -/
def starArg (numArgs : Nat) (bad : String) (s : Scan) (cs : List Char) : Scan :=
  { s with rest := cs, argNum := if s.argNum < numArgs then s.argNum + 1 else s.argNum,
           afterIndex := false, out := s.out ++ bad.toList }

def scanWidth (numArgs : Nat) (s : Scan) : Scan :=
  match s.rest with
  | '*' :: cs => starArg numArgs "%!(BADWIDTH)" s cs
  | cs =>
    let (wid, cs) := parsenum none cs
    { s with rest := cs, spec := { s.spec with wid := wid },
             goodArgNum := s.goodArgNum && !(s.afterIndex && wid.isSome) }

def scanPrec (numArgs : Nat) (s : Scan) : Scan :=
  match s.rest with
  | '.' :: cs =>
    let s := argNumber numArgs { s with rest := cs, goodArgNum := s.goodArgNum && !s.afterIndex }
    match s.rest with
    | '*' :: cs => starArg numArgs "%!(BADPREC)" s cs
    | cs =>
      let (prec, cs) := parsenum none cs
      { s with rest := cs, spec := { s.spec with prec := some (prec.getD 0) } }
  | _ => s

def scan (numArgs argNum : Nat) (reordered : Bool) (cs : List Char) : Scan :=
  let (spec, cs) := scanFlags {} cs
  let s := argNumber numArgs { rest := cs, argNum := argNum, reordered := reordered, spec := spec }
  let s := scanPrec numArgs (scanWidth numArgs s)
  if s.afterIndex then s else argNumber numArgs s

/-! ### Sprintf -/

/-- The loop over the format; each turn takes at least one character. -/
def sprintfFrom (args : List (List String)) : Nat → Nat → Bool → List Char → List Char
  | 0, _, _, _ => []
  | _ + 1, argNum, reordered, [] => printExtra args argNum reordered
  | fuel + 1, argNum, reordered, c :: cs =>
    if c ≠ '%' then c :: sprintfFrom args fuel argNum reordered cs
    else
      let s := scan args.length argNum reordered cs
      match s.rest with
      | [] => s.out ++ "%!(NOVERB)".toList ++ printExtra args s.argNum s.reordered
      | verb :: rest =>
        if verb = '%' then s.out ++ '%' :: sprintfFrom args fuel s.argNum s.reordered rest
        else if s.goodArgNum = false then
          s.out ++ "%!".toList ++ verb :: "(BADINDEX)".toList
            ++ sprintfFrom args fuel s.argNum s.reordered rest
        else
          match args[s.argNum]? with
          | none =>
            s.out ++ "%!".toList ++ verb :: "(MISSING)".toList
              ++ sprintfFrom args fuel s.argNum s.reordered rest
          | some arg =>
            s.out ++ printArg s.spec verb arg
              ++ sprintfFrom args fuel (s.argNum + 1) s.reordered rest

def sprintf (format : String) (args : List (List String)) : String :=
  String.ofList (sprintfFrom args (format.toList.length + 1) 0 false format.toList)

theorem sprintfFrom_append (args : List (List String)) (cs : List Char) :
    ∀ pre : List Char, '%' ∉ pre →
      sprintfFrom args ((pre ++ cs).length + 1) 0 false (pre ++ cs)
        = pre ++ sprintfFrom args (cs.length + 1) 0 false cs := by
  intro pre
  induction pre with
  | nil => intro _; rfl
  | cons c pre ih =>
    intro h
    have hc : c ≠ '%' := fun heq => h (heq ▸ List.mem_cons_self)
    have hpre := ih fun hmem => h (List.mem_cons_of_mem _ hmem)
    rw [List.cons_append, List.length_cons, sprintfFrom, if_pos hc, hpre, List.cons_append]

theorem sprintf_append {pre : String} (h : '%' ∉ pre.toList) (format : String)
    (args : List (List String)) : sprintf (pre ++ format) args = pre ++ sprintf format args := by
  unfold sprintf
  rw [String.toList_append, sprintfFrom_append args format.toList pre.toList h,
    String.ofList_append, String.ofList_toList]

example : sprintf "it is %v or %v. " [["int", "long"], ["vector"]]
    = "it is [int long] or [vector]. " := by decide

example : sprintf "type:%d is %v" [["FLAT"]]
    = "type:[%!d(string=FLAT)] is %!v(MISSING)" := by decide

theorem sprintf_ne_empty {pre : String} (h : '%' ∉ pre.toList) (hpre : pre ≠ "") (format : String)
    (args : List (List String)) : sprintf (pre ++ format) args ≠ "" := by
  rw [sprintf_append h]
  intro heq
  have hnil := congrArg String.toList heq
  rw [String.toList_append] at hnil
  exact hpre (String.toList_inj.mp (List.append_eq_nil_iff.mp hnil).1)

end SimSearch.Lib.Sprintf
