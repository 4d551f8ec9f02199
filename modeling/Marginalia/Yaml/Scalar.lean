import Marginalia.Yaml.Cursor
import Marginalia.Html.Reference

/-
The texts of scalars: plain ones, those in quotes, and blocks of lines.
-/
namespace Marginalia
namespace Yaml
namespace Scalar

open Scan

/-- What a line break and the empty lines after it stand for when lines are
folded: a space, unless there are empty lines. -/
def folded (first : Char) (more : Text) : Text :=
  if first ≠ '\n' then first :: more
  else if more.isEmpty then [' ']
  else more

/-! ## Plain scalars -/

/-- The run of a plain scalar up to a blank, a value mark, or, inside brackets,
a mark of the collection. -/
def plainRun (inFlow : Bool) : Text → Text
  | [] => []
  | c :: rest =>
    let endsKey := endsMark rest.head? ||
      (inFlow && (rest.head?.any fun d => ",[]\x7b\x7d".toList.contains d))
    if isBlank c || isBreak c then []
    else if c = ':' && endsKey then []
    else if inFlow && ",?[]\x7b\x7d".toList.contains c then []
    else c :: plainRun inFlow rest

/-- Empty lines inside a plain scalar; none where a document ends. -/
def plainBreaks : Nat → Scan (Option Text)
  | 0 => pure (some [])
  | fuel + 1 => do
    match ← peek? 0 with
    | some ' ' =>
      skip 1
      plainBreaks fuel
    | _ =>
      match ← lineBreak with
      | none => return some []
      | some b =>
        if (← get).isAtDivision then return none
        return (← plainBreaks fuel).map (b :: ·)

/-- What separates two runs of a plain scalar, and whether a line ended. -/
def plainSpace : Scan (Text × Bool) := do
  let spaces ← run (· = ' ')
  match ← lineBreak with
  | none => return (spaces, false)
  | some b =>
    if (← get).isAtDivision then return ([], true)
    match ← plainBreaks (← bound) with
    | none => return ([], true)
    | some more => return (folded b more, true)

/-- A plain scalar from a run on, `space` standing before it, and whether a line
ended behind it. -/
def plainFrom (inFlow : Bool) (indent : Int) : Nat → Text → Bool → Scan (Text × Bool)
  | 0, _, ended => pure ([], ended)
  | fuel + 1, space, ended => do
    let word := plainRun inFlow (← get).rest
    if word.isEmpty || (← peek? 0) = some '#' then return ([], ended)
    skip word.length
    let (after, broke) ← plainSpace
    let c ← get
    if after.isEmpty || c.peek? 0 = some '#' || (!inFlow && (c.column : Int) < indent) then
      return (space ++ word, broke)
    let (t, b) ← plainFrom inFlow indent fuel after broke
    return (space ++ word ++ t, b)

def plain (inFlow : Bool) (indent : Int) : Scan (Text × Bool) := do
  plainFrom inFlow indent (← bound) [] false

/-! ## Quoted scalars -/

/-- Empty lines inside quotes, with the blanks before what follows. -/
def quotedBreaks : Nat → Scan Text
  | 0 => pure []
  | fuel + 1 => do
    check !(← get).isAtDivision
    let _ ← run isBlank
    match ← lineBreak with
    | none => return []
    | some b => return b :: (← quotedBreaks fuel)

def quotedSpace : Scan Text := do
  let blanks ← run isBlank
  check (← peek? 0).isSome
  match ← lineBreak with
  | none => return blanks
  | some b => return folded b (← quotedBreaks (← bound))

/-- What the escapes of one letter stand for. -/
def shortEscapes : List (Char × Nat) :=
  [('0', 0x0), ('a', 0x7), ('b', 0x8), ('t', 0x9), ('\t', 0x9), ('n', 0xA), ('v', 0xB),
    ('f', 0xC), ('r', 0xD), ('e', 0x1B), (' ', 0x20), ('"', 0x22), ('\\', 0x5C), ('/', 0x2F),
    ('N', 0x85), ('_', 0xA0), ('L', 0x2028), ('P', 0x2029)]

/-- How many digits the numeric escapes have. -/
def escapeWidths : List (Char × Nat) := [('x', 2), ('u', 4), ('U', 8)]

def codePoint (n : Nat) : Except Problem Char :=
  if 0x7FFFFFFF < n then .error (.fault .wideCodePoint)
  else if 0x10FFFF < n then .error (.fault .badCodePoint)
  else if 0xD800 ≤ n && n ≤ 0xDFFF then .ok '\ufffd'
  else .ok (Char.ofNat n)

/-- What an escape after its backslash stands for. -/
def escaped : Scan Text := do
  match ← peek? 0 with
  | none => fail
  | some c =>
    match shortEscapes.lookup c, escapeWidths.lookup c with
    | some n, _ =>
      skip 1
      return [Char.ofNat n]
    | none, some width =>
      skip 1
      let ds := (← get).rest.take width
      check (ds.length = width && ds.all fun d => (Html.hexValue? d).isSome)
      skip width
      return [← codePoint (Html.hexNumber ds)]
    | none, none =>
      match ← lineBreak with
      | some _ => quotedBreaks (← bound)
      | none => fail

/-- The rest of a quoted scalar, up to its closing quote. -/
def quotedFrom (quote : Char) : Nat → Scan Text
  | 0 => fail
  | fuel + 1 => do
    match ← peek? 0 with
    | none => fail
    | some c =>
      if c = quote then
        if quote = '\'' && (← peek? 1) = some '\'' then
          skip 2
          return '\'' :: (← quotedFrom quote fuel)
        skip 1
        return []
      let t ←
        if c = '\\' && quote = '"' then
          skip 1
          escaped
        else if isBlank c || isBreak c then quotedSpace
        else
          skip 1
          pure [c]
      return t ++ (← quotedFrom quote fuel)

def quoted (quote : Char) : Scan Text := do
  skip 1
  quotedFrom quote (← bound)

/-! ## Blocks of lines -/

/-- What becomes of the line breaks at the end of a block. -/
inductive Chomping where
  | clip
  | strip
  | keep
deriving DecidableEq, Repr

def chomping : Scan (Option Chomping) := do
  match ← peek? 0 with
  | some '+' =>
    skip 1
    return some .keep
  | some '-' =>
    skip 1
    return some .strip
  | _ => return none

/-- The number of columns that a block states for its indentation. -/
def increment : Scan (Option Nat) := do
  match ← peek? 0 with
  | none => return none
  | some c =>
    if '0' ≤ c && c ≤ '9' then
      check (c ≠ '0')
      skip 1
      return some (c.toNat - 48)
    return none

/-- The head of a block: chomping and increment in either order. -/
def blockHead : Scan (Chomping × Option Nat) := do
  match ← chomping with
  | some k =>
    let n ← increment
    check (endsWord (← peek? 0))
    return (k, n)
  | none =>
    let n ← increment
    let k ← if n.isSome then chomping else pure none
    check (endsWord (← peek? 0))
    return (k.getD .clip, n)

/-- Spaces up to a column. -/
def skipIndent (indent : Nat) : Scan Unit := do
  let c ← get
  skip (min (indent - c.column) (c.rest.takeWhile (· = ' ')).length)

/-- Empty lines of a block, and the indentation of what follows. -/
def blockBreaks (indent : Nat) : Nat → Scan Text
  | 0 => pure []
  | fuel + 1 => do
    skipIndent indent
    match ← lineBreak with
    | none => return []
    | some b => return b :: (← blockBreaks indent fuel)

/-- Empty lines at the start of a block, and the widest indentation met up to
its first other line. -/
def blockStart : Nat → Nat → Scan (Text × Nat)
  | 0, widest => pure ([], widest)
  | fuel + 1, widest => do
    match ← peek? 0 with
    | some ' ' =>
      skip 1
      blockStart fuel (max widest (← get).column)
    | _ =>
      match ← lineBreak with
      | none => return ([], widest)
      | some b =>
        let (bs, n) ← blockStart fuel widest
        return (b :: bs, n)

/-- Whether a line of a block of the given indentation starts here. -/
def isLine (indent : Nat) (c : Cursor) : Bool := c.column = indent && !c.rest.isEmpty

/-- The lines of a block from here on: their text, the break behind the last
one, and the empty lines after it. -/
def blockLines (fold : Bool) (indent : Nat) : Nat → Text → Scan (Text × Text × Text)
  | 0, breaks => pure ([], [], breaks)
  | fuel + 1, breaks => do
    if !isLine indent (← get) then return ([], [], breaks)
    let flush := !((← peek? 0).any isBlank)
    let line ← run fun c => !isBreak c
    let lineEnd := (← lineBreak).toList
    let more ← blockBreaks indent (← bound)
    if !isLine indent (← get) then return (breaks ++ line, lineEnd, more)
    let joint :=
      if fold && lineEnd = ['\n'] && flush && !((← peek? 0).any isBlank) then
        if more.isEmpty then [' '] else []
      else lineEnd
    let (t, e, bs) ← blockLines fold indent fuel more
    return (breaks ++ line ++ joint ++ t, e, bs)

/-- A block of lines inside a collection of the given indentation. -/
def block (fold : Bool) (outer : Int) : Scan Text := do
  skip 1
  let (chomp, increment) ← blockHead
  emptyLineEnd
  let least := max 1 (outer + 1).toNat
  let (breaks, indent) ←
    match increment with
    | none => do
      let (bs, widest) ← blockStart (← bound) 0
      pure (bs, max least widest)
    | some n => do
      let indent := least + n - 1
      pure (← blockBreaks indent (← bound), indent)
  let (t, lineEnd, more) ← blockLines fold indent (← bound) breaks
  return t ++ (if chomp = .strip then [] else lineEnd) ++ (if chomp = .keep then more else [])

end Scalar
end Yaml
end Marginalia
