import Marginalia.Yaml.Scalar
import Marginalia.Text.Utf8

/-
The tokens of a text.  Indentation appears as tokens of its own: a collection
opens where a line is indented deeper and closes where one is indented less.
That a scalar was the key of an entry is known only at the mark behind it; the
token for the key is then put in front of the scalar.
-/
namespace Marginalia
namespace Yaml

/-- The handle and the suffix of a written tag; a complete tag has no handle. -/
structure WrittenTag where
  handle : Option Text
  suffix : Text
deriving DecidableEq, Repr

inductive Token where
  | version (major : Nat)
  | handle (name meaning : Text)
  /-- A directive without effect. -/
  | ignored
  | documentStart
  | documentEnd
  | sequenceStart
  | mappingStart
  | blockEnd
  | openBracket
  | closeBracket
  | openBrace
  | closeBrace
  | entry
  | comma
  | key
  | value
  | alias (name : Text)
  | anchor (name : Text)
  | tag (t : WrittenTag)
  | scalar (t : Text) (isPlain : Bool)
deriving DecidableEq, Repr

namespace Token

open Scan

/-! ## Names and tags -/

def isNameChar (c : Char) : Bool :=
  ('0' ≤ c && c ≤ '9') || ('A' ≤ c && c ≤ 'Z') || ('a' ≤ c && c ≤ 'z') || c = '-' || c = '_'

/-- A name of one character or more. -/
def name : Scan Text := do
  let t ← run isNameChar
  check !t.isEmpty
  return t

/-- The name of an anchor or an alias after its mark. -/
def anchorName : Scan Text := do
  skip 1
  let t ← name
  let after ← peek? 0
  check (endsMark after || after.any fun c => "?:,]\x7d%@\x60".toList.contains c)
  return t

def isUriChar (c : Char) : Bool := isNameChar c || ";/?:@&=+$,.!~*'()[]".toList.contains c

/-- A byte written by two hexadecimal digits after a percent sign, if one stands
here. -/
def percentByte? : Scan (Option UInt8) := do
  if (← peek? 0) ≠ some '%' then return none
  let ds := ((← get).rest.drop 1).take 2
  check (ds.length = 2 && ds.all fun d => (Html.hexValue? d).isSome)
  skip 3
  return some (UInt8.ofNat (Html.hexNumber ds))

def percentBytes : Nat → Scan (List UInt8)
  | 0 => pure []
  | fuel + 1 => do
    match ← percentByte? with
    | none => return []
    | some b => return b :: (← percentBytes fuel)

/-- The characters of a tag, escapes decoded. -/
def uriFrom : Nat → Scan Text
  | 0 => pure []
  | fuel + 1 => do
    let t ← run isUriChar
    let bytes ← percentBytes (← bound)
    if bytes.isEmpty then return t
    match Text.decode? bytes with
    | none => fail
    | some u => return t ++ u ++ (← uriFrom fuel)

def uri : Scan Text := do
  let t ← uriFrom (← bound)
  check !t.isEmpty
  return t

/-- A handle: an exclamation mark, or a name between two of them. -/
def tagHandle : Scan Text := do
  check ((← peek? 0) = some '!')
  skip 1
  if (← peek? 0) = some ' ' then return ['!']
  let t ← run isNameChar
  check ((← peek? 0) = some '!')
  skip 1
  return '!' :: t ++ ['!']

def writtenTag : Scan WrittenTag := do
  let first ← peek? 1
  let t ←
    if first = some '<' then do
      skip 2
      let suffix ← uri
      check ((← peek? 0) = some '>')
      skip 1
      pure ⟨none, suffix⟩
    else if endsMark first then do
      skip 1
      pure ⟨none, ['!']⟩
    else do
      let word := ((← get).rest.drop 1).takeWhile fun c => !endsWord (some c)
      let handle ←
        if word.contains '!' then tagHandle
        else do
          skip 1
          pure ['!']
      pure ⟨some handle, ← uri⟩
  check (endsWord (← peek? 0))
  return t

/-! ## Directives -/

def number : Scan Nat := do
  let ds ← run Text.isBasicDigit
  check !ds.isEmpty
  return Text.digitsValue ds

def versionDirective : Scan Token := do
  let _ ← run (· = ' ')
  let major ← number
  check ((← peek? 0) = some '.')
  skip 1
  let _ ← number
  check (endsWord (← peek? 0))
  return .version major

def handleDirective : Scan Token := do
  let _ ← run (· = ' ')
  let name ← tagHandle
  check ((← peek? 0) = some ' ')
  let _ ← run (· = ' ')
  let meaning ← uri
  check (endsWord (← peek? 0))
  return .handle name meaning

def directive : Scan Token := do
  skip 1
  let kind ← name
  check (endsWord (← peek? 0))
  let t ←
    if kind = "YAML".toList then versionDirective
    else if kind = "TAG".toList then handleDirective
    else do
      let _ ← run fun c => !isBreak c
      pure .ignored
  emptyLineEnd
  return t

/-! ## The state of reading -/

/-- A place where the key of an entry may have started. -/
structure KeyPlace where
  /-- How many tokens stood before it. -/
  position : Nat
  /-- Nothing but a key can stand here. -/
  required : Bool
  index : Nat
  line : Nat
  column : Nat

structure Progress where
  here : Cursor
  tokens : Array Token := #[]
  /-- The column of the innermost block collection. -/
  indent : Int := -1
  outerIndents : List Int := []
  /-- How many brackets and braces are open. -/
  depth : Nat := 0
  keyAllowed : Bool := true
  /-- Where a key may have started, for each depth of brackets. -/
  keyPlaces : List (Nat × KeyPlace) := []

abbrev Read (α : Type) := StateT Progress (Except Problem) α

namespace Read

def scan {α : Type} (s : Scan α) : Read α := do
  let (a, c) ← s (← get).here
  modify fun p => { p with here := c }
  return a

def emit (t : Token) : Read Unit := modify fun p => { p with tokens := p.tokens.push t }

def allowKey (b : Bool) : Read Unit := modify fun p => { p with keyAllowed := b }

/-- Drop the place of a key at this depth; a required key must not be dropped. -/
def dropKeyPlace : Read Unit := do
  let p ← get
  if (p.keyPlaces.lookup p.depth).any (·.required) then throw .malformed
  set { p with keyPlaces := p.keyPlaces.filter (·.1 ≠ p.depth) }

/-- A key stands on one line and is not long. -/
def isStale (c : Cursor) (k : KeyPlace) : Bool := k.line ≠ c.line || k.index + 1024 < c.index

def dropStaleKeyPlaces : Read Unit := do
  let p ← get
  if p.keyPlaces.any fun (_, k) => isStale p.here k && k.required then throw .malformed
  set { p with keyPlaces := p.keyPlaces.filter fun (_, k) => !isStale p.here k }

/-- The next token may be a key. -/
def markKeyPlace : Read Unit := do
  if (← get).keyAllowed then
    dropKeyPlace
    modify fun p =>
      let c := p.here
      let required := p.depth = 0 && p.indent = c.column
      { p with keyPlaces := (p.depth, ⟨p.tokens.size, required, c.index, c.line, c.column⟩) ::
          p.keyPlaces }

/-- Close block collections indented deeper than a column. -/
def closeBlocks (column : Int) : Read Unit :=
  modify fun p =>
    if p.depth ≠ 0 then p
    else
      let rec go (indent : Int) (tokens : Array Token) : List Int → Int × List Int × Array Token
        | [] => (indent, [], tokens)
        | outer :: rest =>
          if column < indent then go outer (tokens.push .blockEnd) rest
          else (indent, outer :: rest, tokens)
      let (indent, outers, tokens) := go p.indent p.tokens p.outerIndents
      { p with indent := indent, outerIndents := outers, tokens := tokens }

/-- Open a block collection at a column if it is indented deeper than the last
one; its token goes to `position`. -/
def openBlock (column position : Nat) (t : Token) : Read Unit :=
  modify fun p =>
    if p.indent < (column : Int) then
      { p with
        outerIndents := p.indent :: p.outerIndents
        indent := column
        tokens := p.tokens.insertIdxIfInBounds position t }
    else p

/-- Take one mark as a token. -/
def mark (n : Nat) (t : Token) : Read Unit := do
  scan (Scan.skip n)
  emit t

/-! ## Tokens -/

/-- Past blanks, comments and line ends.  At the start of a line of a block a
key may stand. -/
def toNextToken : Nat → Read Unit
  | 0 => pure ()
  | fuel + 1 => do
    let _ ← scan (Scan.run (· = ' '))
    if (← get).here.peek? 0 = some '#' then
      let _ ← scan (Scan.run fun c => !isBreak c)
    if (← scan Scan.lineBreak).isSome then
      if (← get).depth = 0 then allowKey true
      toNextToken fuel

/-- A directive or a division between documents, which ends every block. -/
def division (s : Scan Token) : Read Unit := do
  closeBlocks (-1)
  dropKeyPlace
  allowKey false
  emit (← scan s)

def openFlow (t : Token) : Read Unit := do
  markKeyPlace
  modify fun p => { p with depth := p.depth + 1 }
  allowKey true
  mark 1 t

def closeFlow (t : Token) : Read Unit := do
  dropKeyPlace
  if (← get).depth = 0 then throw .malformed
  modify fun p => { p with depth := p.depth - 1 }
  allowKey false
  mark 1 t

def separator : Read Unit := do
  allowKey true
  dropKeyPlace
  mark 1 .comma

/-- An indicator that may open a block collection here. -/
def indicator (opens t : Token) (keyAfter : Bool) : Read Unit := do
  let p ← get
  if p.depth = 0 then
    if !p.keyAllowed then throw .malformed
    openBlock p.here.column p.tokens.size opens
  allowKey keyAfter
  dropKeyPlace
  mark 1 t

/-- The mark behind a key: what stood at the place of the key becomes one. -/
def valueMark : Read Unit := do
  let p ← get
  match p.keyPlaces.lookup p.depth with
  | some k =>
    modify fun p =>
      { p with
        keyPlaces := p.keyPlaces.filter (·.1 ≠ p.depth)
        tokens := p.tokens.insertIdxIfInBounds k.position .key }
    if p.depth = 0 then openBlock k.column k.position .mappingStart
    allowKey false
    mark 1 .value
  | none => indicator .mappingStart .value (p.depth = 0)

/-- A token that may be a key. -/
def candidate (s : Scan Token) : Read Unit := do
  markKeyPlace
  allowKey false
  emit (← scan s)

def plainScalar : Read Unit := do
  markKeyPlace
  let p ← get
  let (t, ended) ← scan (Scalar.plain (p.depth ≠ 0) (p.indent + 1))
  allowKey ended
  emit (.scalar t true)

def blockScalar (fold : Bool) : Read Unit := do
  allowKey true
  dropKeyPlace
  emit (.scalar (← scan (Scalar.block fold (← get).indent)) false)

/-- What a plain scalar may start with. -/
def startsPlain (inFlow : Bool) (c : Char) (after : Option Char) : Bool :=
  !"-?:,[]\x7b\x7d#&*!|>'\"%@\x60".toList.contains c && !isBlank c ||
    !endsMark after && (c = '-' || (!inFlow && (c = '?' || c = ':')))

/-- Read one token, and say whether there was one. -/
def token : Read Bool := do
  toNextToken (← get).here.rest.length.succ
  dropStaleKeyPlaces
  let p ← get
  closeBlocks p.here.column
  let inFlow := p.depth ≠ 0
  let after := p.here.peek? 1
  match p.here.peek? 0 with
  | none =>
    closeBlocks (-1)
    dropKeyPlace
    return false
  | some c =>
    let isMark := inFlow || endsMark after
    if c = '%' && p.here.column = 0 then division directive
    else if c = '-' && p.here.column = 0 && p.here.isAtDivision then
      division do
        Scan.skip 3
        return .documentStart
    else if c = '.' && p.here.column = 0 && p.here.isAtDivision then
      division do
        Scan.skip 3
        return .documentEnd
    else if c = '[' then openFlow .openBracket
    else if c = '\x7b' then openFlow .openBrace
    else if c = ']' then closeFlow .closeBracket
    else if c = '\x7d' then closeFlow .closeBrace
    else if c = ',' then separator
    else if c = '-' && endsMark after then indicator .sequenceStart .entry true
    else if c = '?' && isMark then indicator .mappingStart .key (!inFlow)
    else if c = ':' && isMark then valueMark
    else if c = '*' then candidate (return .alias (← anchorName))
    else if c = '&' then candidate (return .anchor (← anchorName))
    else if c = '!' then candidate (return .tag (← writtenTag))
    else if c = '|' && !inFlow then blockScalar false
    else if c = '>' && !inFlow then blockScalar true
    else if c = '\'' || c = '"' then candidate (return .scalar (← Scalar.quoted c) false)
    else if startsPlain inFlow c after then plainScalar
    else throw .malformed
    return true

def tokens : Nat → Read Unit
  | 0 => pure ()
  | fuel + 1 => do
    if ← token then tokens fuel

end Read

/-- The tokens of a text; a byte order mark at its start is no part of it. -/
def ofText (t : Text) : Except Problem (List Token) := do
  if !t.all isAllowed then throw .malformed
  let start : Cursor := { rest := t }
  let start := if t.head? = some '\ufeff' then start.next else start
  let ((), p) ← (Read.tokens (t.length + 1)).run { here := start }
  return p.tokens.toList

end Token
end Yaml
end Marginalia
