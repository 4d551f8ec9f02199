import Marginalia.Fault
import Marginalia.Text.Space

/-
Places in a text that is read as YAML.  Lines and columns count, because the
indentation of what is read decides where collections end.
-/
namespace Marginalia
namespace Yaml

/-- Why a text was not read. -/
inductive Problem where
  | malformed
  /-- A well-formed scalar stands for no value. -/
  | fault (f : Fault)
deriving DecidableEq, Repr

def isBreak (c : Char) : Bool :=
  c = '\n' || c = '\r' || c.toNat = 0x85 || c.toNat = 0x2028 || c.toNat = 0x2029

def isBlank (c : Char) : Bool := c = ' ' || c = '\t'

/-- The end of a line: a break, or nothing more. -/
def endsLine : Option Char → Bool
  | none => true
  | some c => isBreak c

/-- The end of a word: a space, or the end of the line. -/
def endsWord (c : Option Char) : Bool := c = some ' ' || endsLine c

/-- The end of an indicator: a blank, or the end of the line. -/
def endsMark (c : Option Char) : Bool := c = some '\t' || endsWord c

/-- A code point that may stand in a text at all. -/
def isAllowed (c : Char) : Bool :=
  let n := c.toNat
  n = 0x9 || n = 0xA || n = 0xD || (0x20 ≤ n && n ≤ 0x7E) || n = 0x85 ||
    (0xA0 ≤ n && n ≤ 0xFFFD) || 0x10000 ≤ n

structure Cursor where
  /-- What is still to be read. -/
  rest : Text
  index : Nat := 0
  line : Nat := 0
  column : Nat := 0
deriving Repr

namespace Cursor

/-- Past one code point.  A carriage return before a line feed does not break
the line, and a byte order mark has no width. -/
def next (c : Cursor) : Cursor :=
  match c.rest with
  | [] => c
  | ch :: rest =>
    let breaks := if ch = '\r' then rest.head? ≠ some '\n' else isBreak ch
    if breaks then ⟨rest, c.index + 1, c.line + 1, 0⟩
    else ⟨rest, c.index + 1, c.line, if ch = '\ufeff' then c.column else c.column + 1⟩

def skip (c : Cursor) : Nat → Cursor
  | 0 => c
  | n + 1 => c.next.skip n

def peek? (c : Cursor) (ahead : Nat) : Option Char := c.rest[ahead]?

/-- One of the marks that divide documents stands here. -/
def isAtDivision (c : Cursor) : Bool :=
  ("---".toList.isPrefixOf c.rest || "...".toList.isPrefixOf c.rest) && endsMark (c.peek? 3)

end Cursor

/-- Reading from a place on, which may fail. -/
abbrev Scan (α : Type) := StateT Cursor (Except Problem) α

namespace Scan

def fail {α : Type} : Scan α := throw .malformed

def check (ok : Bool) : Scan Unit := if ok then pure () else fail

def peek? (ahead : Nat) : Scan (Option Char) := return (← get).peek? ahead

def skip (n : Nat) : Scan Unit := modify (·.skip n)

/-- The longest run of code points of a class. -/
def run (p : Char → Bool) : Scan Text := do
  let t := (← get).rest.takeWhile p
  skip t.length
  return t

/-- A line break, if one stands here: the line feed for all but the separators
of lines and paragraphs. -/
def lineBreak : Scan (Option Char) := do
  match (← get).rest with
  | '\r' :: '\n' :: _ =>
    skip 2
    return some '\n'
  | c :: _ =>
    if isBreak c then
      skip 1
      return some (if c.toNat = 0x2028 || c.toNat = 0x2029 then c else '\n')
    else return none
  | [] => return none

/-- The rest of a line that holds nothing but spaces and a comment. -/
def emptyLineEnd : Scan Unit := do
  let _ ← run (· = ' ')
  if (← peek? 0) = some '#' then
    let _ ← run fun c => !isBreak c
  check (endsLine (← peek? 0))
  let _ ← lineBreak

/-- How many steps suffice for a loop that takes something each time. -/
def bound : Scan Nat := return (← get).rest.length + 1

end Scan
end Yaml
end Marginalia
