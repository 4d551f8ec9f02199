import Marginalia.Template.Tag
import Marginalia.Text.Quoted
import Marginalia.Log

/-
Token sequences from templates.  Reading never fails: what cannot be understood
stays as text, and each such recovery is recorded with its place.
-/
namespace Marginalia

/-- Why a part of a template was kept as text. -/
inductive AnomalyKind where
  | unterminatedTag
  | emptyBlockKey
  | depthExceeded
  | strayCloser
  | malformedTag
  | unclosedBlock
deriving DecidableEq, Repr

namespace AnomalyKind

def name : AnomalyKind → Text
  | .unterminatedTag => "unterminated_tag".toList
  | .emptyBlockKey => "empty_block_key".toList
  | .depthExceeded => "depth_exceeded".toList
  | .strayCloser => "stray_closer".toList
  | .malformedTag => "malformed_tag".toList
  | .unclosedBlock => "unclosed_block".toList

end AnomalyKind

structure Anomaly where
  kind : AnomalyKind
  /-- Where the part starts, in code points from the start of the template. -/
  offset : Nat
  raw : Text
deriving DecidableEq, Repr

namespace Anomaly

/-- How much of a recovered part is shown. -/
def excerptLength : Nat := 40

def entry (a : Anomaly) : LogEntry :=
  .trace ("Template ".toList ++ a.kind.name ++ " at offset ".toList ++ Text.ofNat a.offset ++
    [':', ' '] ++ Text.quoted (a.raw.take excerptLength))

end Anomaly

/-- A block that is open while a template is read. -/
structure Frame where
  key : Text
  closer : Text
  offset : Nat
  /-- The tokens before the block in the sequence it stands in, last one
  first. -/
  before : List Token

/-- How far a template has been read. -/
structure Reading where
  /-- The tokens of the innermost open sequence, last one first. -/
  body : List Token := []
  /-- The open blocks, innermost first. -/
  frames : List Frame := []
  /-- The recoveries so far, last one first. -/
  anomalies : List Anomaly := []

namespace Reading

def push (r : Reading) (t : Token) : Reading := { r with body := t :: r.body }

/-- Keep a part as text and record why. -/
def recover (r : Reading) (kind : AnomalyKind) (offset : Nat) (raw : Text) : Reading :=
  { r with body := .text raw :: r.body, anomalies := ⟨kind, offset, raw⟩ :: r.anomalies }

/-- Open a block, unless as many as allowed are open. -/
def openBlock (limit : Int) (r : Reading) (offset : Nat) (raw key closer : Text) : Reading :=
  if limit ≤ r.frames.length then r.recover .depthExceeded offset raw
  else { r with body := [], frames := ⟨key, closer, offset, r.body⟩ :: r.frames }

/-- Close the innermost block, if `key` is its closer. -/
def closeBlock (r : Reading) (offset : Nat) (raw key : Text) : Reading :=
  match r.frames with
  | f :: rest =>
    if f.closer = key then
      { r with body := .block f.key r.body.reverse :: f.before, frames := rest }
    else r.recover .strayCloser offset raw
  | [] => r.recover .strayCloser offset raw

/-- Read on by one piece, which starts at `offset`. -/
def step (limit : Int) (r : Reading) (offset : Nat) (p : Piece) : Reading :=
  match p with
  | .text t => r.push (.text t)
  | .dangling _ => r.recover .unterminatedTag offset p.source
  | .tag inner =>
    match Tag.read inner with
    | .opener key closer => r.openBlock limit offset p.source key closer
    | .keyless => r.recover .emptyBlockKey offset p.source
    | .closer key => r.closeBlock offset p.source key
    | .lookup key filters => r.push (.lookup key filters)
    | .malformed => r.recover .malformedTag offset p.source

def steps (limit : Int) (r : Reading) (offset : Nat) : List Piece → Reading
  | [] => r
  | p :: rest => steps limit (r.step limit offset p) (offset + p.source.length) rest

end Reading

structure Parsed where
  tokens : List Token
  /-- The recoveries, in the order in which they were made. -/
  anomalies : List Anomaly
deriving DecidableEq

namespace Parsed

/-- When blocks are still open at the end, everything from the outermost one on
is text. -/
def finish (template : Text) (r : Reading) : Parsed :=
  match r.frames.getLast? with
  | none => ⟨r.body.reverse, r.anomalies.reverse⟩
  | some f =>
    let raw := template.drop f.offset
    ⟨f.before.reverse ++ [.text raw], (⟨.unclosedBlock, f.offset, raw⟩ :: r.anomalies).reverse⟩

def ofTemplate (limit : Int) (template : Text) : Parsed :=
  finish template (Reading.steps limit {} 0 (Piece.ofTemplate template))

def log (p : Parsed) : Log := p.anomalies.map (·.entry)

end Parsed

def tokenize (limit : Int) (template : Text) : List Token :=
  (Parsed.ofTemplate limit template).tokens

end Marginalia
