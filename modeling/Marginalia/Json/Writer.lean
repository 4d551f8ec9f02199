import Marginalia.Value.Literal

/-
Writing values as interchange text without blanks.  Texts keep their characters
as they are; only quotes, backslashes and controls are escaped.
-/
namespace Marginalia
namespace Json

def escapeChar (c : Char) : Text :=
  if c = '"' then ['\\', '"']
  else if c = '\\' then ['\\', '\\']
  else if c = '\n' then ['\\', 'n']
  else if c = '\r' then ['\\', 'r']
  else if c = '\t' then ['\\', 't']
  else if c = '\x08' then ['\\', 'b']
  else if c = '\x0c' then ['\\', 'f']
  else if c.toNat < 0x20 then '\\' :: 'u' :: Text.hex 4 c.toNat
  else [c]

def string (t : Text) : Text := '"' :: t.flatMap escapeChar ++ ['"']

def float : Binary64 → Text
  | .nan => "NaN".toList
  | .infinity s => (if s then "-Infinity" else "Infinity").toList
  | x => x.text

def key : Value → Except Fault Text
  | .text t => .ok t
  | .float x => .ok (float x)
  | .bool b => .ok (if b then "true" else "false").toList
  | .null => .ok "null".toList
  | .int n => Value.wholeText n
  | _ => .error .wrongKind

mutual

def write : Value → Except Fault Text
  | .null => .ok "null".toList
  | .bool b => .ok (if b then "true" else "false").toList
  | .int n => Value.wholeText n
  | .float x => .ok (float x)
  | .text t => .ok (string t)
  | .list xs => do
    let parts ← writeItems xs
    .ok (['['] ++ Text.join [','] parts ++ [']'])
  | .tuple xs => do
    let parts ← writeItems xs
    .ok (['['] ++ Text.join [','] parts ++ [']'])
  | .map entries => do
    let parts ← writeEntries entries
    .ok (['{'] ++ Text.join [','] parts ++ ['}'])
  | .bytes _ => .error .wrongKind
  | .day _ => .error .wrongKind
  | .moment _ => .error .wrongKind
  | .set _ => .error .wrongKind
  | .enclosing _ => .error .wrongKind

def writeItems : List Value → Except Fault (List Text)
  | [] => .ok []
  | x :: xs => do
    let t ← write x
    let ts ← writeItems xs
    .ok (t :: ts)

def writeEntries : List (Value × Value) → Except Fault (List Text)
  | [] => .ok []
  | (k, v) :: rest => do
    let kt ← key k
    let vt ← write v
    let ts ← writeEntries rest
    .ok ((string kt ++ [':'] ++ vt) :: ts)

end

end Json
end Marginalia
