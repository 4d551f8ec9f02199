import Marginalia.Yaml.Plain

/-
Writing one entry of a mapping whose value is a text.  A text is written plain
where it reads back as itself, else in single quotes, and in double quotes when
something in it has to be spelled out.  Long lines are folded at spaces.
-/
namespace Marginalia
namespace Yaml
namespace Writer

/-- The column beyond which lines are folded. -/
def width : Nat := 80

/-- The indentation of the lines after the first. -/
def indent : Nat := 2

def newLine : Text := '\n' :: List.replicate indent ' '

/-! ## The choice of a style -/

/-- Line breaks inside a text.  A carriage return is not among them: it can only
be spelled out. -/
def isLineEnd (c : Char) : Bool := isBreak c && c ≠ '\r'

/-- What shows as itself in a text without double quotes. -/
def isShown (c : Char) : Bool :=
  let n := c.toNat
  c = '\n' || (0x20 ≤ n && n ≤ 0x7E) || n = 0x85 || (0xA0 ≤ n && n ≤ 0xFFFD && n ≠ 0xFEFF) ||
    (0x10000 ≤ n && n < 0x10FFFF)

/-- The marks that a plain scalar cannot start with. -/
def isOpeningMark (c : Char) (after : Option Char) : Bool :=
  "#,[]\x7b\x7d&*!|>'\"%@\x60".toList.contains c ||
    ((c = '?' || c = ':' || c = '-') && endsMark after)

/-- A mark of a value or a comment inside a text. -/
def holdsMark : Text → Bool
  | [] => false
  | [_] => false
  | c :: d :: rest =>
    (d = ':' && endsMark rest.head?) || (d = '#' && endsMark (some c)) || holdsMark (d :: rest)

/-- Where a plain scalar would end early or mean something else. -/
def hasMarks (t : Text) : Bool :=
  "---".toList.isPrefixOf t || "...".toList.isPrefixOf t || holdsMark t ||
    match t with
    | [] => false
    | c :: rest => isOpeningMark c rest.head?

/-- Two neighbours of the given classes. -/
def hasPair (p q : Char → Bool) : Text → Bool
  | [] => false
  | [_] => false
  | c :: d :: rest => (p c && q d) || hasPair p q (d :: rest)

inductive Style where
  | plain
  | single
  | double
deriving DecidableEq, Repr

def endsIn (p : Char → Bool) (t : Text) : Bool := t.head?.any p || t.getLast?.any p

def styleFor (t : Text) : Style :=
  let isSpace (c : Char) : Bool := c = ' '
  let single := t.all isShown && !hasPair isSpace isLineEnd t && !hasPair isLineEnd isSpace t
  let plain := single && Plain.tag t = .text && !endsIn isSpace t &&
    !t.any isLineEnd && !hasMarks t
  if plain then .plain else if single then .single else .double

/-! ## Writing -/

/-- The column after some text on a line. -/
def columnAfter (column : Nat) (t : Text) : Nat := column + t.length

/-- A text in words from a column on: a single space beyond the width becomes a
line end. -/
def plainFrom : Nat → Nat → Text → Text
  | 0, _, t => t
  | _, _, [] => []
  | fuel + 1, column, c :: rest =>
    if c = ' ' then
      let run := ' ' :: rest.takeWhile (· = ' ')
      let after := rest.dropWhile (· = ' ')
      if run.length = 1 && width < column then newLine ++ plainFrom fuel indent after
      else run ++ plainFrom fuel (columnAfter column run) after
    else c :: plainFrom fuel (column + 1) rest

/-- The inside of single quotes: a quote is written twice, a line end opens
another line, and a single inner space beyond the width becomes a line end. -/
def singleFrom (atStart : Bool) : Nat → Nat → Text → Text
  | 0, _, t => t
  | _, _, [] => []
  | fuel + 1, column, c :: rest =>
    if c = ' ' then
      let run := ' ' :: rest.takeWhile (· = ' ')
      let after := rest.dropWhile (· = ' ')
      if run.length = 1 && width < column && !atStart && !after.isEmpty then
        newLine ++ singleFrom false fuel indent after
      else run ++ singleFrom false fuel (columnAfter column run) after
    else if isLineEnd c then
      let run := c :: rest.takeWhile isLineEnd
      let after := rest.dropWhile isLineEnd
      (if c = '\n' then ['\n'] else []) ++ run ++ List.replicate indent ' ' ++
        singleFrom false fuel indent after
    else if c = '\'' then '\'' :: '\'' :: singleFrom false fuel (column + 2) rest
    else c :: singleFrom false fuel (column + 1) rest

/-- What stands as itself in double quotes. -/
def standsInDouble (c : Char) : Bool :=
  let n := c.toNat
  c ≠ '"' && c ≠ '\\' && n ≠ 0xFEFF && n ≠ 0x2028 && n ≠ 0x2029 &&
    ((0x20 ≤ n && n ≤ 0x7E) || (0xA0 ≤ n && n ≤ 0xFFFD))

/-- The letters of short escapes. -/
def escapeLetters : List (Nat × Char) :=
  [(0x0, '0'), (0x7, 'a'), (0x8, 'b'), (0x9, 't'), (0xA, 'n'), (0xB, 'v'), (0xC, 'f'), (0xD, 'r'),
    (0x1B, 'e'), (0x22, '"'), (0x5C, '\\'), (0x85, 'N'), (0xA0, '_'), (0x2028, 'L'),
    (0x2029, 'P')]

def upperHex (digits n : Nat) : Text := Text.upper (Text.hex digits n)

def escape (c : Char) : Text :=
  let n := c.toNat
  match escapeLetters.lookup n with
  | some letter => ['\\', letter]
  | none =>
    if n ≤ 0xFF then '\\' :: 'x' :: upperHex 2 n
    else if n ≤ 0xFFFF then '\\' :: 'u' :: upperHex 4 n
    else '\\' :: 'U' :: upperHex 8 n

/-- The inside of double quotes.  `held` is what has been read since the last
escape and is not written yet; a line is folded behind a space or an escape,
but not behind the first code point or before the last. -/
def doubleFrom (first : Bool) (column : Nat) (held : Text) : Text → Text
  | [] => held
  | c :: rest =>
    let stands := standsInDouble c
    let flushed : Text := if stands then [] else held ++ escape c
    let column := columnAfter column flushed
    let held := if stands then held else []
    let reach := if stands then column + held.length else column - 1
    let mayFold := !first && !rest.isEmpty && (c = ' ' || held.isEmpty)
    if mayFold && width < reach then
      let next : Text := if stands then c :: rest else rest
      let guard : Text := if next.head? = some ' ' then ['\\'] else []
      flushed ++ held ++ ['\\'] ++ newLine ++ guard ++
        doubleFrom false (columnAfter indent guard) (if stands then [c] else []) rest
    else flushed ++ doubleFrom false column (if stands then held ++ [c] else []) rest

/-- A text as a scalar that starts at a column. -/
def scalar (column : Nat) (t : Text) : Text :=
  match styleFor t with
  | .plain => plainFrom t.length column t
  | .single => '\'' :: singleFrom true t.length (column + 1) t ++ ['\'']
  | .double => '"' :: doubleFrom true (column + 1) [] t ++ ['"']

def entry (key t : Text) : Text :=
  let lead := key ++ [':', ' ']
  lead ++ scalar lead.length t

end Writer
end Yaml
end Marginalia
