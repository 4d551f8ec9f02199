import Marginalia.Text.Lines
import Marginalia.Text.Space

/-
Markdown as far as rendered notes need it: escaping, quoting, and thematic
rules.
-/
namespace Marginalia
namespace Markdown

/-- The characters that have a meaning of their own. -/
def isSpecial (c : Char) : Bool := "\\\x60*_\x7b\x7d[]()#+-.!|>~".toList.contains c

/-- A backslash before every special character. -/
def escape (t : Text) : Text := t.flatMap fun c => if isSpecial c then ['\\', c] else [c]

/-- One line as part of a quotation; a blank one is the bare mark. -/
def quoteLine (line : Text) : Text :=
  if Text.isBlank line then ['>'] else '>' :: ' ' :: line

def quote (t : Text) : Text := Text.join ['\n'] ((Text.fields '\n' t).map quoteLine)

/-- Mark every line as quoted, blank ones alike. -/
def quoteAll (t : Text) : Text :=
  Text.join ['\n'] ((Text.fields '\n' t).map fun line => '>' :: ' ' :: line)

/-- How many of the leading blanks of `t` stand before the end of a line: all of
them at the end of the text, otherwise those before their last line break. -/
def lineEndBlanks? (t : Text) : Option Nat :=
  let blanks := t.takeWhile Text.isSpace
  if (t.drop blanks.length).isEmpty then some blanks.length
  else if blanks.contains '\n' then
    some (blanks.length - 1 - (blanks.reverse.takeWhile (· ≠ '\n')).length)
  else none

/-- The length of a rule of one mark at the start: three or more of it, and
blanks to the end of a line. -/
def ruleOf? (mark : Char) (t : Text) : Option Nat :=
  let run := (t.takeWhile (· = mark)).length
  if 3 ≤ run then (lineEndBlanks? (t.drop run)).map (run + ·) else none

/-- The length of a rule at the start, with the blanks around it. -/
def rule? (t : Text) : Option Nat :=
  let blanks := (t.takeWhile Text.isSpace).length
  (['-', '_', '*'].findSome? fun mark => ruleOf? mark (t.drop blanks)).map (blanks + ·)

/-- A rule stands on some line; the text starts a line when `atStart` is set. -/
def hasRuleFrom (atStart : Bool) : Text → Bool
  | [] => false
  | c :: rest => (atStart && (rule? (c :: rest)).isSome) || hasRuleFrom (c = '\n') rest

def hasRule (t : Text) : Bool := hasRuleFrom true t

end Markdown
end Marginalia
