import Marginalia.Template.Fragment
import Marginalia.Text.Lines

/-
Template sources in the colours of a terminal.
-/
namespace Marginalia

/-- The control sequences that switch a colour or weight on. -/
def FragmentKind.colour? : FragmentKind → Option Text
  | .keyword => some "\x1b[34m".toList
  | .key => some "\x1b[31m".toList
  | .filterName => some "\x1b[32m".toList
  | .argument => some "\x1b[33m".toList
  | .comment => some "\x1b[37m".toList
  | .markup => some "\x1b[36m".toList
  | .heading => some "\x1b[01m".toList
  | .error => some "\x1b[04m\x1b[91m".toList
  | .text | .punctuation | .rule => none

namespace Fragment

def colourOff : Text := "\x1b[39;49;00m".toList

/-- One line of a fragment; a line feed at its end stands outside the colour. -/
def paintedLine (colour line : Text) : Text :=
  match Text.dropTail? ['\n'] line with
  | some body => colour ++ body ++ colourOff ++ ['\n']
  | none => colour ++ line ++ colourOff

def painted (f : Fragment) : Text :=
  match f.kind.colour? with
  | none => f.source
  | some colour => (Text.fullLines f.source).flatMap (paintedLine colour)

/-- A template source as a terminal shows it. -/
def paint (source : Text) : Text := (ofSource source).flatMap painted

end Fragment
end Marginalia
