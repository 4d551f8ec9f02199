import Marginalia.Text.Space
import Marginalia.Text.WordTable

/-
Words: runs of letters, digits and low lines, in every script.
-/
namespace Marginalia
namespace Text

def isWord (c : Char) : Bool := inRanges wordRanges c.toNat

/-- A non-empty run of word characters and nothing else. -/
def isIdentifier (t : Text) : Bool := !t.isEmpty && t.all isWord

end Text
end Marginalia
