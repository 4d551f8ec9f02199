import Marginalia.Text.Basic

/-
Blanks: the code points of white space in every script.  Trimming and the
collapsing of runs use one and the same class.
-/
namespace Marginalia

/-- A closed table of ascending ranges holds `n`. -/
def inRanges : List (Nat × Nat) → Nat → Bool
  | [], _ => false
  | (lo, hi) :: rest, n => if n < lo then false else decide (n ≤ hi) || inRanges rest n

namespace Text

/-- The blanks: the controls that move the pen, the information separators, and
the spaces and separators of every width. -/
def spaceRanges : List (Nat × Nat) :=
  [(0x9,0xD), (0x1C,0x20), (0x85,0x85), (0xA0,0xA0), (0x1680,0x1680), (0x2000,0x200A),
   (0x2028,0x2029), (0x202F,0x202F), (0x205F,0x205F), (0x3000,0x3000)]

def isSpace (c : Char) : Bool := inRanges spaceRanges c.toNat

/-- The blanks of the basic code page that a numeral may be padded with. -/
def isPadding (c : Char) : Bool := c = ' ' || (9 ≤ c.toNat && c.toNat ≤ 13)

def stripLeft (t : Text) : Text := t.dropWhile isSpace

def stripRight (t : Text) : Text := (t.reverse.dropWhile isSpace).reverse

/-- Remove the blanks at both ends. -/
def strip (t : Text) : Text := stripRight (stripLeft t)

def isBlank (t : Text) : Bool := t.all isSpace

/-- The maximal runs of code points that are not blank. -/
def words (t : Text) : List Text :=
  match _h : t.dropWhile isSpace with
  | [] => []
  | c :: rest =>
    (c :: rest).takeWhile (fun d => !isSpace d) ::
      words ((c :: rest).dropWhile (fun d => !isSpace d))
termination_by t.length
decreasing_by
  have hle := (List.dropWhile_suffix (l := t) isSpace).length_le
  rw [_h] at hle
  have hc : isSpace c = false := by
    have := List.head_dropWhile_not isSpace (l := t) (by simp [_h])
    simpa [_h] using this
  have hs := (List.dropWhile_suffix (l := rest) (fun d => !isSpace d)).length_le
  simp only [List.length_cons] at hle
  simp [hc]
  omega

/-- Every run of blanks becomes one space. -/
def collapseRuns (t : Text) : Text :=
  match t with
  | [] => []
  | c :: rest =>
    if isSpace c then ' ' :: collapseRuns (rest.dropWhile isSpace)
    else c :: collapseRuns rest
termination_by t.length
decreasing_by
  · have := (List.dropWhile_suffix (l := rest) isSpace).length_le
    simp only [List.length_cons]
    omega
  · simp

/-- Trim, and let one space stand for every inner run of blanks. -/
def normalizeSpace (t : Text) : Text := collapseRuns (strip t)

end Text

end Marginalia
