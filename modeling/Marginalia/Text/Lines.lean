import Marginalia.Text.Basic

/-
Lines of a text.  A line ends at any of the code points that break lines; a
carriage return and a line feed together are one break.
-/
namespace Marginalia
namespace Text

def isLineBreak (c : Char) : Bool :=
  let n := c.toNat
  (10 ≤ n && n ≤ 13) || (0x1C ≤ n && n ≤ 0x1E) || n = 0x85 || n = 0x2028 || n = 0x2029

/-- The lines of a text without their breaks; a break at the end opens no line. -/
def lines : Text → List Text
  | [] => []
  | '\r' :: '\n' :: rest => [] :: lines rest
  | c :: rest =>
    if isLineBreak c then [] :: lines rest
    else match lines rest with
      | [] => [[c]]
      | l :: ls => (c :: l) :: ls

/-- The lines of a text with their breaks. -/
def fullLines : Text → List Text
  | [] => []
  | '\r' :: '\n' :: rest => ['\r', '\n'] :: fullLines rest
  | c :: rest =>
    if isLineBreak c then [c] :: fullLines rest
    else match fullLines rest with
      | [] => [[c]]
      | l :: ls => (c :: l) :: ls

/-- Nothing is lost. -/
theorem flatten_fullLines (t : Text) : (fullLines t).flatten = t := by
  fun_induction fullLines t with
  | case1 => rfl
  | case2 rest ih => simp [ih]
  | case3 c rest _ _ ih => simp [ih]
  | case4 c rest _ _ hnil ih =>
    rw [hnil] at ih
    simp [← ih]
  | case5 c rest _ _ l ls hcons ih =>
    rw [hcons] at ih
    simp [← ih]

end Text
end Marginalia
