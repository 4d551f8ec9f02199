import Marginalia.Text.Basic

/-
Tokens of a template, and the canonical text of a token sequence.
-/
namespace Marginalia

inductive Token where
  | text (value : Text)
  /-- A variable with the filters it passes through, first one first. -/
  | lookup (key : Text) (filters : List Text)
  /-- Shown only when its variable counts as present. -/
  | block (key : Text) (body : List Token)
deriving Repr, Inhabited

namespace Token

def tagOpen : Text := ['{', '{']

def tagClose : Text := ['}', '}']

def tag (inner : Text) : Text := tagOpen ++ inner ++ tagClose

mutual

def decEq : (a b : Token) → Decidable (a = b)
  | .text v, .text w => decidable_of_iff (v = w) (by simp)
  | .lookup k fs, .lookup l gs => decidable_of_iff (k = l ∧ fs = gs) (by simp)
  | .block k xs, .block l ys =>
    match decEqList xs ys with
    | isTrue h => decidable_of_iff (k = l) (by simp [h])
    | isFalse h => isFalse (by simp [h])
  | .text _, .lookup _ _ => isFalse (by simp)
  | .text _, .block _ _ => isFalse (by simp)
  | .lookup _ _, .text _ => isFalse (by simp)
  | .lookup _ _, .block _ _ => isFalse (by simp)
  | .block _ _, .text _ => isFalse (by simp)
  | .block _ _, .lookup _ _ => isFalse (by simp)

def decEqList : (xs ys : List Token) → Decidable (xs = ys)
  | [], [] => isTrue rfl
  | [], _ :: _ => isFalse (by simp)
  | _ :: _, [] => isFalse (by simp)
  | x :: xs, y :: ys =>
    match decEq x y, decEqList xs ys with
    | isTrue h, isTrue hs => isTrue (by simp [h, hs])
    | isFalse h, _ => isFalse (by simp [h])
    | _, isFalse hs => isFalse (by simp [hs])

end

instance : DecidableEq Token := decEq

mutual

def canonical : Token → Text
  | .text v => v
  | .lookup k fs => tag (Text.join ['|'] (k :: fs))
  | .block k body => tag ('#' :: k) ++ canonicals body ++ tag ('/' :: k)

def canonicals : List Token → Text
  | [] => []
  | t :: rest => canonical t ++ canonicals rest

end

mutual

/-- A token and every token inside it, in template order. -/
def within : Token → List Token
  | .block k body => .block k body :: withins body
  | t => [t]

/-- Every token of a sequence, at any depth, in template order. -/
def withins : List Token → List Token
  | [] => []
  | t :: rest => within t ++ withins rest

end

end Token
end Marginalia
