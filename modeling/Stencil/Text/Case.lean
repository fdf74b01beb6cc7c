/- Upper and lower case of texts. A capital sigma that ends a word has a lower case of its own. -/
import Stencil.Text.Basic
import Stencil.Unicode.Case

namespace Stencil.Text

def upper (t : Text) : Text := t.flatMap Unicode.upperMap.image

/-- Whether the first character that has a say about words is a cased one. -/
def meetsCased (t : Text) : Bool :=
  match t.dropWhile Unicode.isCaseIgnorable with
  | [] => false
  | c :: _ => Unicode.isCased c

/-- Lower case of `c` between the reversed text `before` it and the text `after` it. -/
def lowerBetween (before : Text) (c : Char) (after : Text) : Text :=
  if c = 'Σ' then if meetsCased before && !meetsCased after then ['ς'] else ['σ']
  else Unicode.lowerMap.image c

def lowerFrom (before : Text) : Text → Text
  | [] => []
  | c :: cs => lowerBetween before c cs ++ lowerFrom (c :: before) cs

def lower (t : Text) : Text := lowerFrom [] t

def capitalize : Text → Text
  | [] => []
  | c :: cs => Unicode.upperMap.image c ++ cs

end Stencil.Text
