/- The grammar of expressions, one level for each strength of binding. -/
import Stencil.Expr.Parser

namespace Stencil.Expr

/-- Levels of expressions, the loosest first. -/
inductive Level where
  | conditional
  | or
  | and
  | equality
  | relational
  | unary
  | member
  | primary

namespace Level

/-- The next level, which the right operand of a left-grouping operator comes from. -/
def tighter : Level → Level
  | .conditional => .or
  | .or => .and
  | .and => .equality
  | .equality => .relational
  | .relational => .unary
  | .unary => .member
  | .member => .primary
  | .primary => .primary

def ofOp : BinaryOp → Level
  | .or => .or
  | .and => .and
  | .eq | .notEq => .equality
  | .lt | .ltEq | .gt | .gtEq => .relational

end Level

mutual

/-- Runs of lexemes with the trees that they stand for. A binary operator groups to the left, a
condition to the right. No rule lets a parenthesis open after an operand, so a name in front of one
is always a call. -/
inductive Derives : Level → List Lexeme → Expr → Prop
  | choice {c y n condition yes no} : Derives .or c condition → Derives .conditional y yes →
      Derives .conditional n no →
      Derives .conditional (c ++ .question :: (y ++ .colon :: n)) (.ternary condition yes no)
  | binary {l r left right} (o : BinaryOp) : Derives (.ofOp o) l left →
      Derives (Level.ofOp o).tighter r right →
      Derives (.ofOp o) (l ++ .op o :: r) (.binary o left right)
  | not {l e} : Derives .unary l e → Derives .unary (.bang :: l) (.not e)
  | neg {l e} : Derives .unary l e → Derives .unary (.minus :: l) (.neg e)
  | index {l k target key} : Derives .member l target → Derives .conditional k key →
      Derives .member (l ++ .openBracket :: (k ++ [.closeBracket])) (.index target key)
  | field {l target} (name : Text) : Derives .member l target →
      Derives .member (l ++ [.dot, .ident name]) (.field target name)
  | position {l target i} {n : Number} : Derives .member l target → n.index? = some i →
      Derives .member (l ++ [.dot, .number n]) (.field target (Text.ofNat i))
  | text (t : Text) : Derives .primary [.text t] (.literal (.text t))
  | number (n : Number) : Derives .primary [.number n] (.literal (.number n))
  | var (name : Text) : Derives .primary [.var name] (.var name)
  | name (name : Text) : Derives .primary [.ident name] (.ofName name)
  | callNone (name : Text) : Derives .primary [.ident name, .openParen, .closeParen] (.call name [])
  | call {l args} (name : Text) : DerivesArgs l args →
      Derives .primary (.ident name :: .openParen :: (l ++ [.closeParen])) (.call name args)
  | callTrailing {l args} (name : Text) : DerivesArgs l args →
      Derives .primary (.ident name :: .openParen :: (l ++ [.comma, .closeParen])) (.call name args)
  | group {l e} : Derives .conditional l e → Derives .primary (.openParen :: (l ++ [.closeParen])) e
  | looser {ℓ : Level} {l e} : Derives ℓ.tighter l e → Derives ℓ l e

/-- One argument or more, with commas between them. -/
inductive DerivesArgs : List Lexeme → List Expr → Prop
  | one {l e} : Derives .conditional l e → DerivesArgs l [e]
  | more {l k args e} : DerivesArgs l args → Derives .conditional k e →
      DerivesArgs (l ++ .comma :: k) (args ++ [e])

end

namespace Level

def rank : Level → Nat
  | .conditional => 0
  | .or => 1
  | .and => 2
  | .equality => 3
  | .relational => 4
  | .unary => 5
  | .member => 6
  | .primary => 7

theorem rank_tighter {ℓ m : Level} (h : ℓ.rank < m.rank) : ℓ.tighter.rank = ℓ.rank + 1 := by
  cases ℓ with
  | primary => cases m <;> exact absurd h (by decide)
  | _ => rfl

theorem rank_le_rank_tighter (ℓ : Level) : ℓ.rank ≤ ℓ.tighter.rank := by
  cases ℓ <;> decide

theorem eq_of_rank_eq {ℓ m : Level} (h : ℓ.rank = m.rank) : ℓ = m := by
  cases ℓ <;> cases m <;> first | rfl | exact absurd h (by decide)

end Level

/-- An expression of one level counts at every looser one. -/
theorem Derives.mono {ℓ m : Level} {l : List Lexeme} {e : Expr} (h : Derives m l e)
    (hle : ℓ.rank ≤ m.rank) : Derives ℓ l e := by
  induction hn : m.rank - ℓ.rank generalizing ℓ with
  | zero =>
    have heq : ℓ.rank = m.rank := by omega
    exact Level.eq_of_rank_eq heq ▸ h
  | succ n ih =>
    have htighter := Level.rank_tighter (ℓ := ℓ) (m := m) (by omega)
    exact .looser (ih (by omega) (by omega))

end Stencil.Expr
