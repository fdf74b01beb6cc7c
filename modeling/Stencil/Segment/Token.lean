/- Tokens: the delimiters, names and expressions of segments with their lines and byte ranges. -/
import Stencil.Segment.Lexer

namespace Stencil

inductive TokenKind where
  | expression
  | directiveName
  | opening (kind : RegionKind)
  | closing (kind : RegionKind)
  | escapedOpening
deriving DecidableEq

/-- `start` and `stop` are byte offsets into the template. -/
structure Token where
  kind : TokenKind
  value : Text
  line : Nat
  start : Nat
  stop : Nat
deriving DecidableEq

namespace Segment

/-- Tokens of a segment that starts on `line` at byte `offset`. Names and expressions carry the line
of the opening. -/
def tokens (line offset : Nat) : Segment → List Token
  | .text _ => []
  | .escapedOpening opening =>
    [⟨.escapedOpening, opening, line, offset, offset + 1 + opening.byteSize⟩]
  | .directive opening lead name argument closing =>
    let a := offset + opening.byteSize
    let b := a + lead.byteSize
    let c := b + name.byteSize
    let d := c + argument.byteSize
    let closingLine := line + (opening ++ (lead ++ (name ++ argument))).newlines
    let expression := match expression? argument with
      | some e => [⟨.expression, e, line, c, d⟩]
      | none => []
    ⟨.opening .directive, opening, line, offset, a⟩ :: ⟨.directiveName, name, line, b, c⟩ ::
      (expression ++ [⟨.closing .directive, closing, closingLine, d, d + closing.byteSize⟩])
  | .tag kind opening body closing =>
    let a := offset + opening.byteSize
    let b := a + body.byteSize
    let closingLine := line + (opening ++ body).newlines
    [⟨.opening (.tag kind), opening, line, offset, a⟩, ⟨.expression, body.trim, line, a, b⟩,
      ⟨.closing (.tag kind), closing, closingLine, b, b + closing.byteSize⟩]

end Segment

def tokensFrom (line offset : Nat) : List Segment → List Token
  | [] => []
  | s :: ss =>
    s.tokens line offset ++ tokensFrom (line + s.raw.newlines) (offset + s.raw.byteSize) ss

def tokenize (ds : DelimiterSet) (t : Text) : Except LexError (List Token) :=
  (segments ds t).map (tokensFrom 1 0)

end Stencil
