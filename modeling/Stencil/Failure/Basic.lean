/- Why a template does not compile. -/
import Stencil.Expr.Eval
import Stencil.Expr.ParseError
import Stencil.Segment.LexError

namespace Stencil

inductive FailureKind where
  | lexical
  | undefinedPart
  | unresolvedExpression
  | unknownDirective
  | unbalancedDirective
  | invalidExpression
  | functionFailed
  | recursionLimit
deriving DecidableEq

namespace FailureKind

def all : List FailureKind :=
  [.lexical, .undefinedPart, .unresolvedExpression, .unknownDirective, .unbalancedDirective,
    .invalidExpression, .functionFailed, .recursionLimit]

def name : FailureKind → String
  | .lexical => "lexical error"
  | .undefinedPart => "undefined part"
  | .unresolvedExpression => "unresolved expression"
  | .unknownDirective => "unknown directive"
  | .unbalancedDirective => "unbalanced directive"
  | .invalidExpression => "invalid expression"
  | .functionFailed => "function failed"
  | .recursionLimit => "recursion limit exceeded"

def ofName? (name : String) : Option FailureKind := all.find? fun k => k.name == name

end FailureKind

/-- The directives that enclose others. -/
inductive BlockKind where
  | part
  | conditional
deriving DecidableEq

namespace BlockKind

def opener : BlockKind → String
  | .part => "part"
  | .conditional => "if"

def closer : BlockKind → String
  | .part => "endpart"
  | .conditional => "endif"

end BlockKind

/-- The fault itself, without the line where it shows. -/
inductive Cause where
  | lexical (e : LexError)
  | undefinedPart (name : Text)
  | parentOutsidePart
  | noInheritedPart (name : Text)
  | badExpression (body : Text) (e : ParseError)
  | missingArgument (directive : Text)
  | parentWithArgument
  | evaluation (e : EvalError)
  | unknownDirective (name : Text)
  | nestedPart
  | unclosed (block : BlockKind)
  | stray (directive : Text) (block : BlockKind)
  | branchAfterElse
  | partTooDeep (name : Text) (limit : Nat)
  | directivesTooDeep (limit : Nat)
  | tagTooDeep (body : Text) (limit : Nat)
deriving DecidableEq

namespace Cause

def evaluationKind : EvalError → FailureKind
  | .undefinedVariable _ => .unresolvedExpression
  | .unresolvedIdentifier _ => .unresolvedExpression
  | .unknownFunction _ => .unresolvedExpression
  | .notANumber _ => .invalidExpression
  | .function _ => .functionFailed

def kind : Cause → FailureKind
  | .lexical _ => .lexical
  | .undefinedPart _ => .undefinedPart
  | .parentOutsidePart => .undefinedPart
  | .noInheritedPart _ => .undefinedPart
  | .badExpression _ _ => .invalidExpression
  | .missingArgument _ => .invalidExpression
  | .parentWithArgument => .invalidExpression
  | .evaluation e => evaluationKind e
  | .unknownDirective _ => .unknownDirective
  | .nestedPart => .unbalancedDirective
  | .unclosed _ => .unbalancedDirective
  | .stray _ _ => .unbalancedDirective
  | .branchAfterElse => .unbalancedDirective
  | .partTooDeep _ _ => .recursionLimit
  | .directivesTooDeep _ => .recursionLimit
  | .tagTooDeep _ _ => .recursionLimit

def message (p : Platform) : Cause → String
  | .lexical e => e.message
  | .undefinedPart name => s!"part `{name.string}` is not defined"
  | .parentOutsidePart => "`parent` used outside of a part"
  | .noInheritedPart name => s!"no parent template defines part `{name.string}`"
  | .badExpression body e => s!"`{body.string}`: {e.message p}"
  | .missingArgument directive => s!"`{directive.string}` requires an argument"
  | .parentWithArgument => "`parent` takes no arguments"
  | .evaluation e => e.message
  | .unknownDirective name => s!"unknown directive `{name.string}`"
  | .nestedPart => "part definitions cannot be nested"
  | .unclosed block => s!"`{block.opener}` is never closed"
  | .stray directive block => s!"`{directive.string}` without a matching `{block.opener}`"
  | .branchAfterElse => "`else` must be the last branch of an `if`"
  | .partTooDeep name limit => s!"part `{name.string}` nests more than {limit} levels deep"
  | .directivesTooDeep limit => s!"directives nest more than {limit} levels deep"
  | .tagTooDeep body limit => s!"tag `{body.string}` nests more than {limit} levels deep"

def help? : Cause → Option String
  | .lexical e => some e.help
  | .undefinedPart name => some s!"define it with part(\"{name.string}\") ... endpart"
  | .badExpression _ e => e.help
  | .evaluation (.unknownFunction _) =>
    some "register the function on the compiler before compiling"
  | .unknownDirective _ =>
    some "known directives: part, endpart, show, parent, if, elseif, else, endif"
  | .nestedPart => some "close the enclosing part with endpart first"
  | .unclosed block => some s!"add `{block.closer}`"
  | .partTooDeep _ _ => some "check for a part that shows itself"
  | .tagTooDeep _ _ => some "check for a tag whose value refers to itself"
  | _ => none

end Cause

/-- A fault and the line of the source that it is reported on. -/
structure Failure where
  cause : Cause
  line : Nat
deriving DecidableEq

/-- A fault of a text that does not lex shows on the line that the lexer names. -/
def LexError.failure (e : LexError) : Failure := ⟨.lexical e, e.line⟩

end Stencil
