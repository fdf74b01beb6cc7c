/- Cutting expressions into lexemes. -/
import Stencil.Expr.ParseError
import Stencil.Unicode.Word

namespace Stencil

/-- A lexeme and the byte offset where it starts. -/
structure ExprToken where
  lexeme : Lexeme
  position : Nat
deriving DecidableEq

/-- The tokens of an expression and its length in bytes, where it ends. -/
structure TokenRun where
  tokens : List ExprToken
  stop : Nat
deriving DecidableEq

namespace Lexeme

/-- The text of a string up to its closing quote, and the number of characters read. A backslash
takes away the meaning of the quote and of another backslash, and otherwise stands for itself. -/
def stringBody (quote : Char) : Text → Option (Text × Nat)
  | [] => none
  | c :: cs =>
    if c = quote then some ([], 1)
    else if c = '\\' then
      match cs with
      | [] => none
      | d :: ds =>
        if d = quote ∨ d = '\\' then
          (stringBody quote ds).map fun (t, n) => (d :: t, n + 2)
        else (stringBody quote (d :: ds)).map fun (t, n) => (c :: t, n + 1)
    else (stringBody quote cs).map fun (t, n) => (c :: t, n + 1)

/-- The digits after a decimal point; a point that no digit follows is not part of a number. -/
def fraction? : Text → Option Text
  | '.' :: d :: ds => if d.isDigit then some ((d :: ds).takeWhile Char.isDigit) else none
  | _ => none

/-- The literal that starts with digits, and its length. -/
def numberAt (position : Nat) (t : Text) : Except ParseError (Lexeme × Nat) :=
  let whole := t.takeWhile Char.isDigit
  let fraction := fraction? (t.dropWhile Char.isDigit)
  let length := whole.length + (fraction.map fun ds => ds.length + 1).getD 0
  match Number.ofLiteral? whole fraction with
  | some n => .ok (.number n, length)
  | none =>
    let digits := Text.string (t.take length)
    .error { kind := .invalidNumber, position, found := some (.shown s!"'{digits}'") }

/-- The punctuation that starts here, and its length; two characters are tried before one. -/
def symbolAt? : Text → Option (Lexeme × Nat)
  | '&' :: '&' :: _ => some (.op .and, 2)
  | '|' :: '|' :: _ => some (.op .or, 2)
  | '=' :: '=' :: _ => some (.op .eq, 2)
  | '!' :: '=' :: _ => some (.op .notEq, 2)
  | '<' :: '=' :: _ => some (.op .ltEq, 2)
  | '>' :: '=' :: _ => some (.op .gtEq, 2)
  | '(' :: _ => some (.openParen, 1)
  | ')' :: _ => some (.closeParen, 1)
  | '[' :: _ => some (.openBracket, 1)
  | ']' :: _ => some (.closeBracket, 1)
  | ',' :: _ => some (.comma, 1)
  | '.' :: _ => some (.dot, 1)
  | '?' :: _ => some (.question, 1)
  | ':' :: _ => some (.colon, 1)
  | '!' :: _ => some (.bang, 1)
  | '-' :: _ => some (.minus, 1)
  | '<' :: _ => some (.op .lt, 1)
  | '>' :: _ => some (.op .gt, 1)
  | _ => none

/-- The lexeme that starts with `c`, which is not white space, and its length in characters. -/
def startingAt (position : Nat) (c : Char) (cs : Text) : Except ParseError (Lexeme × Nat) :=
  if c = '"' ∨ c = '\'' then
    match stringBody c cs with
    | some (t, n) => .ok (.text t, n + 1)
    | none => .error { kind := .unterminatedString, position, expected := [s!"{c}"] }
  else if c.isDigit then numberAt position (c :: cs)
  else if c = '$' then
    let name := cs.takeWhile Unicode.isWord
    if name.isEmpty then .error { kind := .missingVariableName, position }
    else .ok (.var name, name.length + 1)
  else if Unicode.isWordStart c then
    let name := (c :: cs).takeWhile Unicode.isWord
    .ok (.ident name, name.length)
  else
    match symbolAt? (c :: cs) with
    | some found => .ok found
    | none => .error { kind := .unexpectedCharacter, position, found := some (.shown s!"'{c}'") }

end Lexeme

/-- Tokens of the text at byte `position`, after its next `skip` characters, which belong to a
lexeme already taken. -/
def tokensAt : Nat → Nat → Text → Except ParseError TokenRun
  | _, position, [] => .ok ⟨[], position⟩
  | skip + 1, position, c :: cs => tokensAt skip (position + c.utf8Size) cs
  | 0, position, c :: cs =>
    if Unicode.isBlank c then tokensAt 0 (position + c.utf8Size) cs
    else
      match Lexeme.startingAt position c cs with
      | .error e => .error e
      | .ok (lexeme, length) =>
        (tokensAt (length - 1) (position + c.utf8Size) cs).map fun run =>
          { run with tokens := ⟨lexeme, position⟩ :: run.tokens }

def exprTokens (t : Text) : Except ParseError TokenRun := tokensAt 0 0 t

end Stencil
