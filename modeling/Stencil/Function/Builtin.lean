/- The functions that every template can call. -/
import Stencil.Escape
import Stencil.Platform
import Stencil.Text.Case
import Stencil.Value.Basic

namespace Stencil

inductive Builtin where
  | upper
  | lower
  | capitalize
  | reverse
  | trim
  | length
  | join
  | default
  | replace
  | nl2br
  | escape
  | json
  | date
  | strToUpper
  | strToLower
  | ucFirst
  | strRev
  | count
  | implode
  | strReplace
  | jsonEncode
  | htmlSpecialChars
deriving DecidableEq

/-- What a function has against its arguments. -/
inductive ArgumentFault where
  | firstNotList
  | noList
  | emptySearch
  | timestampNotInteger
  | timestampOutOfRange (seconds : Int)
  | timestampNotNumber (shown : Text)
deriving DecidableEq

def ArgumentFault.message : ArgumentFault → String
  | .firstNotList => "first argument must be a list"
  | .noList => "one argument must be a list"
  | .emptySearch => "search string is empty"
  | .timestampNotInteger => "timestamp must be an integer"
  | .timestampOutOfRange seconds => s!"invalid timestamp {seconds}"
  | .timestampNotNumber shown => s!"timestamp must be a number, got {shown.string}"

structure FunctionError where
  function : Builtin
  fault : ArgumentFault
deriving DecidableEq

namespace Builtin

def all : List Builtin :=
  [.upper, .lower, .capitalize, .reverse, .trim, .length, .join, .default, .replace, .nl2br,
    .escape, .json, .date, .strToUpper, .strToLower, .ucFirst, .strRev, .count, .implode,
    .strReplace, .jsonEncode, .htmlSpecialChars]

def name : Builtin → String
  | .upper => "upper"
  | .lower => "lower"
  | .capitalize => "capitalize"
  | .reverse => "reverse"
  | .trim => "trim"
  | .length => "length"
  | .join => "join"
  | .default => "default"
  | .replace => "replace"
  | .nl2br => "nl2br"
  | .escape => "escape"
  | .json => "json"
  | .date => "date"
  | .strToUpper => "strtoupper"
  | .strToLower => "strtolower"
  | .ucFirst => "ucfirst"
  | .strRev => "strrev"
  | .count => "count"
  | .implode => "implode"
  | .strReplace => "str_replace"
  | .jsonEncode => "json_encode"
  | .htmlSpecialChars => "htmlspecialchars"

def ofName? (name : Text) : Option Builtin := all.find? fun b => b.name.toList == name

/-- An argument by position, `null` where it was not passed. -/
def arg (args : List Value) (i : Nat) : Value := args.getD i .null

def breaks : Text → Text := Text.replace ['\n'] "<br>\n".toList

section Operations

variable (p : Platform)

def joined (items : List Value) (separator : Value) : Value :=
  .text (List.intercalate (separator.render p) (items.map (Value.render p)))

def lengthOf : Value → Nat
  | .array items => items.length
  | .object fields => fields.length
  | v => (v.render p).length

def reversed : Value → Value
  | .array items => .array items.reverse
  | v => .text (v.render p).reverse

/-- The moment that a timestamp argument names on the clock; without one it is the present. -/
def momentOf : Value → Except ArgumentFault Moment
  | .null => .ok p.clock.now
  | .number (.int n) =>
    if n ≤ Number.greatestSigned then
      match p.clock.moment? n with
      | some m => .ok m
      | none => .error (.timestampOutOfRange n)
    else .error .timestampNotInteger
  | .number (.double _) => .error .timestampNotInteger
  | v => .error (.timestampNotNumber (v.json p))

def replaced (subject old new : Value) : Except ArgumentFault Value :=
  if (old.render p).isEmpty then .error .emptySearch
  else .ok (.text (Text.replace (old.render p) (new.render p) (subject.render p)))

end Operations

/-- A list among two arguments, the second looked at first, with the other argument. -/
def listOf? : Value → Value → Option (List Value × Value)
  | separator, .array items => some (items, separator)
  | .array items, separator => some (items, separator)
  | _, _ => none

/-- The value of a function on evaluated arguments. -/
def apply (p : Platform) (b : Builtin) (args : List Value) : Except ArgumentFault Value :=
  let a := arg args
  let text := (a 0).render p
  match b with
  | .upper | .strToUpper => .ok (.text text.upper)
  | .lower | .strToLower => .ok (.text text.lower)
  | .capitalize | .ucFirst => .ok (.text text.capitalize)
  | .reverse | .strRev => .ok (reversed p (a 0))
  | .trim => .ok (.text text.trim)
  | .length | .count => .ok (.ofNat (lengthOf p (a 0)))
  | .join =>
    match a 0 with
    | .array items => .ok (joined p items (a 1))
    | _ => .error .firstNotList
  | .implode =>
    match listOf? (a 0) (a 1) with
    | some (items, separator) => .ok (joined p items separator)
    | none => .error .noList
  | .default => .ok (if (a 0).isTruthy then a 0 else a 1)
  | .replace => replaced p (a 0) (a 1) (a 2)
  | .strReplace => replaced p (a 2) (a 0) (a 1)
  | .nl2br => .ok (.text (breaks text))
  | .escape | .htmlSpecialChars => .ok (.text (Escaper.html text))
  | .json | .jsonEncode => .ok (.text ((a 0).json p))
  | .date => (momentOf p (a 1)).map fun m => .text (m.format text)

def call (p : Platform) (b : Builtin) (args : List Value) : Except FunctionError Value :=
  (b.apply p args).mapError (⟨b, ·⟩)

end Builtin

def FunctionError.message (e : FunctionError) : String :=
  s!"{e.function.name}(): {e.fault.message}"

end Stencil
