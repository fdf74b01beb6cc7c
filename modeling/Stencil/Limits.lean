/- How deep tags and directives may nest. -/
import Stencil.Value.Basic

namespace Stencil

/-- The depth that is allowed where nothing else is said. -/
def usualDepth : Nat := 32

structure Limits where
  tagDepth : Nat := usualDepth
  directiveDepth : Nat := usualDepth
deriving DecidableEq

namespace Limits

def tagField : Text := "max_tag_depth".toList

def directiveField : Text := "max_directive_depth".toList

/-- A limit is an integer of an unsigned 64-bit word. -/
def ofNumber? : Value → Option Nat
  | .number (.int n) => if 0 ≤ n ∧ n < Int.pow 2 64 then some n.toNat else none
  | _ => none

def depth? : Option Value → Option Nat
  | none => some usualDepth
  | some v => ofNumber? v

def read? (tag directive : Option Value) : Option Limits :=
  match depth? tag, depth? directive with
  | some tagDepth, some directiveDepth => some { tagDepth, directiveDepth }
  | _, _ => none

/-- Limits by name, or in order; those left out have the usual depth. -/
def ofValue? : Value → Option Limits
  | .object fields => read? (fields.lookup tagField) (fields.lookup directiveField)
  | .array [] => read? none none
  | .array [tag] => read? (some tag) none
  | .array [tag, directive] => read? (some tag) (some directive)
  | _ => none

def toValue (l : Limits) : Value :=
  .ofFields [(tagField, .ofNat l.tagDepth), (directiveField, .ofNat l.directiveDepth)]

/-- The limits, for logs. -/
def summary (l : Limits) : String :=
  s!"CompilerConfig \x7b max_tag_depth: {l.tagDepth}, max_directive_depth: {l.directiveDepth} \x7d"

end Limits

end Stencil
