/- Parsing of segments into nodes, segment by segment, with a stack of the blocks that are open. -/
import Stencil.Expr.Parser
import Stencil.Failure.Basic
import Stencil.Node.Basic
import Stencil.Outcome
import Stencil.Segment.Lexer

namespace Stencil

/-- A finished branch of a condition. -/
structure Branch where
  test : Expr
  line : Nat
  nodes : List Node

/-- The condition with this branch and those after it in `no`. -/
def Branch.node (b : Branch) (no : List Node) : Node := .conditional b.test b.nodes no b.line

/-- A whole chain of conditions from its last one; the earlier branches come latest first. -/
def Branch.chain (last : Node) (earlier : List Branch) : Node :=
  earlier.foldl (fun rest b => b.node [rest]) last

/-- A block that a later directive has to close. `before` are the nodes read ahead of it, latest
first, and `opened` is the line of the directive that opened it. -/
inductive OpenBlock where
  | part (before : List Node) (name : Expr) (opened bodyLine : Nat)
  | branch (before : List Node) (earlier : List Branch) (test : Expr) (line opened : Nat)
  | otherwise (before : List Node) (earlier : List Branch) (last : Branch) (opened : Nat)

namespace OpenBlock

def kind : OpenBlock → BlockKind
  | .part .. => .part
  | .branch .. => .conditional
  | .otherwise .. => .conditional

def opened : OpenBlock → Nat
  | .part _ _ opened _ => opened
  | .branch _ _ _ _ opened => opened
  | .otherwise _ _ _ opened => opened

end OpenBlock

/-- Segments read in part. `nodes` are those of the innermost block, and `body` holds the segments
since the last part was opened, with that at hand; both latest first. -/
structure NodeProgress where
  line : Nat
  nodes : List Node
  enclosing : List OpenBlock
  body : List Segment
  inPart : Bool

namespace NodeProgress

/-- Nothing read yet. Inside a part no further part can be defined. -/
def start (inPart : Bool) : NodeProgress := ⟨1, [], [], [], inPart⟩

/-- The expression that a directive requires. -/
def argument (name : Text) (expression : Option Text) : Except Cause Expr :=
  match expression with
  | none => .error (.missingArgument name)
  | some body => (Expr.parse body).mapError (.badExpression body)

def add (n : Node) (s : NodeProgress) : NodeProgress := { s with nodes := n :: s.nodes }

/-- Opens a block, unless too many are open. -/
def push (limit : Nat) (b : OpenBlock) (s : NodeProgress) : Except Cause NodeProgress :=
  if s.enclosing.length < limit then .ok { s with nodes := [], enclosing := b :: s.enclosing }
  else .error (.directivesTooDeep limit)

def openPart (limit line bodyLine : Nat) (name : Expr) (s : NodeProgress) :
    Except Cause NodeProgress :=
  (s.push limit (.part s.nodes name line bodyLine)).map fun s =>
    { s with body := [], inPart := true }

/-- The body of a part is the source between its directive and the closing one, which is at hand. -/
def closePart (s : NodeProgress) (name : Text) : Except Cause NodeProgress :=
  match s.enclosing with
  | .part before part opened bodyLine :: rest =>
    let node := .part part (source (s.body.drop 1).reverse) s.nodes.reverse opened bodyLine
    .ok { s with nodes := node :: before, enclosing := rest, inPart := false }
  | _ => .error (.stray name .part)

/-- Ends a branch before another with a condition of its own. -/
def nextBranch (line : Nat) (s : NodeProgress) (name : Text) (expression : Option Text) :
    Except Cause NodeProgress :=
  match s.enclosing with
  | .branch before earlier test first opened :: rest =>
    (argument name expression).map fun next =>
      let done := ⟨test, first, s.nodes.reverse⟩ :: earlier
      { s with nodes := [], enclosing := .branch before done next line opened :: rest }
  | .otherwise .. :: _ =>
    match argument name expression with
    | .error e => .error e
    | .ok _ => .error .branchAfterElse
  | _ => .error (.stray name .conditional)

/-- Ends a branch before the one that has no condition. -/
def lastBranch (s : NodeProgress) (name : Text) : Except Cause NodeProgress :=
  match s.enclosing with
  | .branch before earlier test line opened :: rest =>
    let done := ⟨test, line, s.nodes.reverse⟩
    .ok { s with nodes := [], enclosing := .otherwise before earlier done opened :: rest }
  | .otherwise .. :: _ => .error .branchAfterElse
  | _ => .error (.stray name .conditional)

def closeBranches (s : NodeProgress) (name : Text) : Except Cause NodeProgress :=
  match s.enclosing with
  | .branch before earlier test line _ :: rest =>
    let last := Branch.node ⟨test, line, s.nodes.reverse⟩ []
    .ok { s with nodes := Branch.chain last earlier :: before, enclosing := rest }
  | .otherwise before earlier last _ :: rest =>
    let node := Branch.chain (last.node s.nodes.reverse) earlier
    .ok { s with nodes := node :: before, enclosing := rest }
  | _ => .error (.stray name .conditional)

/-- The step at a directive on line `line`, after which line `next` is reached. -/
def atDirective (limit line next : Nat) (s : NodeProgress) (name : Text)
    (expression : Option Text) : Except Cause NodeProgress :=
  match Keyword.ofName? name with
  | none => .error (.unknownDirective name)
  | some .part =>
    if s.inPart then .error .nestedPart
    else
      match argument name expression with
      | .error e => .error e
      | .ok part => s.openPart limit line next part
  | some .showPart => (argument name expression).map fun part => s.add (.showPart part line)
  | some .parent =>
    if expression.all (· == "()".toList) then .ok (s.add (.showParent line))
    else .error .parentWithArgument
  | some .ifThen =>
    match argument name expression with
    | .error e => .error e
    | .ok test => s.push limit (.branch s.nodes [] test line line)
  | some .endPart => s.closePart name
  | some .elseIf => s.nextBranch line name expression
  | some .otherwise => s.lastBranch name
  | some .endIf => s.closeBranches name

/-- Takes note of a segment that was read. -/
def advance (segment : Segment) (next : Nat) (s : NodeProgress) : NodeProgress :=
  { s with line := next, body := segment :: s.body }

def step (limit : Nat) (s : NodeProgress) (segment : Segment) : Except Failure NodeProgress :=
  let next := s.line + segment.raw.newlines
  match segment with
  | .directive _ _ name argument _ =>
    match (s.advance segment next).atDirective limit s.line next name
        (Segment.expression? argument) with
    | .ok after => .ok after
    | .error cause => .error ⟨cause, s.line⟩
  | _ => .ok ((s.advance segment next).add (.text segment.raw s.line))

def run (limit : Nat) (s : NodeProgress) : List Segment → Except Failure NodeProgress
  | [] => .ok s
  | segment :: rest =>
    match s.step limit segment with
    | .ok next => next.run limit rest
    | .error f => .error f

theorem run_append (limit : Nat) (s : NodeProgress) (ss ts : List Segment) :
    s.run limit (ss ++ ts) =
      match s.run limit ss with
      | .ok next => next.run limit ts
      | .error f => .error f := by
  induction ss generalizing s with
  | nil => rfl
  | cons segment ss ih =>
    rw [List.cons_append, run, run]
    cases s.step limit segment with
    | ok next => exact ih next
    | error f => rfl

theorem line_of_push {limit : Nat} {b : OpenBlock} {s next : NodeProgress}
    (h : s.push limit b = .ok next) : next.line = s.line := by
  unfold push at h
  split at h
  next => cases h; rfl
  next => cases h

theorem line_of_atDirective {limit line after : Nat} {s next : NodeProgress} {name : Text}
    {expression : Option Text} (h : s.atDirective limit line after name expression = .ok next) :
    next.line = s.line := by
  unfold atDirective at h
  split at h
  next => cases h
  next =>
    split at h
    next => cases h
    next =>
      split at h
      next => cases h
      next =>
        obtain ⟨mid, hpush, rfl⟩ := Outcome.map_eq_ok_iff.mp h
        have hline := line_of_push hpush
        exact hline
  next =>
    obtain ⟨_, _, rfl⟩ := Outcome.map_eq_ok_iff.mp h
    rfl
  next =>
    split at h
    next => cases h; rfl
    next => cases h
  next =>
    split at h
    next => cases h
    next => exact line_of_push h
  next =>
    unfold closePart at h
    split at h
    next => cases h; rfl
    next => cases h
  next =>
    unfold nextBranch at h
    split at h
    next =>
      obtain ⟨_, _, rfl⟩ := Outcome.map_eq_ok_iff.mp h
      rfl
    next => split at h <;> cases h
    next => cases h
  next =>
    unfold lastBranch at h
    split at h
    next => cases h; rfl
    next => cases h
    next => cases h
  next =>
    unfold closeBranches at h
    split at h
    next => cases h; rfl
    next => cases h; rfl
    next => cases h

theorem line_of_step {limit : Nat} {s next : NodeProgress} {segment : Segment}
    (h : s.step limit segment = .ok next) : next.line = s.line + segment.raw.newlines := by
  unfold step at h
  dsimp only at h
  split at h
  next =>
    split at h
    next hd => cases h; exact line_of_atDirective hd
    next => cases h
  next => cases h; rfl

/-- The line reached is counted by the text that was read. -/
theorem line_of_run {limit : Nat} {s next : NodeProgress} {ss : List Segment}
    (h : s.run limit ss = .ok next) : next.line = s.line + Text.newlines (source ss) := by
  induction ss generalizing s with
  | nil => cases h; rfl
  | cons segment ss ih =>
    rw [run] at h
    split at h
    next mid hs =>
      rw [ih h, line_of_step hs, source_cons, Text.newlines_append, Nat.add_assoc]
    next => cases h

def finish (s : NodeProgress) : Except Failure (List Node) :=
  match s.enclosing with
  | [] => .ok s.nodes.reverse
  | b :: _ => .error ⟨.unclosed b.kind, b.opened⟩

end NodeProgress

/-- The nodes of a template, or of the body of a part. At most `limit` blocks stand inside each
other. -/
def parseNodes (limit : Nat) (inPart : Bool) (ss : List Segment) : Except Failure (List Node) :=
  match (NodeProgress.start inPart).run limit ss with
  | .ok s => s.finish
  | .error f => .error f

end Stencil
