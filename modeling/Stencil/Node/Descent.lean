/- Parsing of passages by recursive descent into statements, which keep the branches of a condition
side by side. -/
import Stencil.Expr.Descent
import Stencil.Failure.Basic
import Stencil.Node.Basic
import Stencil.Segment.Passage

namespace Stencil

/-- A branch of a condition. The last one may stand without a condition of its own. -/
structure Arm (α : Type) where
  test : Option Expr
  line : Nat
  children : List α

/-- A node as it is written. -/
inductive Statement where
  | text (t : Text) (line : Nat)
  | part (name : Expr) (body : Text) (children : List Statement) (line bodyLine : Nat)
  | showPart (name : Expr) (line : Nat)
  | showParent (line : Nat)
  | conditional (arms : List (Arm Statement))

instance : Inhabited Statement := ⟨.text [] 1⟩

/-- Induction over a list of statements, which goes into the branches as well. -/
@[elab_as_elim]
theorem statementsInduction {P : List Statement → Prop} (nil : P [])
    (text : ∀ t line ss, P ss → P (.text t line :: ss))
    (part : ∀ name body children line bodyLine ss, P ss →
      P (.part name body children line bodyLine :: ss))
    (showPart : ∀ name line ss, P ss → P (.showPart name line :: ss))
    (showParent : ∀ line ss, P ss → P (.showParent line :: ss))
    (conditional : ∀ arms ss, (∀ a ∈ arms, P a.children) → P ss → P (.conditional arms :: ss))
    (ss : List Statement) : P ss :=
  Statement.rec_1 (motive_1 := fun s => ∀ ss, P ss → P (s :: ss)) (motive_2 := P)
    (motive_3 := fun arms => ∀ a ∈ arms, P a.children) (motive_4 := fun a => P a.children)
    text (fun name body children line bodyLine _ ss => part name body children line bodyLine ss)
    showPart showParent (fun arms harms ss => conditional arms ss harms)
    nil (fun _ ss hs => hs ss) (fun _ h => absurd h List.not_mem_nil)
    (fun _ _ ha harms => List.forall_mem_cons.mpr ⟨ha, harms⟩) (fun _ _ _ h => h) ss

/-- Branches as conditions inside each other. -/
def chainArms : List (Arm Node) → List Node
  | [] => []
  | ⟨some test, line, children⟩ :: arms => [.conditional test children (chainArms arms) line]
  | ⟨none, _, children⟩ :: _ => children

namespace Statement

mutual

/-- The nodes of a statement. -/
def nodes : Statement → List Node
  | .text t line => [.text t line]
  | .part name body children line bodyLine => [.part name body (allNodes children) line bodyLine]
  | .showPart name line => [.showPart name line]
  | .showParent line => [.showParent line]
  | .conditional arms => chainArms (armNodes arms)

def allNodes : List Statement → List Node
  | [] => []
  | s :: ss => s.nodes ++ allNodes ss

def armNodes : List (Arm Statement) → List (Arm Node)
  | [] => []
  | ⟨test, line, children⟩ :: arms => ⟨test, line, allNodes children⟩ :: armNodes arms

end

mutual

/-- The parts that a statement defines, branch after branch. -/
def definitions : Statement → List PartDefinition
  | .text _ _ => []
  | .part name body _ line bodyLine => [⟨name, body, line, bodyLine⟩]
  | .showPart _ _ => []
  | .showParent _ => []
  | .conditional arms => armDefinitions arms

def allDefinitions : List Statement → List PartDefinition
  | [] => []
  | s :: ss => s.definitions ++ allDefinitions ss

def armDefinitions : List (Arm Statement) → List PartDefinition
  | [] => []
  | ⟨_, _, children⟩ :: arms => allDefinitions children ++ armDefinitions arms

end

end Statement

/-- What a directive that closes something ends: everything, a part, or a branch. -/
inductive Enclosure where
  | root
  | part
  | conditional
deriving DecidableEq

/-- A directive that ended a list of statements. -/
inductive Terminator where
  | endPart
  | elseIf (test : Expr) (line : Nat)
  | otherwise (line : Nat)
  | endIf

/-- The passages that are left, and the line where the next one starts. -/
structure Cursor where
  line : Nat
  rest : List Passage

/-- The source up to a later cursor, without the passage in front of that one. -/
def Cursor.sourceTo (c last : Cursor) : Text :=
  (c.rest.take (c.rest.length - last.rest.length - 1)).flatMap Passage.raw

/-- What a directive adds to the statements around it, or that it ends them. -/
inductive Contribution where
  | statement (s : Statement)
  | terminator (t : Terminator)

namespace Descent

/-- The expression that a directive on `line` requires. -/
def argument (name : Text) (expression : Option Text) (line : Nat) : Attempt Failure Expr :=
  match expression with
  | none => some (.error ⟨.missingArgument name, line⟩)
  | some body => (Expr.descend body).map fun r => r.mapError fun e => ⟨.badExpression body e, line⟩

-- Every call has less fuel than its caller; without any the parser breaks off.
mutual

/-- Statements up to a directive that ends the enclosure, or to the end. -/
def statements (limit : Nat) : Nat → Enclosure → Bool → Nat → Cursor →
    Attempt Failure (List Statement × Option Terminator × Cursor)
  | 0, _, _, _, _ => none
  | _ + 1, _, _, _, ⟨line, []⟩ => some (.ok ([], none, ⟨line, []⟩))
  | fuel + 1, block, inPart, depth, ⟨line, p :: ps⟩ =>
    (passage limit fuel block inPart depth line p ⟨line + p.raw.newlines, ps⟩).andThen fun
      | (.terminator t, after) => some (.ok ([], some t, after))
      | (.statement s, after) =>
        (statements limit fuel block inPart depth after).andThen fun (ss, t, last) =>
          some (.ok (s :: ss, t, last))

/-- The passage that starts on line `start`, in front of the cursor. -/
def passage (limit : Nat) : Nat → Enclosure → Bool → Nat → Nat → Passage → Cursor →
    Attempt Failure (Contribution × Cursor)
  | 0, _, _, _, _, _, _ => none
  | fuel + 1, block, inPart, depth, start, p, after =>
    match p with
    | .directive name expression line _ =>
      match Keyword.ofName? name with
      | none => some (.error ⟨.unknownDirective name, line⟩)
      | some .part =>
        if inPart then some (.error ⟨.nestedPart, line⟩)
        else
          (argument name expression line).andThen fun partName =>
            if limit < depth + 1 then some (.error ⟨.directivesTooDeep limit, line⟩)
            else
              (statements limit fuel .part true (depth + 1) after).andThen fun
                | (children, some .endPart, last) =>
                  let body := after.sourceTo last
                  some (.ok (.statement (.part partName body children line after.line), last))
                | _ => some (.error ⟨.unclosed .part, line⟩)
      | some .showPart =>
        (argument name expression line).andThen fun part =>
          some (.ok (.statement (.showPart part line), after))
      | some .parent =>
        if expression.any (· != "()".toList) then some (.error ⟨.parentWithArgument, line⟩)
        else some (.ok (.statement (.showParent line), after))
      | some .ifThen =>
        (argument name expression line).andThen fun test =>
          if limit < depth + 1 then some (.error ⟨.directivesTooDeep limit, line⟩)
          else
            (arms limit fuel (some test) line line inPart (depth + 1) after).andThen fun
              (all, last) => some (.ok (.statement (.conditional all), last))
      | some .endPart =>
        if block = .part then some (.ok (.terminator .endPart, after))
        else some (.error ⟨.stray name .part, line⟩)
      | some .elseIf =>
        if block = .conditional then
          (argument name expression line).andThen fun test =>
            some (.ok (.terminator (.elseIf test line), after))
        else some (.error ⟨.stray name .conditional, line⟩)
      | some .otherwise =>
        if block = .conditional then some (.ok (.terminator (.otherwise line), after))
        else some (.error ⟨.stray name .conditional, line⟩)
      | some .endIf =>
        if block = .conditional then some (.ok (.terminator .endIf, after))
        else some (.error ⟨.stray name .conditional, line⟩)
    | p => some (.ok (.statement (.text p.raw start), after))

/-- The branches from one on whose condition has been read, up to the end of all of them. Their
first one is on line `opened`. -/
def arms (limit : Nat) : Nat → Option Expr → Nat → Nat → Bool → Nat → Cursor →
    Attempt Failure (List (Arm Statement) × Cursor)
  | 0, _, _, _, _, _, _ => none
  | fuel + 1, test, line, opened, inPart, depth, cursor =>
    (statements limit fuel .conditional inPart depth cursor).andThen fun
      | (children, some .endIf, after) => some (.ok ([⟨test, line, children⟩], after))
      | (children, some (.elseIf next nextLine), after) =>
        if test.isNone then some (.error ⟨.branchAfterElse, nextLine⟩)
        else
          (arms limit fuel (some next) nextLine opened inPart depth after).andThen
            fun (all, last) => some (.ok (⟨test, line, children⟩ :: all, last))
      | (children, some (.otherwise nextLine), after) =>
        if test.isNone then some (.error ⟨.branchAfterElse, nextLine⟩)
        else
          (arms limit fuel none nextLine opened inPart depth after).andThen
            fun (all, last) => some (.ok (⟨test, line, children⟩ :: all, last))
      | _ => some (.error ⟨.unclosed .conditional, opened⟩)

end

end Descent

/-- The statements of a template, or of the body of a part. Between two passages there are at most
three calls. -/
def parseStatements (limit : Nat) (inPart : Bool) (ps : List Passage) :
    Attempt Failure (List Statement) :=
  (Descent.statements limit (3 * ps.length + 1) .root inPart 0 ⟨1, ps⟩).andThen fun (ss, _, _) =>
    some (.ok ss)

end Stencil
