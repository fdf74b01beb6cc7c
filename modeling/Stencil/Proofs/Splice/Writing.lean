/- The directive stage writes the splice that its nodes are carried out to. -/
import Stencil.Proofs.Node.Descent
import Stencil.Proofs.Segment.Turns
import Stencil.Proofs.Splice.Output
import Stencil.Splice.Writing

namespace Stencil

/-- Reading always ends, and marks off the segments that the text is cut into. -/
theorem readPassages_eq (ds : DelimiterSet) (t : Text) :
    readPassages ds t =
      some ((segments ds t).map fun ss => (tokensFrom 1 0 ss, passagesOf 1 0 ss)) := by
  rw [readPassages, Scan.run_of_le ds t (Nat.le_succ _), tokenize]
  cases hss : segments ds t with
  | error e => rfl
  | ok ss =>
    have hpassages := passages?_of_segments hss
    show (passages? t (tokensFrom 1 0 ss)).map _ = _
    rw [hpassages]
    rfl

namespace Rendering

variable {r : Rendering} {write : Inclusion → Output → Attempt Failure Output}
  {expand : Inclusion → Except Failure Splice} {part : Option ShownPart} {origin : Origin}

theorem renderNodes_append (ns ms : List Node) :
    r.renderNodes expand part origin (ns ++ ms) =
      match r.renderNodes expand part origin ns with
      | .error f => .error f
      | .ok first => (r.renderNodes expand part origin ms).map (first ++ ·) := by
  induction ns with
  | nil =>
    rw [List.nil_append, renderNodes]
    cases r.renderNodes expand part origin ms <;> rfl
  | cons n ns ih =>
    rw [List.cons_append, renderNodes, renderNodes, ih]
    cases r.renderNode expand part origin n with
    | error f => rfl
    | ok first =>
      cases r.renderNodes expand part origin ns with
      | error f => rfl
      | ok second =>
        cases r.renderNodes expand part origin ms with
        | error f => rfl
        | ok rest => exact congrArg Except.ok (List.append_assoc first second rest).symm

theorem renderNodes_singleton (n : Node) :
    r.renderNodes expand part origin [n] = r.renderNode expand part origin n := by
  rw [renderNodes]
  cases r.renderNode expand part origin n with
  | error f => rfl
  | ok s => exact congrArg Except.ok (List.append_nil s)

/-- What writing behind an output ends in, if the same is carried out to that. -/
def writes (out : Output) (r : Except Failure Splice) : Attempt Failure Output :=
  some (r.map (Splice.writtenTo out))

theorem writes_andThen {r : Except Failure Splice} {rest : Except Failure Splice} {out : Output}
    {next : Output → Attempt Failure Output} (hnext : ∀ out, next out = writes out rest) :
    (writes out r).andThen next =
      writes out (match r with
        | .error f => .error f
        | .ok first => rest.map (first ++ ·)) := by
  cases r with
  | error f => rfl
  | ok first =>
    show next (first.writtenTo out) = _
    rw [hnext]
    cases rest with
    | error f => rfl
    | ok second =>
      exact congrArg (fun o => (some (.ok o) : Attempt Failure Output))
        (Splice.writtenTo_append out first second).symm

theorem writes_renderNode (n : Node) {ms : List Node} (out : Output)
    {next : Output → Attempt Failure Output}
    (hnext : ∀ out, next out = writes out (r.renderNodes expand part origin ms)) :
    (writes out (r.renderNode expand part origin n)).andThen next =
      writes out (r.renderNodes expand part origin ([n] ++ ms)) := by
  rw [writes_andThen hnext, renderNodes_append, renderNodes_singleton]

/-- Of branches side by side the first that holds is written, as the conditions inside each other
have it. -/
theorem writeArms_eq {arms : List (Arm Statement)}
    (h : ∀ a ∈ arms, ∀ out, r.writeStatements write part origin a.children out =
      writes out (r.renderNodes expand part origin (Statement.allNodes a.children)))
    (out : Output) :
    r.writeArms write part origin arms out =
      writes out (r.renderNodes expand part origin (chainArms (Statement.armNodes arms))) := by
  induction arms with
  | nil => rfl
  | cons a arms ih =>
    obtain ⟨ha, harms⟩ := List.forall_mem_cons.mp h
    obtain ⟨test, line, children⟩ := a
    cases test with
    | none =>
      rw [writeArms, Statement.armNodes, chainArms]
      exact ha out
    | some test =>
      rw [writeArms, Statement.armNodes, chainArms, renderNodes_singleton, renderNode]
      cases r.scope.eval test with
      | error e => rfl
      | ok v =>
        dsimp only
        cases v.isTruthy with
        | true => exact ha out
        | false => exact ih harms

/-- Statements write what their nodes are carried out to, if bodies do. -/
theorem writeStatements_eq (hwrite : ∀ i out, write i out = writes out (expand i))
    (ss : List Statement) (out : Output) :
    r.writeStatements write part origin ss out =
      writes out (r.renderNodes expand part origin (Statement.allNodes ss)) := by
  induction ss using statementsInduction generalizing out with
  | nil => rfl
  | text t line ss ih => exact writes_renderNode (.text t line) out ih
  | part name body children line bodyLine ss ih =>
    exact writes_renderNode (.part name body (Statement.allNodes children) line bodyLine) out ih
  | showPart name line ss ih =>
    rw [writeStatements, writeStatement, Statement.allNodes, Statement.nodes,
      ← writes_renderNode _ out ih, renderNode]
    cases r.scope.nameOf name with
    | error e => rfl
    | ok name =>
      dsimp only
      cases r.shown name (origin.line line) with
      | error cause => rfl
      | ok i =>
        dsimp only
        rw [hwrite]
  | showParent line ss ih =>
    rw [writeStatements, writeStatement, Statement.allNodes, Statement.nodes,
      ← writes_renderNode _ out ih, renderNode]
    cases r.inherited (origin.line line) part with
    | error cause => rfl
    | ok i =>
      dsimp only
      rw [hwrite]
  | conditional arms ss harms ih =>
    rw [writeStatements, writeStatement, Statement.allNodes, Statement.nodes, writeArms_eq harms,
      writes_andThen ih, renderNodes_append]

/-- A body is written as it is expanded. -/
theorem writeBody_eq (r : Rendering) (budget : Nat) (i : Inclusion) (out : Output) :
    r.writeBody budget i out = writes out (r.expand budget i) := by
  induction budget generalizing i out with
  | zero => rfl
  | succ budget ih =>
    rw [writeBody, expand, nodesOf, readPassages_eq]
    cases segments r.template.own.delimiters i.body with
    | error e => rfl
    | ok ss =>
      obtain ⟨result, hparse, hnodes, -⟩ := parseStatements_eq r.limit true 0 ss
      dsimp only [Except.map]
      rw [hparse, ← hnodes]
      cases result with
      | error f => rfl
      | ok statements => exact writeStatements_eq ih statements out

end Rendering

end Stencil
