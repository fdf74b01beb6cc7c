/- Recursive descent comes to the same expressions and errors as the stacks do. -/
import Stencil.Expr.Descent
import Stencil.Expr.Parser

namespace Stencil

/-- The powers of an operator lie around twice its strength. -/
theorem BinaryOp.power_eq (o : BinaryOp) :
    3 ≤ o.strength ∧ o.strength ≤ 6 ∧ o.power.left + 2 = 2 * o.strength ∧
      o.power.right + 1 = 2 * o.strength := by
  cases o <;> decide

namespace Pending

/-- The power that an operator needs to hold the operand that this one waits for. -/
def power : Pending → Nat
  | .not => BindingPower.sign
  | .neg => BindingPower.sign
  | .binary op _ => op.power.right
  | .otherwise _ _ => BindingPower.conditional.right

theorem power_le_op_iff (p : Pending) (o : BinaryOp) :
    p.power ≤ o.power.left ↔ p.strength < o.strength := by
  obtain ⟨hlow, hhigh, hleft, -⟩ := o.power_eq
  cases p with
  | not =>
    show 12 ≤ o.power.left ↔ 7 < o.strength
    omega
  | neg =>
    show 12 ≤ o.power.left ↔ 7 < o.strength
    omega
  | binary op left =>
    obtain ⟨-, -, -, hright⟩ := op.power_eq
    show op.power.right ≤ o.power.left ↔ op.strength < o.strength
    omega
  | otherwise condition yes =>
    show 2 ≤ o.power.left ↔ 1 < o.strength
    omega

theorem power_le_conditional_iff (p : Pending) :
    p.power ≤ BindingPower.conditional.left ↔ p.strength < conditionStrength := by
  cases p with
  | not => exact (by decide : 12 ≤ 3 ↔ 7 < 2)
  | neg => exact (by decide : 12 ≤ 3 ↔ 7 < 2)
  | binary op left =>
    obtain ⟨hlow, -, -, hright⟩ := op.power_eq
    show op.power.right ≤ 3 ↔ op.strength < 2
    omega
  | otherwise condition yes => exact (by decide : 2 ≤ 3 ↔ 1 < 2)

end Pending

/-- The power that an operator needs to hold the operand at hand. -/
def leastPower : List Pending → Nat
  | [] => 0
  | p :: _ => p.power

theorem settle_of_op {ps : List Pending} {o : BinaryOp} (h : leastPower ps ≤ o.power.left)
    (e : Expr) : settle o.strength ps e = (ps, e) := by
  cases ps with
  | nil => rfl
  | cons p ps =>
    have hlt := (p.power_le_op_iff o).mp h
    rw [settle, if_neg (Nat.not_le_of_lt hlt)]

theorem settle_of_conditional {ps : List Pending}
    (h : leastPower ps ≤ BindingPower.conditional.left) (e : Expr) :
    settle Pending.conditionStrength ps e = (ps, e) := by
  cases ps with
  | nil => rfl
  | cons p ps =>
    have hlt := p.power_le_conditional_iff.mp h
    rw [settle, if_neg (Nat.not_le_of_lt hlt)]

/-- Whether the lexeme goes on with an operand that only operators of that power can hold. -/
def Lexeme.Extends (least : Nat) : Lexeme → Prop
  | .dot => True
  | .openBracket => True
  | .question => least ≤ BindingPower.conditional.left
  | .op o => least ≤ o.power.left
  | _ => False

/-- The next token does not go on with the operand. -/
def EndsOperand (least : Nat) (ts : List ExprToken) : Prop :=
  ∀ t ∈ ts.head?, ¬ t.lexeme.Extends least

/-- The next token takes no member of the operand. -/
def EndsMembers (ts : List ExprToken) : Prop :=
  ∀ t ∈ ts.head?, t.lexeme ≠ .dot ∧ t.lexeme ≠ .openBracket

theorem endsOperand_nil (least : Nat) : EndsOperand least [] := by
  intro t ht
  cases ht

theorem endsOperand_cons {least : Nat} {t : ExprToken} {ts : List ExprToken} :
    EndsOperand least (t :: ts) ↔ ¬ t.lexeme.Extends least := by
  simp [EndsOperand]

theorem EndsOperand.members {least : Nat} {ts : List ExprToken} (h : EndsOperand least ts) :
    EndsMembers ts := by
  intro t ht
  have hstops := h t ht
  constructor <;> (intro hl; rw [hl] at hstops; exact hstops trivial)

namespace Progress

/-- What an expression read in part comes to with the tokens that are left. -/
def comesTo (stop : Nat) (s : Progress) (ts : List ExprToken) : Except ParseError Expr :=
  match s.run ts with
  | .ok s => s.finish stop
  | .error e => .error e

variable {stop : Nat} {enclosing : List (Bracket × List Pending)} {ps : List Pending}
  {t : ExprToken} {ts : List ExprToken}

theorem comesTo_of_step {s next : Progress} (h : s.step t = .ok next) :
    s.comesTo stop (t :: ts) = next.comesTo stop ts := by
  rw [comesTo, run, h]
  rfl

theorem comesTo_of_step_error {s : Progress} {e : ParseError} (h : s.step t = .error e) :
    s.comesTo stop (t :: ts) = .error e := by
  rw [comesTo, run, h]

/-- Where the operand ends, every waiting operator gets it. -/
theorem afterValue_of_not_extends (enclosing : List (Bracket × List Pending)) (ps : List Pending)
    (e : Expr) (h : ¬ t.lexeme.Extends 0) :
    afterValue ⟨enclosing, ps, .value e⟩ e t =
      match close? ⟨enclosing, ps, .value e⟩ (settleAll ps e) t.lexeme with
      | some next => .ok next
      | none => .error (unclosed ⟨enclosing, ps, .value e⟩ t.position (some t.lexeme)) := by
  obtain ⟨l, position⟩ := t
  cases l with
  | dot => exact absurd trivial h
  | openBracket => exact absurd trivial h
  | question => exact absurd (Nat.zero_le _) h
  | op o => exact absurd (Nat.zero_le _) h
  | _ => rfl

/-- An operator that waits gets its operand where that ends, as it would when more is read. -/
theorem comesTo_complete {p : Pending} {e : Expr} (h : EndsOperand p.power ts) :
    comesTo stop ⟨enclosing, p :: ps, .value e⟩ ts =
      comesTo stop ⟨enclosing, ps, .value (p.complete e)⟩ ts := by
  cases ts with
  | nil => rfl
  | cons t ts =>
    have hstep : step ⟨enclosing, p :: ps, .value e⟩ t =
        step ⟨enclosing, ps, .value (p.complete e)⟩ t := by
      have hstops := endsOperand_cons.mp h
      obtain ⟨l, position⟩ := t
      cases l with
      | dot => exact absurd trivial hstops
      | openBracket => exact absurd trivial hstops
      | question =>
        have hle := Nat.le_of_not_lt (mt p.power_le_conditional_iff.mpr hstops)
        simp only [step, afterValue, settle, if_pos hle]
        rfl
      | op o =>
        have hle := Nat.le_of_not_lt (mt (p.power_le_op_iff o).mpr hstops)
        simp only [step, afterValue, settle, if_pos hle]
        rfl
      | _ => rfl
    rw [comesTo, comesTo, run, run, hstep]

end Progress

namespace Descent

open Progress

variable {α β : Type} {stop size : Nat} {s : Progress} {ts : List ExprToken}

/-- What was parsed agrees with the stacks: with what is left of `ts`, fewer than `size` tokens,
these come to the same from `resume`, and an error is the one that they come to. -/
inductive Follows (stop : Nat) (s : Progress) (ts : List ExprToken) (size : Nat)
    (after : List ExprToken → Prop) (resume : α → Progress) : Parsed α → Prop
  | error {e : ParseError} : s.comesTo stop ts = .error e →
      Follows stop s ts size after resume (some (.error e))
  | ok {a : α} {rest : List ExprToken} : rest.length < size → after rest →
      s.comesTo stop ts = (resume a).comesTo stop rest →
      Follows stop s ts size after resume (some (.ok (a, rest)))

section

variable {after : List ExprToken → Prop} {later : List ExprToken → Prop}
  {resume : α → Progress} {continued : β → Progress} {r : Parsed α}

theorem Follows.andThen {next : α × List ExprToken → Parsed β} {bound : Nat}
    (h : Follows stop s ts bound after resume r)
    (hnext : ∀ a rest, rest.length < bound → after rest →
      Follows stop (resume a) rest size later continued (next (a, rest))) :
    Follows stop s ts size later continued (r.andThen next) := by
  cases h with
  | error he => exact .error he
  | @ok a rest hlt hafter heq =>
    have hrest := hnext a rest hlt hafter
    rw [Attempt.ok_andThen]
    generalize next (a, rest) = result at hrest ⊢
    cases hrest with
    | error he => exact .error (heq.trans he)
    | ok hlt hlater hsame => exact .ok hlt hlater (heq.trans hsame)

theorem Follows.of_comesTo {s' : Progress} {ts' : List ExprToken}
    (h : Follows stop s' ts' size after resume r)
    (heq : s.comesTo stop ts = s'.comesTo stop ts') :
    Follows stop s ts size after resume r := by
  cases h with
  | error he => exact .error (heq.trans he)
  | ok hlt hafter hsame => exact .ok hlt hafter (heq.trans hsame)

theorem Follows.mono {bound : Nat} (h : Follows stop s ts bound after resume r)
    (hle : bound ≤ size) : Follows stop s ts size after resume r := by
  cases h with
  | error he => exact .error he
  | ok hlt hafter heq => exact .ok (Nat.lt_of_lt_of_le hlt hle) hafter heq

theorem Follows.step {t : ExprToken} {next : Progress} (hstep : s.step t = .ok next)
    (h : Follows stop next ts size after resume r) :
    Follows stop s (t :: ts) size after resume r :=
  h.of_comesTo (comesTo_of_step hstep)

end

/-- The closing of a bracket is looked for where the expression in it ends. -/
theorem follows_expect {enclosing : List (Bracket × List Pending)} {e : Expr} {l : Lexeme}
    {missing : ParseErrorKind} (next : Progress) (hts : EndsOperand 0 ts)
    (hclose : close? ⟨enclosing, [], .value e⟩ e l = some next)
    (hother : ∀ m, m ≠ l → close? ⟨enclosing, [], .value e⟩ e m = none)
    (hunclosed : ∀ position found, unclosed ⟨enclosing, [], .value e⟩ position found =
      .missingClosing missing position (found.elim .stop .lexeme)) :
    Follows stop ⟨enclosing, [], .value e⟩ ts ts.length (fun _ => True) (fun _ => next)
      (expect stop l missing ts) := by
  cases ts with
  | nil =>
    refine .error ?_
    cases enclosing with
    | nil => cases hclose
    | cons b enclosing => exact congrArg Except.error (hunclosed stop none)
  | cons t ts =>
    have hstep := afterValue_of_not_extends enclosing [] e (endsOperand_cons.mp hts)
    rw [settleAll, List.foldl_nil] at hstep
    rw [expect]
    split
    next hl =>
      rw [hl, hclose] at hstep
      exact .ok (Nat.lt_succ_self _) trivial (comesTo_of_step hstep)
    next hl =>
      rw [hother _ hl, hunclosed] at hstep
      exact .error (comesTo_of_step_error hstep)

theorem follows_property (enclosing : List (Bracket × List Pending)) (ps : List Pending) (e : Expr)
    (ts : List ExprToken) :
    Follows stop ⟨enclosing, ps, .property e⟩ ts ts.length (fun _ => True)
      (fun name => ⟨enclosing, ps, .value (.field e name)⟩) (property stop ts) := by
  cases ts with
  | nil => exact .error rfl
  | cons t ts =>
    rw [property]
    split
    next name hname =>
      have hstep : step ⟨enclosing, ps, .property e⟩ t =
          .ok ⟨enclosing, ps, .value (.field e name)⟩ := by
        simp only [step, atProperty, hname]
      exact .ok (Nat.lt_succ_self _) trivial (comesTo_of_step hstep)
    next hname =>
      have hstep : step ⟨enclosing, ps, .property e⟩ t = .error
          { kind := .missingPropertyName
            position := t.position
            found := some (.lexeme t.lexeme) } := by
        simp only [step, atProperty, hname]
      exact .error (comesTo_of_step_error hstep)

/-- The stacks would also end a list of arguments where an operand may start. -/
def Free (s : Progress) (ts : List ExprToken) : Prop :=
  ∀ name done outside enclosing, s.enclosing = (.call name done, outside) :: enclosing →
    s.pending = [] → ∀ t ∈ ts.head?, t.lexeme ≠ .closeParen

theorem free_of_pending {enclosing : List (Bracket × List Pending)} {p : Pending}
    {ps : List Pending} (phase : Phase) : Free ⟨enclosing, p :: ps, phase⟩ ts :=
  fun _ _ _ _ _ hnil => nomatch hnil

theorem atOperand_closeParen {enclosing : List (Bracket × List Pending)} {ps : List Pending}
    {position : Nat} (h : Free ⟨enclosing, ps, .operand⟩ (⟨.closeParen, position⟩ :: ts)) :
    atOperand ⟨enclosing, ps, .operand⟩ ⟨.closeParen, position⟩ = .error
      { kind := .expectedExpression, position, found := some (.lexeme .closeParen) } := by
  cases ps with
  | cons p ps =>
    cases enclosing with
    | nil => rfl
    | cons b enclosing =>
      obtain ⟨b, outside⟩ := b
      cases b <;> rfl
  | nil =>
    cases enclosing with
    | nil => rfl
    | cons b enclosing =>
      obtain ⟨b, outside⟩ := b
      cases b with
      | call name done => exact absurd rfl (h name done outside enclosing rfl rfl _ rfl)
      | _ => rfl

/-- A name that is not called is a value. -/
theorem comesTo_name {enclosing : List (Bracket × List Pending)} {ps : List Pending} {name : Text}
    (h : ∀ position rest, ts = ⟨.openParen, position⟩ :: rest → False) :
    comesTo stop ⟨enclosing, ps, .name name⟩ ts =
      comesTo stop ⟨enclosing, ps, .value (.ofName name)⟩ ts := by
  cases ts with
  | nil => rfl
  | cons t ts =>
    have hne : t.lexeme ≠ .openParen := by
      intro hl
      obtain ⟨l, position⟩ := t
      exact h position ts (by rw [← hl])
    have hstep : step ⟨enclosing, ps, .name name⟩ t =
        step ⟨enclosing, ps, .value (.ofName name)⟩ t := if_neg hne
    rw [comesTo, comesTo, run, run, hstep]

/-- Only a comma or the closing parenthesis goes on behind an argument. -/
theorem close?_call {enclosing : List (Bracket × List Pending)} {name : Text} {done : List Expr}
    {outside : List Pending} {e : Expr} {l : Lexeme} (hcomma : l ≠ .comma)
    (hclosing : l ≠ .closeParen) :
    close? ⟨(.call name done, outside) :: enclosing, [], .value e⟩ e l = none := by
  cases l with
  | comma => exact absurd rfl hcomma
  | closeParen => exact absurd rfl hclosing
  | _ => rfl

/-- With so much fuel, what is parsed agrees with the stacks. -/
structure Agrees (stop fuel : Nat) : Prop where
  expression : ∀ enclosing ps ts, Free ⟨enclosing, ps, .operand⟩ ts → 4 * ts.length + 3 ≤ fuel →
    Follows stop ⟨enclosing, ps, .operand⟩ ts ts.length (EndsOperand (leastPower ps))
      (⟨enclosing, ps, .value ·⟩) (expression stop fuel (leastPower ps) ts)
  operators : ∀ enclosing ps e ts, EndsMembers ts → 4 * ts.length + 1 ≤ fuel →
    Follows stop ⟨enclosing, ps, .value e⟩ ts (ts.length + 1) (EndsOperand (leastPower ps))
      (⟨enclosing, ps, .value ·⟩) (operators stop fuel (leastPower ps) e ts)
  operand : ∀ enclosing ps ts, Free ⟨enclosing, ps, .operand⟩ ts → 4 * ts.length + 2 ≤ fuel →
    Follows stop ⟨enclosing, ps, .operand⟩ ts ts.length EndsMembers
      (⟨enclosing, ps, .value ·⟩) (operand stop fuel ts)
  members : ∀ enclosing ps e ts, 4 * ts.length + 1 ≤ fuel →
    Follows stop ⟨enclosing, ps, .value e⟩ ts (ts.length + 1) EndsMembers
      (⟨enclosing, ps, .value ·⟩) (members stop fuel e ts)
  primary : ∀ enclosing ps ts, Free ⟨enclosing, ps, .operand⟩ ts →
    (∀ t ∈ ts.head?, t.lexeme ≠ .bang ∧ t.lexeme ≠ .minus) → 4 * ts.length + 1 ≤ fuel →
    Follows stop ⟨enclosing, ps, .operand⟩ ts ts.length (fun _ => True)
      (⟨enclosing, ps, .value ·⟩) (primary stop fuel ts)
  arguments : ∀ enclosing ps name done ts, 4 * ts.length + 4 ≤ fuel →
    Follows stop ⟨(.call name done, ps) :: enclosing, [], .operand⟩ ts ts.length (fun _ => True)
      (fun args => ⟨enclosing, ps, .value (.call name args)⟩) (arguments stop fuel done ts)

section

variable {fuel : Nat} (h : Agrees stop fuel) (enclosing : List (Bracket × List Pending))
  (ps : List Pending)
include h

theorem Agrees.expression_succ (hfree : Free ⟨enclosing, ps, .operand⟩ ts)
    (hfuel : 4 * ts.length + 3 ≤ fuel + 1) :
    Follows stop ⟨enclosing, ps, .operand⟩ ts ts.length (EndsOperand (leastPower ps))
      (⟨enclosing, ps, .value ·⟩) (Descent.expression stop (fuel + 1) (leastPower ps) ts) := by
  rw [Descent.expression]
  refine (h.operand enclosing ps ts hfree (by omega)).andThen fun left rest hlt hmembers => ?_
  exact (h.operators enclosing ps left rest hmembers (by omega)).mono hlt

/-- An operand that an operator waits for is taken as far as that operator can hold it. -/
theorem Agrees.waiting (p : Pending) (hfuel : 4 * ts.length + 3 ≤ fuel) :
    Follows stop ⟨enclosing, p :: ps, .operand⟩ ts ts.length (EndsOperand p.power)
      (fun e => ⟨enclosing, ps, .value (p.complete e)⟩)
      (Descent.expression stop fuel p.power ts) := by
  have hoperand := h.expression enclosing (p :: ps) ts (free_of_pending _) hfuel
  rw [leastPower] at hoperand
  generalize Descent.expression stop fuel p.power ts = r at hoperand ⊢
  cases hoperand with
  | error he => exact .error he
  | ok hlt hstops heq => exact .ok hlt hstops (heq.trans (comesTo_complete hstops))

/-- An expression in brackets ends where nothing goes on with it. -/
theorem Agrees.inside (b : Bracket) (hb : ∀ name done, b ≠ .call name done)
    (hfuel : 4 * ts.length + 3 ≤ fuel) :
    Follows stop ⟨(b, ps) :: enclosing, [], .operand⟩ ts ts.length (EndsOperand 0)
      (⟨(b, ps) :: enclosing, [], .value ·⟩) (Descent.expression stop fuel 0 ts) := by
  refine h.expression ((b, ps) :: enclosing) [] ts ?_ hfuel
  intro name done outside rest heq
  exact absurd (Prod.mk.inj (List.cons.inj heq).1).1 (hb name done)

theorem Agrees.operators_succ {e : Expr} (hmembers : EndsMembers ts)
    (hfuel : 4 * ts.length + 1 ≤ fuel + 1) :
    Follows stop ⟨enclosing, ps, .value e⟩ ts (ts.length + 1) (EndsOperand (leastPower ps))
      (⟨enclosing, ps, .value ·⟩) (Descent.operators stop (fuel + 1) (leastPower ps) e ts) := by
  cases ts with
  | nil => exact .ok (Nat.lt_succ_self _) (endsOperand_nil _) rfl
  | cons t ts =>
    have hmember := hmembers t rfl
    rw [List.length_cons] at hfuel
    have hstay (hstops : ¬ t.lexeme.Extends (leastPower ps)) :
        Follows stop ⟨enclosing, ps, .value e⟩ (t :: ts) ((t :: ts).length + 1)
          (EndsOperand (leastPower ps)) (⟨enclosing, ps, .value ·⟩) (some (.ok (e, t :: ts))) :=
      .ok (Nat.lt_succ_self _) (endsOperand_cons.mpr hstops) rfl
    rw [Descent.operators]
    split
    next hl =>
      split
      next hlt => exact hstay (by rw [hl]; exact Nat.not_le_of_lt hlt)
      next hle =>
        have hstep : step ⟨enclosing, ps, .value e⟩ t =
            .ok (enter (.conditional e) ps ⟨enclosing, ps, .value e⟩) := by
          simp only [step, afterValue, hl, settle_of_conditional (Nat.le_of_not_lt hle)]
        refine .step hstep ?_
        refine (h.inside enclosing ps (.conditional e) nofun (by omega)).andThen
          fun yes rest hrest hstops => ?_
        refine (follows_expect ⟨enclosing, .otherwise e yes :: ps, .operand⟩ hstops rfl
          (fun m hm => ?_) (fun _ found => ?_)).andThen fun _ rest' hrest' _ => ?_
        · cases m <;> first | rfl | exact absurd rfl hm
        · cases found <;> rfl
        · refine (h.waiting enclosing ps (.otherwise e yes) (by omega)).andThen
            fun no last hlast hstops => ?_
          exact (h.operators enclosing ps _ last hstops.members (by omega)).mono
            (by rw [List.length_cons]; omega)
    next o hl =>
      split
      next hlt => exact hstay (by rw [hl]; exact Nat.not_le_of_lt hlt)
      next hle =>
        have hstep : step ⟨enclosing, ps, .value e⟩ t =
            .ok ⟨enclosing, .binary o e :: ps, .operand⟩ := by
          simp only [step, afterValue, hl, settle_of_op (Nat.le_of_not_lt hle)]
          rfl
        refine .step hstep ?_
        refine (h.waiting enclosing ps (.binary o e) (by omega)).andThen
          fun right rest hrest hstops => ?_
        exact (h.operators enclosing ps _ rest hstops.members (by omega)).mono
          (by rw [List.length_cons]; omega)
    next hquestion hop =>
      refine hstay ?_
      obtain ⟨l, position⟩ := t
      cases l with
      | dot => exact absurd rfl hmember.1
      | openBracket => exact absurd rfl hmember.2
      | question => exact absurd rfl hquestion
      | op o => exact absurd rfl (hop o)
      | _ => exact id

theorem Agrees.members_succ {e : Expr} (hfuel : 4 * ts.length + 1 ≤ fuel + 1) :
    Follows stop ⟨enclosing, ps, .value e⟩ ts (ts.length + 1) EndsMembers
      (⟨enclosing, ps, .value ·⟩) (Descent.members stop (fuel + 1) e ts) := by
  cases ts with
  | nil => exact .ok (Nat.lt_succ_self _) (endsOperand_nil 0).members rfl
  | cons t ts =>
    rw [List.length_cons] at hfuel
    rw [Descent.members]
    split
    next hl =>
      have hstep : step ⟨enclosing, ps, .value e⟩ t =
          .ok (enter (.index e) ps ⟨enclosing, ps, .value e⟩) := by
        simp only [step, afterValue, hl]
      refine .step hstep ?_
      refine (h.inside enclosing ps (.index e) nofun (by omega)).andThen
        fun key rest hrest hstops => ?_
      refine (follows_expect ⟨enclosing, ps, .value (.index e key)⟩ hstops rfl
        (fun m hm => ?_) (fun _ found => ?_)).andThen fun _ rest' hrest' _ => ?_
      · cases m <;> first | rfl | exact absurd rfl hm
      · cases found <;> rfl
      · exact (h.members enclosing ps _ rest' (by omega)).mono (by rw [List.length_cons]; omega)
    next hl =>
      have hstep : step ⟨enclosing, ps, .value e⟩ t = .ok ⟨enclosing, ps, .property e⟩ := by
        simp only [step, afterValue, hl]
      refine .step hstep ?_
      refine (follows_property enclosing ps e ts).andThen fun name rest hrest _ => ?_
      exact (h.members enclosing ps _ rest (by omega)).mono (by rw [List.length_cons]; omega)
    next hbracket hdot =>
      refine .ok (Nat.lt_succ_self _) ?_ rfl
      intro u hu
      cases hu
      exact ⟨hdot, hbracket⟩

theorem Agrees.operand_succ (hfree : Free ⟨enclosing, ps, .operand⟩ ts)
    (hfuel : 4 * ts.length + 2 ≤ fuel + 1) :
    Follows stop ⟨enclosing, ps, .operand⟩ ts ts.length EndsMembers
      (⟨enclosing, ps, .value ·⟩) (Descent.operand stop (fuel + 1) ts) := by
  rw [Descent.operand.eq_def]
  dsimp only
  split
  next position rest =>
    rw [List.length_cons] at hfuel
    have hstep : step ⟨enclosing, ps, .operand⟩ ⟨.bang, position⟩ =
        .ok ⟨enclosing, .not :: ps, .operand⟩ := rfl
    refine .step hstep ?_
    refine (h.waiting enclosing ps .not (by omega)).andThen fun e rest hrest hstops => ?_
    exact .ok (Nat.lt_succ_of_lt hrest) hstops.members rfl
  next position rest =>
    rw [List.length_cons] at hfuel
    have hstep : step ⟨enclosing, ps, .operand⟩ ⟨.minus, position⟩ =
        .ok ⟨enclosing, .neg :: ps, .operand⟩ := rfl
    refine .step hstep ?_
    refine (h.waiting enclosing ps .neg (by omega)).andThen fun e rest hrest hstops => ?_
    exact .ok (Nat.lt_succ_of_lt hrest) hstops.members rfl
  next hbang hminus =>
    have hsign : ∀ t ∈ ts.head?, t.lexeme ≠ .bang ∧ t.lexeme ≠ .minus := by
      intro t ht
      obtain ⟨rest, rfl⟩ := List.head?_eq_some_iff.mp ht
      obtain ⟨l, position⟩ := t
      exact ⟨fun hl => hbang position rest (by rw [← hl]),
        fun hl => hminus position rest (by rw [← hl])⟩
    refine (h.primary enclosing ps ts hfree hsign (by omega)).andThen fun e rest hrest _ => ?_
    exact (h.members enclosing ps e rest (by omega)).mono hrest

theorem Agrees.primary_succ (hfree : Free ⟨enclosing, ps, .operand⟩ ts)
    (hsign : ∀ t ∈ ts.head?, t.lexeme ≠ .bang ∧ t.lexeme ≠ .minus)
    (hfuel : 4 * ts.length + 1 ≤ fuel + 1) :
    Follows stop ⟨enclosing, ps, .operand⟩ ts ts.length (fun _ => True)
      (⟨enclosing, ps, .value ·⟩) (Descent.primary stop (fuel + 1) ts) := by
  cases ts with
  | nil => exact .error rfl
  | cons t ts =>
    obtain ⟨l, position⟩ := t
    rw [List.length_cons] at hfuel
    cases l with
    | text v => exact .ok (Nat.lt_succ_self _) trivial rfl
    | number n => exact .ok (Nat.lt_succ_self _) trivial rfl
    | var name => exact .ok (Nat.lt_succ_self _) trivial rfl
    | ident name =>
      have hstep : step ⟨enclosing, ps, .operand⟩ ⟨.ident name, position⟩ =
          .ok ⟨enclosing, ps, .name name⟩ := rfl
      refine .step hstep ?_
      rw [Descent.primary]
      dsimp only
      split
      next position rest =>
        rw [List.length_cons] at hfuel
        have hstep : step ⟨enclosing, ps, .name name⟩ ⟨.openParen, position⟩ =
            .ok ⟨(.call name [], ps) :: enclosing, [], .operand⟩ := rfl
        refine .step hstep ?_
        refine (h.arguments enclosing ps name [] rest (by omega)).andThen
          fun args rest' hrest' _ => ?_
        exact .ok (by simp only [List.length_cons]; omega) trivial rfl
      next hparen => exact .ok (Nat.lt_succ_self _) trivial (comesTo_name hparen)
    | openParen =>
      have hstep : step ⟨enclosing, ps, .operand⟩ ⟨.openParen, position⟩ =
          .ok ⟨(.group, ps) :: enclosing, [], .operand⟩ := rfl
      refine .step hstep ?_
      refine (h.inside enclosing ps .group nofun (by omega)).andThen fun e rest hrest hstops => ?_
      refine (follows_expect ⟨enclosing, ps, .value e⟩ hstops rfl
        (fun m hm => ?_) (fun _ found => ?_)).andThen fun _ rest' hrest' _ => ?_
      · cases m <;> first | rfl | exact absurd rfl hm
      · cases found <;> rfl
      · exact .ok (by rw [List.length_cons]; omega) trivial rfl
    | closeParen => exact .error (comesTo_of_step_error (atOperand_closeParen hfree))
    | bang => exact absurd rfl (hsign _ rfl).1
    | minus => exact absurd rfl (hsign _ rfl).2
    | _ => exact .error rfl

theorem Agrees.arguments_succ (name : Text) (done : List Expr)
    (hfuel : 4 * ts.length + 4 ≤ fuel + 1) :
    Follows stop ⟨(.call name done, ps) :: enclosing, [], .operand⟩ ts ts.length (fun _ => True)
      (fun args => ⟨enclosing, ps, .value (.call name args)⟩)
      (Descent.arguments stop (fuel + 1) done ts) := by
  rw [Descent.arguments.eq_def]
  dsimp only
  split
  next position rest => exact .ok (Nat.lt_succ_self _) trivial rfl
  next hclose =>
    have hfree : Free ⟨(.call name done, ps) :: enclosing, [], .operand⟩ ts := by
      intro _ _ _ _ _ _ t ht hl
      obtain ⟨rest, rfl⟩ := List.head?_eq_some_iff.mp ht
      obtain ⟨l, position⟩ := t
      exact hclose position rest (by rw [← hl])
    refine (h.expression _ [] ts hfree (by omega)).andThen fun e rest hrest hstops => ?_
    cases rest with
    | nil => exact .error rfl
    | cons t rest =>
      rw [List.length_cons] at hrest
      have hstep := afterValue_of_not_extends ((.call name done, ps) :: enclosing) [] e
        (endsOperand_cons.mp hstops)
      dsimp only
      split
      next hl =>
        rw [hl] at hstep
        refine .step hstep ?_
        exact (h.arguments enclosing ps name (done ++ [e]) rest (by omega)).mono (by omega)
      next hl =>
        rw [hl] at hstep
        refine .ok (by omega) trivial (comesTo_of_step hstep)
      next hcomma hclosing =>
        rw [settleAll, List.foldl_nil, close?_call hcomma hclosing] at hstep
        exact .error (comesTo_of_step_error hstep)

end

theorem agrees (stop fuel : Nat) : Agrees stop fuel := by
  induction fuel with
  | zero =>
    -- Without fuel nothing is promised.
    constructor <;> intros <;> omega
  | succ fuel ih =>
    exact {
      expression := fun enclosing ps _ hfree hfuel => ih.expression_succ enclosing ps hfree hfuel
      operators := fun enclosing ps _ _ hmembers hfuel =>
        ih.operators_succ enclosing ps hmembers hfuel
      operand := fun enclosing ps _ hfree hfuel => ih.operand_succ enclosing ps hfree hfuel
      members := fun enclosing ps _ _ hfuel => ih.members_succ enclosing ps hfuel
      primary := fun enclosing ps _ hfree hsign hfuel =>
        ih.primary_succ enclosing ps hfree hsign hfuel
      arguments := fun enclosing ps name done _ hfuel =>
        ih.arguments_succ enclosing ps name done hfuel }

end Descent

/-- Recursive descent ends with the expression or the error of the stacks. -/
theorem TokenRun.descend_eq (r : TokenRun) : r.descend = some r.parse := by
  have hfree : Descent.Free Progress.start r.tokens := fun _ _ _ _ hcall => nomatch hcall
  have hagrees := (Descent.agrees r.stop _).expression [] [] r.tokens hfree (Nat.le_refl _)
  have hparse : r.parse = Progress.start.comesTo r.stop r.tokens := rfl
  rw [leastPower] at hagrees
  rw [TokenRun.descend, Descent.complete, hparse]
  generalize Descent.expression r.stop (4 * r.tokens.length + 3) 0 r.tokens = result at hagrees ⊢
  cases hagrees with
  | error he => exact congrArg some he.symm
  | @ok e rest _ hstops heq =>
    rw [Progress.start, heq]
    cases rest with
    | nil => rfl
    | cons t rest =>
      have hstep : Progress.step ⟨[], [], .value e⟩ t = _ :=
        Progress.afterValue_of_not_extends _ _ _ (endsOperand_cons.mp hstops)
      exact congrArg some (Progress.comesTo_of_step_error hstep).symm

theorem Expr.descend_eq (t : Text) : Expr.descend t = some (Expr.parse t) := by
  rw [Expr.descend, Expr.parse]
  cases exprTokens t with
  | ok r => exact r.descend_eq
  | error e => rfl

end Stencil
