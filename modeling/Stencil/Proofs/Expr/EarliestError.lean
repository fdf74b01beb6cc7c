/- Parsing fails at the first token that no expression goes on with. -/
import Stencil.Outcome
import Stencil.Proofs.Expr.Parsing

namespace Stencil

/-- What closes a bracket around a complete expression. A condition still needs its other branch,
for which any operand does. -/
def Bracket.ending : Bracket → List Lexeme
  | .group => [.closeParen]
  | .call _ _ => [.closeParen]
  | .index _ => [.closeBracket]
  | .conditional _ => [.colon, .text []]

/-- Some expression starts with these tokens: there are lexemes that complete it, wherever they
stand. -/
def BeginsExpr (ts : List ExprToken) : Prop :=
  ∃ ls : List Lexeme, ∀ us stop, us.map ExprToken.lexeme = ls →
    ∃ e, TokenRun.parse ⟨ts ++ us, stop⟩ = .ok e

namespace Progress

section Position

variable {s : Progress} {e : Expr} {t : ExprToken} {error : ParseError}

theorem position_unclosed (s : Progress) (position : Nat) (found : Option Lexeme) :
    (s.unclosed position found).position = position := by
  obtain ⟨enclosing, pending, phase⟩ := s
  match enclosing with
  | [] => rfl
  | (.group, _) :: _ => rfl
  | (.call _ _, _) :: _ => cases found <;> rfl
  | (.index _, _) :: _ => rfl
  | (.conditional _, _) :: _ => rfl

theorem position_of_atOperand (h : s.atOperand t = .error error) :
    error.position = t.position := by
  unfold atOperand at h
  split at h <;> try cases h
  split at h
  · cases h
  · cases h
    rfl

theorem position_of_afterValue (h : s.afterValue e t = .error error) :
    error.position = t.position := by
  unfold afterValue at h
  split at h <;> try cases h
  split at h
  · cases h
  · cases h
    exact position_unclosed s t.position _

theorem position_of_atProperty (h : s.atProperty e t = .error error) :
    error.position = t.position := by
  unfold atProperty at h
  split at h
  · cases h
  · cases h
    rfl

/-- Every error of a step is one of the token at hand. -/
theorem position_of_step (h : s.step t = .error error) : error.position = t.position := by
  unfold step at h
  split at h
  next => exact position_of_atOperand h
  next =>
    split at h
    next => cases h
    next => exact position_of_afterValue h
  next => exact position_of_afterValue h
  next => exact position_of_atProperty h

theorem position_of_finish {stop : Nat} (h : s.finish stop = .error error) :
    error.position = stop := by
  have hvalue : ∀ {e : Expr}, s.finishValue e stop = .error error → error.position = stop := by
    intro e he
    unfold finishValue at he
    split at he
    next => cases he
    next =>
      cases he
      exact position_unclosed s stop none
  unfold finish at h
  split at h
  next => cases h; rfl
  next => exact hvalue h
  next => exact hvalue h
  next => cases h; rfl

theorem exists_step_of_run {ts : List ExprToken} (h : s.run ts = .error error) :
    ∃ before t after mid, ts = before ++ t :: after ∧ s.run before = .ok mid ∧
      mid.step t = .error error := by
  induction ts generalizing s with
  | nil => cases h
  | cons t ts ih =>
    rw [run] at h
    split at h
    next next hnext =>
      obtain ⟨before, u, after, mid, rfl, hrun, hstep⟩ := ih h
      refine ⟨t :: before, u, after, mid, rfl, ?_, hstep⟩
      rw [run, hnext]
      exact hrun
    next failure hfailure =>
      cases h
      exact ⟨[], t, ts, s, rfl, rfl, hfailure⟩

end Position

variable {enclosing : List (Bracket × List Pending)} {pending outside : List Pending}
  {phase : Phase} {e : Expr}

theorem exists_leads_ending (b : Bracket) (he : phase.Holds e) : ∃ qs phase' e',
    Leads ⟨(b, outside) :: enclosing, pending, phase⟩ b.ending ⟨enclosing, qs, phase'⟩ ∧
      phase'.Holds e' := by
  cases b with
  | group => exact ⟨_, _, _, .after he nofun (fun _ => rfl) (.nil _), .value _⟩
  | call name done => exact ⟨_, _, _, .after he nofun (fun _ => rfl) (.nil _), .value _⟩
  | index target => exact ⟨_, _, _, .after he nofun (fun _ => rfl) (.nil _), .value _⟩
  | conditional condition =>
    exact ⟨_, _, _, .after he nofun (fun _ => rfl) (.single fun _ => rfl), .value _⟩

/-- An expression that is complete up to its open brackets can be closed. -/
theorem exists_leads_endings (enclosing : List (Bracket × List Pending)) (pending : List Pending)
    (he : phase.Holds e) : ∃ qs phase' e',
      Leads ⟨enclosing, pending, phase⟩ (enclosing.flatMap fun b => b.1.ending) ⟨[], qs, phase'⟩ ∧
        phase'.Holds e' := by
  induction enclosing generalizing pending phase e with
  | nil => exact ⟨pending, phase, e, .nil _, he⟩
  | cons b rest ih =>
    obtain ⟨qs, phase', e', hfirst, he'⟩ := exists_leads_ending b.1 he
    obtain ⟨rs, last, v, hrest, hv⟩ := ih qs he'
    exact ⟨rs, last, v, hfirst.append hrest, hv⟩

theorem finish_of_holds (he : phase.Holds e) (stop : Nat) :
    finish ⟨[], pending, phase⟩ stop = .ok (settleAll pending e) := by
  cases he <;> rfl

/-- One lexeme at most makes the operand at hand complete. -/
theorem exists_leads_operand (enclosing : List (Bracket × List Pending)) (pending : List Pending)
    (phase : Phase) : ∃ ls phase' e,
      Leads ⟨enclosing, pending, phase⟩ ls ⟨enclosing, pending, phase'⟩ ∧ phase'.Holds e := by
  cases phase with
  | operand => exact ⟨[.text []], _, _, .single fun _ => rfl, .value _⟩
  | name name => exact ⟨[], _, _, .nil _, .name name⟩
  | value e => exact ⟨[], _, _, .nil _, .value e⟩
  | property target => exact ⟨[.ident ['x']], _, _, .single fun _ => rfl, .value _⟩

/-- From every state there is a way to a complete expression. -/
theorem beginsExpr_of_run {ts : List ExprToken} {s : Progress} (h : start.run ts = .ok s) :
    BeginsExpr ts := by
  obtain ⟨enclosing, pending, phase⟩ := s
  obtain ⟨ls, phase', e, hoperand, he⟩ := exists_leads_operand enclosing pending phase
  obtain ⟨qs, last, v, hendings, hv⟩ := exists_leads_endings enclosing pending he
  refine ⟨ls ++ enclosing.flatMap fun b => b.1.ending, fun us stop hus => ⟨settleAll qs v, ?_⟩⟩
  have hrun : start.run (ts ++ us) = .ok ⟨[], qs, last⟩ := by
    rw [run_append, h]
    exact hoperand.append hendings us hus
  rw [TokenRun.parse, hrun]
  exact finish_of_holds hv stop

end Progress

/-- Parsing fails as soon as it can. Where it fails at a token, those before the token still begin
an expression, but no expression goes on with it. It fails at the end only if the tokens begin an
expression and are none. -/
theorem TokenRun.parse_error_earliest {r : TokenRun} {error : ParseError}
    (h : r.parse = .error error) :
    (∃ before t after, r.tokens = before ++ t :: after ∧ error.position = t.position ∧
        BeginsExpr before ∧ ∀ us stop e, TokenRun.parse ⟨before ++ t :: us, stop⟩ ≠ .ok e) ∨
      error.position = r.stop ∧ BeginsExpr r.tokens ∧
        ∀ stop e, TokenRun.parse ⟨r.tokens, stop⟩ ≠ .ok e := by
  unfold parse at h
  split at h
  next s hs =>
    refine .inr ⟨Progress.position_of_finish h, Progress.beginsExpr_of_run hs, ?_⟩
    intro stop e he
    have hderives := derives_of_parse he
    have hok : r.parse = .ok e := parse_of_derives hderives
    rw [parse, hs] at hok
    cases h.symm.trans hok
  next failure hfailure =>
    cases h
    obtain ⟨before, t, after, mid, htokens, hrun, hstep⟩ :=
      Progress.exists_step_of_run hfailure
    refine .inl ⟨before, t, after, htokens, Progress.position_of_step hstep,
      Progress.beginsExpr_of_run hrun, ?_⟩
    intro us stop e he
    have hstuck : Progress.start.run (before ++ t :: us) = .error error := by
      rw [Progress.run_append, hrun]
      dsimp only
      rw [Progress.run, hstep]
    rw [parse, hstuck] at he
    cases he

/-- An argument list may end behind a comma, but not behind a minus. The bracket around it and the
condition that follows have no part in the error. -/
theorem TokenRun.parse_error_earliest_argument : ∃ r error,
    exprTokens "(f('é', -) ? 2 : 3".toList = .ok r ∧ r.parse = .error error ∧
      error.kind = .expectedExpression ∧ error.position = 10 ∧ ∃ before after,
        r.tokens = before ++ ⟨.closeParen, 10⟩ :: after ∧ BeginsExpr before ∧
          ∀ us stop e, TokenRun.parse ⟨before ++ ⟨.closeParen, 10⟩ :: us, stop⟩ ≠ .ok e := by
  let ts : List ExprToken := [⟨.openParen, 0⟩, ⟨.ident "f".toList, 1⟩, ⟨.openParen, 2⟩,
    ⟨.text "é".toList, 3⟩, ⟨.comma, 7⟩, ⟨.minus, 9⟩, ⟨.closeParen, 10⟩, ⟨.question, 12⟩,
    ⟨.number (.int 2), 14⟩, ⟨.colon, 16⟩, ⟨.number (.int 3), 18⟩]
  have hrun : exprTokens "(f('é', -) ? 2 : 3".toList = .ok ⟨ts, 19⟩ := by decide +kernel
  have hparse : TokenRun.parse ⟨ts, 19⟩ = .error
      { kind := .expectedExpression, position := 10, found := some (.lexeme .closeParen) } := rfl
  have hat : ∀ t ∈ ts, t.position = 10 → t = ⟨.closeParen, 10⟩ := by decide
  refine ⟨_, _, hrun, hparse, rfl, rfl, ?_⟩
  rcases TokenRun.parse_error_earliest hparse with
    ⟨before, t, after, htokens, hposition, hbegins, hstuck⟩ | ⟨hstop, -⟩
  · have hmem : t ∈ ts := by
      rw [show ts = before ++ t :: after from htokens]
      exact List.mem_append_right before List.mem_cons_self
    obtain rfl := hat t hmem hposition.symm
    exact ⟨before, after, htokens, hbegins, hstuck⟩
  · cases hstop

end Stencil
