/- The parser accepts the lexemes that the grammar derives, and gives the tree of the derivation. -/
import Stencil.Proofs.Expr.Grammar

namespace Stencil
open Stencil.Expr (Level Derives DerivesArgs)

namespace Pending

/-- The level of the expression that the operator completes. -/
def level : Pending → Level
  | .not | .neg => .unary
  | .binary o _ => .ofOp o
  | .otherwise _ _ => .conditional

/-- The level of the operand that the operator waits for. -/
def operand : Pending → Level
  | .not | .neg => .unary
  | .binary o _ => (Level.ofOp o).tighter
  | .otherwise _ _ => .conditional

/-- The lexemes of an operator and of the operands that it has already. -/
inductive Reads : Pending → List Lexeme → Prop
  | not : Reads .not [.bang]
  | neg : Reads .neg [.minus]
  | binary {l left} (o : BinaryOp) : Derives (.ofOp o) l left →
      Reads (.binary o left) (l ++ [.op o])
  | otherwise {c y condition yes} : Derives .or c condition → Derives .conditional y yes →
      Reads (.otherwise condition yes) (c ++ .question :: (y ++ [.colon]))

theorem Reads.complete {p : Pending} {l m : List Lexeme} {e : Expr} (hp : p.Reads l)
    (he : Derives p.operand m e) : Derives p.level (l ++ m) (p.complete e) := by
  cases hp with
  | not => exact .not he
  | neg => exact .neg he
  | binary o hl =>
    rw [List.append_assoc]
    exact .binary o hl he
  | otherwise hc hy =>
    simp only [List.append_assoc, List.cons_append, List.nil_append]
    exact .choice hc hy he

end Pending

/-- A strength that takes the pending operators from a level up and leaves those whose operands are
no tighter than the level. -/
structure Cuts (k : Nat) (ℓ : Level) : Prop where
  takes : ∀ p : Pending, k ≤ p.strength ↔ ℓ.rank ≤ p.level.rank
  leaves : ∀ p : Pending, p.strength < k ↔ p.operand.rank ≤ ℓ.rank

theorem strength_op (o : BinaryOp) : o.strength = (Level.ofOp o).rank + 2 := by
  cases o <;> rfl

theorem rank_op (o : BinaryOp) : 1 ≤ (Level.ofOp o).rank ∧ (Level.ofOp o).rank ≤ 4 := by
  cases o <;> decide

/-- Strengths follow the ranks of levels, but for a gap where conditions end. -/
theorem Pending.strength_eq (p : Pending) :
    p.strength = 1 ∧ p.level.rank = 0 ∧ p.operand.rank = 0 ∨
      p.strength = p.level.rank + 2 ∧ 1 ≤ p.level.rank ∧ p.operand.rank ≤ 5 ∧
        (p.operand.rank = p.level.rank + 1 ∨ p.operand.rank = p.level.rank ∧ p.level.rank = 5) := by
  cases p with
  | not => exact .inr ⟨rfl, by decide, Nat.le_refl _, .inr ⟨rfl, rfl⟩⟩
  | neg => exact .inr ⟨rfl, by decide, Nat.le_refl _, .inr ⟨rfl, rfl⟩⟩
  | binary o left =>
    have hlt : (Level.ofOp o).rank < Level.unary.rank := Nat.lt_succ_of_le (rank_op o).2
    have htighter := Level.rank_tighter hlt
    exact .inr ⟨strength_op o, (rank_op o).1, htighter ▸ hlt, .inl htighter⟩
  | otherwise condition yes => exact .inl ⟨rfl, rfl, rfl⟩

theorem cuts_op (o : BinaryOp) : Cuts o.strength (.ofOp o) := by
  have ho := rank_op o
  rw [strength_op]
  constructor
  · intro p
    have hp := p.strength_eq
    omega
  · intro p
    have hp := p.strength_eq
    omega

theorem cuts_condition : Cuts Pending.conditionStrength .or := by
  have hor : Level.or.rank = 1 := rfl
  rw [Pending.conditionStrength]
  constructor
  · intro p
    have hp := p.strength_eq
    omega
  · intro p
    have hp := p.strength_eq
    omega

/-- An expression of the level may be the operand of the innermost pending operator. -/
def Fits (ps : List Pending) (ℓ : Level) : Prop := ∀ p ∈ ps.head?, p.operand.rank ≤ ℓ.rank

theorem fits_nil (ℓ : Level) : Fits [] ℓ := by
  intro p hp
  cases hp

theorem fits_cons {p : Pending} {ps : List Pending} {ℓ : Level} :
    Fits (p :: ps) ℓ ↔ p.operand.rank ≤ ℓ.rank := by
  simp [Fits]

theorem Fits.mono {ps : List Pending} {ℓ m : Level} (h : Fits ps ℓ) (hle : ℓ.rank ≤ m.rank) :
    Fits ps m :=
  fun p hp => Nat.le_trans (h p hp) hle

/-- Outside a condition only conditions wait. -/
theorem Fits.conditional {ps : List Pending} (h : Fits ps .or) : Fits ps .conditional := by
  intro p hp
  have hor : Level.or.rank = 1 := rfl
  have hle := h p hp
  have hcases := p.strength_eq
  omega

theorem fits_of_unary {ps : List Pending} {ℓ : Level} (h : 5 ≤ ℓ.rank) : Fits ps ℓ := by
  intro p _
  have hcases := p.strength_eq
  omega

theorem settle_append {k : Nat} {qs ps : List Pending} {e : Expr} {ℓ : Level} (hk : Cuts k ℓ)
    (hq : ∀ q ∈ qs, ℓ.rank ≤ q.level.rank) (hp : Fits ps ℓ) :
    settle k (qs ++ ps) e = (ps, settleAll qs e) := by
  induction qs generalizing e with
  | nil =>
    cases ps with
    | nil => rfl
    | cons p ps =>
      have hlt := (hk.leaves p).mpr (fits_cons.mp hp)
      rw [List.nil_append, settle, if_neg (Nat.not_le.mpr hlt)]
      rfl
  | cons q qs ih =>
    have hle := (hk.takes q).mpr (hq q List.mem_cons_self)
    rw [List.cons_append, settle, if_pos hle]
    exact ih fun r hr => hq r (List.mem_cons_of_mem q hr)

theorem settleAll_append (qs ps : List Pending) (e : Expr) :
    settleAll (qs ++ ps) e = settleAll ps (settleAll qs e) := List.foldl_append

namespace Phase

/-- An expression that is complete unless the next lexeme goes on with it. -/
inductive Holds : Phase → Expr → Prop
  | name (name : Text) : Holds (.name name) (.ofName name)
  | value (e : Expr) : Holds (.value e) e

end Phase

namespace Progress

/-- Any tokens with these lexemes lead from one state to the other. -/
def Leads (s : Progress) (l : List Lexeme) (next : Progress) : Prop :=
  ∀ ts : List ExprToken, ts.map ExprToken.lexeme = l → s.run ts = .ok next

theorem Leads.nil (s : Progress) : s.Leads [] s := by
  intro ts hts
  rw [List.map_eq_nil_iff.mp hts]
  rfl

theorem Leads.append {s mid next : Progress} {l m : List Lexeme} (h : s.Leads l mid)
    (h' : mid.Leads m next) : s.Leads (l ++ m) next := by
  intro ts hts
  obtain ⟨us, vs, rfl, hu, hv⟩ := List.map_eq_append_iff.mp hts
  rw [run_append, h us hu]
  exact h' vs hv

theorem Leads.cons {s mid next : Progress} {x : Lexeme} {l : List Lexeme}
    (h : ∀ position, s.step ⟨x, position⟩ = .ok mid) (h' : mid.Leads l next) :
    s.Leads (x :: l) next := by
  intro ts hts
  obtain ⟨t, us, rfl, ht, hu⟩ := List.map_eq_cons_iff.mp hts
  subst ht
  rw [run, show s.step t = .ok mid from h t.position]
  exact h' us hu

theorem Leads.single {s next : Progress} {x : Lexeme}
    (h : ∀ position, s.step ⟨x, position⟩ = .ok next) : s.Leads [x] next :=
  .cons h (.nil next)

/-- Only an opening parenthesis goes on with a name. -/
theorem step_of_holds {s : Progress} {e : Expr} {t : ExprToken} (h : s.phase.Holds e)
    (ht : t.lexeme ≠ .openParen) : s.step t = s.afterValue e t := by
  obtain ⟨enclosing, pending, phase⟩ := s
  cases h with
  | name name => simp only [step, if_neg ht]
  | value e => rfl

theorem Leads.after {s mid next : Progress} {e : Expr} {x : Lexeme} {l : List Lexeme}
    (he : s.phase.Holds e) (hx : x ≠ .openParen)
    (h : ∀ position, s.afterValue e ⟨x, position⟩ = .ok mid) (h' : mid.Leads l next) :
    s.Leads (x :: l) next := by
  refine .cons (fun position => ?_) h'
  rw [step_of_holds he hx]
  exact h position

/-- The lexemes of an operand leave operators of its level pending, which complete it. -/
def Completes (ℓ : Level) (enclosing : List (Bracket × List Pending)) (ps : List Pending)
    (l : List Lexeme) (e : Expr) : Prop :=
  ∃ qs phase x, Leads ⟨enclosing, ps, .operand⟩ l ⟨enclosing, qs ++ ps, phase⟩ ∧
    phase.Holds x ∧ (∀ q ∈ qs, ℓ.rank ≤ q.level.rank) ∧ settleAll qs x = e

variable {enclosing : List (Bracket × List Pending)} {ps outside : List Pending}

theorem Completes.atom {ℓ : Level} {x : Lexeme} {phase : Phase} {e : Expr}
    (h : ∀ position, step ⟨enclosing, ps, .operand⟩ ⟨x, position⟩ = .ok ⟨enclosing, ps, phase⟩)
    (he : phase.Holds e) : Completes ℓ enclosing ps [x] e :=
  ⟨[], phase, e, .single h, he, nofun, rfl⟩

/-- An operator that waits in front of an operand belongs to the larger one. -/
theorem Completes.pend {ℓ m : Level} {p : Pending} {l k : List Lexeme} {e : Expr}
    (hl : Leads ⟨enclosing, ps, .operand⟩ l ⟨enclosing, p :: ps, .operand⟩)
    (h : Completes m enclosing (p :: ps) k e) (hp : ℓ.rank ≤ p.level.rank) (hm : ℓ.rank ≤ m.rank) :
    Completes ℓ enclosing ps (l ++ k) (p.complete e) := by
  obtain ⟨qs, phase, x, hlead, hholds, hrank, rfl⟩ := h
  refine ⟨qs ++ [p], phase, x, ?_, hholds, ?_, settleAll_append qs [p] x⟩
  · rw [List.append_assoc]
    exact hl.append hlead
  · intro q hq
    rcases List.mem_append.mp hq with hq | hq
    · exact Nat.le_trans hm (hrank q hq)
    · rw [List.mem_singleton.mp hq]
      exact hp

/-- No operator waits for the rest of an operand that binds tighter than all of them. -/
theorem Completes.tight {ℓ : Level} {l : List Lexeme} {e : Expr} (hℓ : 5 < ℓ.rank)
    (h : Completes ℓ enclosing ps l e) :
    ∃ phase, Leads ⟨enclosing, ps, .operand⟩ l ⟨enclosing, ps, phase⟩ ∧ phase.Holds e := by
  obtain ⟨qs, phase, x, hlead, hholds, hrank, rfl⟩ := h
  cases qs with
  | nil => exact ⟨phase, hlead, hholds⟩
  | cons q qs =>
    have hle := hrank q List.mem_cons_self
    have hcases := q.strength_eq
    omega

/-- A lexeme that closes the bracket ends the operand inside it. -/
theorem Completes.close {ℓ : Level} {b : Bracket} {l : List Lexeme} {x : Lexeme} {e : Expr}
    {next : Progress} (h : Completes ℓ ((b, outside) :: enclosing) [] l e)
    (hx : x ∈ [Lexeme.closeParen, .closeBracket, .comma, .colon])
    (hnext : ∀ qs phase, close? ⟨(b, outside) :: enclosing, qs, phase⟩ e x = some next) :
    Leads ⟨(b, outside) :: enclosing, [], .operand⟩ (l ++ [x]) next := by
  obtain ⟨qs, phase, v, hlead, hholds, -, rfl⟩ := h
  rw [List.append_nil] at hlead
  refine hlead.append (.after hholds ?_ (fun position => ?_) (.nil next))
  · rintro rfl
    simp at hx
  · have hclose := hnext qs phase
    simp only [List.mem_cons, List.not_mem_nil, or_false] at hx
    rcases hx with rfl | rfl | rfl | rfl <;> simp only [afterValue, hclose]

/-- Arguments are read into the call that they stand in, but for the last, which is still open. -/
def CompletesArgs (enclosing : List (Bracket × List Pending)) (name : Text)
    (outside : List Pending) (l : List Lexeme) (args : List Expr) : Prop :=
  ∃ k m done e, l = k ++ m ∧ args = done ++ [e] ∧
    Leads ⟨(.call name [], outside) :: enclosing, [], .operand⟩ k
      ⟨(.call name done, outside) :: enclosing, [], .operand⟩ ∧
    Completes .conditional ((.call name done, outside) :: enclosing) [] m e

theorem CompletesArgs.close {name : Text} {l : List Lexeme} {args : List Expr} {x : Lexeme}
    {next : Progress} (h : CompletesArgs enclosing name outside l args)
    (hx : x = .closeParen ∧ next = ⟨enclosing, outside, .value (.call name args)⟩ ∨
      x = .comma ∧ next = ⟨(.call name args, outside) :: enclosing, [], .operand⟩) :
    Leads ⟨(.call name [], outside) :: enclosing, [], .operand⟩ (l ++ [x]) next := by
  obtain ⟨k, m, done, e, rfl, rfl, hk, hm⟩ := h
  rw [List.append_assoc]
  refine hk.append (hm.close ?_ ?_)
  · rcases hx with ⟨rfl, -⟩ | ⟨rfl, -⟩ <;> simp
  · rcases hx with ⟨rfl, rfl⟩ | ⟨rfl, rfl⟩ <;> exact fun _ _ => rfl

/-- The parser reads every expression of the grammar as its tree. -/
theorem completes_of_derives {ℓ : Level} {l : List Lexeme} {e : Expr} (h : Derives ℓ l e) :
    ∀ enclosing ps, Fits ps ℓ → Completes ℓ enclosing ps l e := by
  induction h using Derives.rec
    (motive_2 := fun l args _ => ∀ enclosing name outside,
      CompletesArgs enclosing name outside l args) with
  | @choice c y n condition yes no hc hy hn ic iy iN =>
    intro enclosing ps hps
    have hor : Fits ps .or := hps.mono (Nat.zero_le _)
    obtain ⟨qs, phase, x, hlead, hholds, hrank, rfl⟩ := ic enclosing ps hor
    have hsettle := settle_append (e := x) cuts_condition hrank hor
    have hquestion : Leads ⟨enclosing, qs ++ ps, phase⟩ [.question]
        ⟨(.conditional (settleAll qs x), ps) :: enclosing, [], .operand⟩ := by
      refine .after hholds nofun (fun position => ?_) (.nil _)
      simp only [afterValue, hsettle]
      rfl
    have hyes : Leads ⟨(.conditional (settleAll qs x), ps) :: enclosing, [], .operand⟩
        (y ++ [.colon]) ⟨enclosing, .otherwise (settleAll qs x) yes :: ps, .operand⟩ :=
      (iy _ [] (fits_nil _)).close (by simp) fun _ _ => rfl
    have hno := iN enclosing (.otherwise (settleAll qs x) yes :: ps)
      (fits_cons.mpr (Nat.le_refl _))
    have hall := hno.pend (ℓ := .conditional) ((hlead.append hquestion).append hyes)
      (Nat.zero_le _) (Nat.zero_le _)
    simpa [Pending.complete] using hall
  | @binary l r left right o hl hr il ir =>
    intro enclosing ps hps
    obtain ⟨qs, phase, x, hlead, hholds, hrank, rfl⟩ := il enclosing ps hps
    have hsettle := settle_append (e := x) (cuts_op o) hrank hps
    have hop : Leads ⟨enclosing, qs ++ ps, phase⟩ [.op o]
        ⟨enclosing, .binary o (settleAll qs x) :: ps, .operand⟩ := by
      refine .after hholds nofun (fun position => ?_) (.nil _)
      simp only [afterValue, hsettle]
      rfl
    have hright := ir enclosing (.binary o (settleAll qs x) :: ps) (fits_cons.mpr (Nat.le_refl _))
    have hall := hright.pend (ℓ := .ofOp o) (hlead.append hop) (Nat.le_refl _)
      (Level.rank_le_rank_tighter _)
    simpa [Pending.complete] using hall
  | @not l e h ih =>
    intro enclosing ps hps
    have hoperand := ih enclosing (.not :: ps) (fits_cons.mpr (Nat.le_refl _))
    exact hoperand.pend (.single fun _ => rfl) (Nat.le_refl _) (Nat.le_refl _)
  | @neg l e h ih =>
    intro enclosing ps hps
    have hoperand := ih enclosing (.neg :: ps) (fits_cons.mpr (Nat.le_refl _))
    exact hoperand.pend (.single fun _ => rfl) (Nat.le_refl _) (Nat.le_refl _)
  | @index l k target key ht hk it ik =>
    intro enclosing ps hps
    obtain ⟨phase, hlead, hholds⟩ := (it enclosing ps hps).tight (by decide)
    have hopen : Leads ⟨enclosing, ps, phase⟩ [.openBracket]
        ⟨(.index target, ps) :: enclosing, [], .operand⟩ :=
      .after hholds nofun (fun _ => rfl) (.nil _)
    have hkey : Leads ⟨(.index target, ps) :: enclosing, [], .operand⟩ (k ++ [.closeBracket])
        ⟨enclosing, ps, .value (.index target key)⟩ :=
      (ik _ [] (fits_nil _)).close (by simp) fun _ _ => rfl
    refine ⟨[], _, _, ?_, .value _, nofun, rfl⟩
    simpa using (hlead.append hopen).append hkey
  | @field l target name ht it =>
    intro enclosing ps hps
    obtain ⟨phase, hlead, hholds⟩ := (it enclosing ps hps).tight (by decide)
    refine ⟨[], _, _, hlead.append ?_, .value _, nofun, rfl⟩
    exact .after hholds nofun (fun _ => rfl) (.single fun _ => rfl)
  | @position l target i n ht hi it =>
    intro enclosing ps hps
    obtain ⟨phase, hlead, hholds⟩ := (it enclosing ps hps).tight (by decide)
    refine ⟨[], _, _, hlead.append ?_, .value _, nofun, rfl⟩
    refine .after hholds nofun (fun _ => rfl) (.single fun position => ?_)
    simp only [step, atProperty, Lexeme.property?, hi, Option.map_some]
    rfl
  | text t => exact fun _ _ _ => .atom (fun _ => rfl) (.value _)
  | number n => exact fun _ _ _ => .atom (fun _ => rfl) (.value _)
  | var name => exact fun _ _ _ => .atom (fun _ => rfl) (.value _)
  | name name => exact fun _ _ _ => .atom (fun _ => rfl) (.name _)
  | callNone name =>
    intro enclosing ps hps
    refine ⟨[], _, _, ?_, .value _, nofun, rfl⟩
    exact .cons (fun _ => rfl) (.cons (fun _ => rfl) (.single fun _ => rfl))
  | call name ha ia =>
    intro enclosing ps hps
    have hargs := (ia enclosing name ps).close (.inl ⟨rfl, rfl⟩)
    refine ⟨[], _, _, ?_, .value _, nofun, rfl⟩
    exact .cons (fun _ => rfl) (.cons (fun _ => rfl) hargs)
  | callTrailing name ha ia =>
    intro enclosing ps hps
    have hcomma := (ia enclosing name ps).close (.inr ⟨rfl, rfl⟩)
    have hargs := hcomma.append (.single (x := .closeParen) fun _ => rfl)
    rw [List.append_assoc] at hargs
    refine ⟨[], _, _, ?_, .value _, nofun, rfl⟩
    exact .cons (fun _ => rfl) (.cons (fun _ => rfl) hargs)
  | group he ie =>
    intro enclosing ps hps
    refine ⟨[], _, _, ?_, .value _, nofun, rfl⟩
    exact .cons (fun _ => rfl) ((ie _ [] (fits_nil _)).close (by simp) fun _ _ => rfl)
  | @looser ℓ l e h ih =>
    intro enclosing ps hps
    have htighter := Level.rank_le_rank_tighter ℓ
    obtain ⟨qs, phase, x, hlead, hholds, hrank, heq⟩ := ih enclosing ps (hps.mono htighter)
    exact ⟨qs, phase, x, hlead, hholds, fun q hq => Nat.le_trans htighter (hrank q hq), heq⟩
  | one he ie =>
    rename_i enclosing name outside
    exact ⟨[], _, [], _, rfl, rfl, .nil _, ie _ [] (fits_nil _)⟩
  | more ha he ia ie =>
    rename_i enclosing name outside
    refine ⟨_, _, _, _, ?_, rfl, (ia enclosing name outside).close (.inr ⟨rfl, rfl⟩),
      ie _ [] (fits_nil _)⟩
    simp

end Progress

/-- The lexemes of the operators that wait inside a bracket, the outermost first. -/
inductive Waits : List Pending → List Lexeme → Prop
  | nil : Waits [] []
  | cons {p ps l m} : Waits ps l → p.Reads m → Fits ps p.level → Waits (p :: ps) (l ++ m)

/-- Settled operators leave an expression of the level that they were settled for. -/
theorem Waits.settle {k : Nat} {ℓ m : Level} {ps : List Pending} {l n : List Lexeme} {e : Expr}
    (hk : Cuts k ℓ) (hw : Waits ps l) (he : Derives m n e) (hfits : Fits ps m)
    (hm : ℓ.rank ≤ m.rank) :
    ∃ l' n', l ++ n = l' ++ n' ∧ Waits (Stencil.settle k ps e).1 l' ∧
      Derives ℓ n' (Stencil.settle k ps e).2 ∧ Fits (Stencil.settle k ps e).1 ℓ := by
  induction hw generalizing m n e with
  | nil => exact ⟨[], n, rfl, .nil, he.mono hm, fits_nil ℓ⟩
  | @cons p ps l q hw hp hlevel ih =>
    rw [Stencil.settle]
    by_cases hle : k ≤ p.strength
    · have hdone := hp.complete (he.mono (fits_cons.mp hfits))
      rw [if_pos hle, List.append_assoc]
      exact ih hdone hlevel ((hk.takes p).mp hle)
    · have hstop := (hk.leaves p).mp (Nat.lt_of_not_le hle)
      rw [if_neg hle]
      exact ⟨l ++ q, n, rfl, .cons hw hp hlevel, he.mono hm, fits_cons.mpr hstop⟩

theorem Waits.settleAll {m : Level} {ps : List Pending} {l n : List Lexeme} {e : Expr}
    (hw : Waits ps l) (he : Derives m n e) (hfits : Fits ps m) :
    Derives .conditional (l ++ n) (Stencil.settleAll ps e) := by
  induction hw generalizing m n e with
  | nil => exact he.mono (Nat.zero_le _)
  | @cons p ps l q hw hp hlevel ih =>
    have hdone := hp.complete (he.mono (fits_cons.mp hfits))
    rw [List.append_assoc]
    exact ih hdone hlevel

/-- The lexemes of a bracket up to where its content starts. -/
inductive Bracket.Reads : Bracket → List Lexeme → Prop
  | group : Reads .group [.openParen]
  | call (name : Text) : Reads (.call name []) [.ident name, .openParen]
  | more {l done} (name : Text) : DerivesArgs l done →
      Reads (.call name done) (.ident name :: .openParen :: (l ++ [.comma]))
  | index {l target} : Derives .member l target → Reads (.index target) (l ++ [.openBracket])
  | conditional {l condition} : Derives .or l condition →
      Reads (.conditional condition) (l ++ [.question])

/-- The level of what a bracket becomes: a condition grows into a whole conditional expression. -/
def Bracket.outer : Bracket → Level
  | .conditional _ => .conditional
  | _ => .primary

/-- The lexemes of the open brackets and of the operators outside each of them. -/
inductive Encloses : List (Bracket × List Pending) → List Lexeme → Prop
  | nil : Encloses [] []
  | cons {b outside rest l m n} : Encloses rest l → Waits outside m → b.Reads n →
      Fits outside b.outer → Encloses ((b, outside) :: rest) (l ++ (m ++ n))

/-- The lexemes of the operand at hand, as far as it was read. -/
inductive Phase.Reads : Phase → List Lexeme → Prop
  | operand : Reads .operand []
  | name (name : Text) : Reads (.name name) [.ident name]
  | value {l e} : Derives .member l e → Reads (.value e) l
  | property {l target} : Derives .member l target → Reads (.property target) (l ++ [.dot])

namespace Progress

/-- What a state stands for: the lexemes that lead to it. -/
inductive Reads : Progress → List Lexeme → Prop
  | mk {enclosing ps phase l m n w} : Encloses enclosing l → Waits ps m → phase.Reads n →
      w = l ++ (m ++ n) → Reads ⟨enclosing, ps, phase⟩ w

theorem reads_start : start.Reads [] := .mk .nil .nil .operand rfl

variable {enclosing : List (Bracket × List Pending)} {ps : List Pending} {l m n : List Lexeme}
  {e : Expr} {next : Progress}

theorem reads_enter {b : Bracket} {k w : List Lexeme} (hl : Encloses enclosing l) (hm : Waits ps m)
    (hb : b.Reads k) (hfits : Fits ps b.outer) (hw : w = l ++ (m ++ k)) :
    Reads ⟨(b, ps) :: enclosing, [], .operand⟩ w :=
  .mk (.cons hl hm hb hfits) .nil .operand (by simpa using hw)

/-- The arguments of an open call together with one more. -/
theorem derivesArgs_of_reads {name : Text} {done : List Expr} (h : (Bracket.call name done).Reads l)
    (he : Derives .conditional n e) :
    ∃ a, l ++ n = .ident name :: .openParen :: a ∧ DerivesArgs a (done ++ [e]) := by
  cases h with
  | call name => exact ⟨n, rfl, .one he⟩
  | @more k done name hdone =>
    refine ⟨k ++ .comma :: n, ?_, .more hdone he⟩
    simp

theorem reads_close {phase : Phase} {x : Lexeme} (hl : Encloses enclosing l)
    (he : Derives .conditional n e) (h : close? ⟨enclosing, ps, phase⟩ e x = some next) :
    next.Reads (l ++ (n ++ [x])) := by
  unfold close? at h
  split at h
  next outside rest heq =>
    cases h
    cases heq
    cases hl with
    | cons hrest hout hb hfits =>
      cases hb with
      | group =>
        exact .mk hrest hout (.value ((Derives.group he).mono (by decide))) (by simp)
  next name done outside rest heq =>
    cases h
    cases heq
    cases hl with
    | cons hrest hout hb hfits =>
      obtain ⟨a, ha, hargs⟩ := derivesArgs_of_reads hb he
      refine .mk hrest hout (.value ((Derives.call name hargs).mono (by decide))) ?_
      rw [← List.cons_append, ← List.cons_append, ← ha]
      simp
  next name done outside rest heq =>
    cases h
    cases heq
    cases hl with
    | cons hrest hout hb hfits =>
      obtain ⟨a, ha, hargs⟩ := derivesArgs_of_reads hb he
      refine reads_enter hrest hout (.more name hargs) hfits ?_
      rw [← List.cons_append, ← List.cons_append, ← ha]
      simp
  next target outside rest heq =>
    cases h
    cases heq
    cases hl with
    | cons hrest hout hb hfits =>
      cases hb with
      | index ht => exact .mk hrest hout (.value (.index ht he)) (by simp)
  next condition outside rest heq =>
    cases h
    cases heq
    cases hl with
    | cons hrest hout hb hfits =>
      cases hb with
      | conditional hc =>
        refine .mk hrest (.cons hout (.otherwise hc he) hfits) .operand ?_
        simp
  next => cases h

theorem reads_afterValue {phase : Phase} {t : ExprToken} (hl : Encloses enclosing l)
    (hm : Waits ps m) (he : Derives .member n e)
    (h : afterValue ⟨enclosing, ps, phase⟩ e t = .ok next) :
    next.Reads (l ++ (m ++ (n ++ [t.lexeme]))) := by
  have hfits : Fits ps .member := fits_of_unary (by decide)
  unfold afterValue at h
  split at h
  next hx =>
    cases h
    rw [hx]
    exact reads_enter hl hm (.index he) (fits_of_unary (ℓ := .primary) (by decide)) rfl
  next hx =>
    cases h
    rw [hx]
    exact .mk hl hm (.property he) (by simp)
  next o hx =>
    cases h
    obtain ⟨l', n', heq, hwaits, hleft, hfits'⟩ := hm.settle (cuts_op o) he hfits
      (Nat.le_trans (rank_op o).2 (by decide))
    rw [hx]
    refine .mk hl (.cons hwaits (.binary o hleft) hfits') .operand ?_
    rw [← List.append_assoc m, heq]
    simp
  next hx =>
    cases h
    obtain ⟨l', n', heq, hwaits, hleft, hfits'⟩ := hm.settle cuts_condition he hfits (by decide)
    rw [hx]
    refine reads_enter hl hwaits (.conditional hleft) hfits'.conditional ?_
    rw [← List.append_assoc m, heq]
    simp
  next =>
    split at h
    next hclose =>
      cases h
      have hread := reads_close hl (hm.settleAll he hfits) hclose
      simpa using hread
    next => cases h

theorem reads_atOperand {t : ExprToken} (hl : Encloses enclosing l) (hm : Waits ps m)
    (h : atOperand ⟨enclosing, ps, .operand⟩ t = .ok next) :
    next.Reads (l ++ (m ++ [t.lexeme])) := by
  unfold atOperand at h
  split at h
  next v hx =>
    cases h
    exact hx ▸ .mk hl hm (.value ((Derives.text v).mono (by decide))) rfl
  next v hx =>
    cases h
    exact hx ▸ .mk hl hm (.value ((Derives.number v).mono (by decide))) rfl
  next name hx =>
    cases h
    exact hx ▸ .mk hl hm (.value ((Derives.var name).mono (by decide))) rfl
  next name hx =>
    cases h
    exact hx ▸ .mk hl hm (.name name) rfl
  next hx =>
    cases h
    exact hx ▸ reads_enter hl hm .group (fits_of_unary (ℓ := .primary) (by decide)) rfl
  next hx =>
    cases h
    exact hx ▸ .mk hl (.cons hm .not (fits_of_unary (by decide))) .operand (by simp)
  next hx =>
    cases h
    exact hx ▸ .mk hl (.cons hm .neg (fits_of_unary (by decide))) .operand (by simp)
  next =>
    split at h
    next name done outside rest hx henclosing hpending =>
      cases h
      simp only at henclosing hpending
      subst henclosing hpending
      rw [hx]
      cases hm
      cases hl with
      | cons hrest hout hb hfits =>
        cases hb with
        | call name =>
          exact .mk hrest hout (.value ((Derives.callNone name).mono (by decide))) (by simp)
        | more name hargs =>
          exact .mk hrest hout (.value ((Derives.callTrailing name hargs).mono (by decide)))
            (by simp)
    next => cases h

theorem reads_atProperty {target : Expr} {t : ExprToken} (hl : Encloses enclosing l)
    (hm : Waits ps m) (he : Derives .member n target)
    (h : atProperty ⟨enclosing, ps, .property target⟩ target t = .ok next) :
    next.Reads (l ++ (m ++ (n ++ [.dot, t.lexeme]))) := by
  unfold atProperty at h
  split at h
  next name hname =>
    cases h
    unfold Lexeme.property? at hname
    split at hname
    next field hx =>
      cases hname
      exact hx ▸ .mk hl hm (.value (.field name he)) rfl
    next number hx =>
      obtain ⟨i, hi, rfl⟩ := Option.map_eq_some_iff.mp hname
      exact hx ▸ .mk hl hm (.value (.position he hi)) rfl
    next => cases hname
  next => cases h

theorem reads_step {s : Progress} {t : ExprToken} (hs : s.Reads l) (h : s.step t = .ok next) :
    next.Reads (l ++ [t.lexeme]) := by
  obtain ⟨ha, hb, hc, rfl⟩ := hs
  cases hc with
  | operand => simpa using reads_atOperand ha hb h
  | name name =>
    simp only [step] at h
    split at h
    next hx =>
      cases h
      rw [hx]
      exact reads_enter ha hb (.call name) (fits_of_unary (ℓ := .primary) (by decide)) (by simp)
    next =>
      have hname : Derives .member [.ident name] (.ofName name) :=
        (Derives.name name).mono (by decide)
      simpa using reads_afterValue ha hb hname h
  | value he => simpa using reads_afterValue ha hb he h
  | property he => simpa using reads_atProperty ha hb he h

/-- Every state that is reached stands for the lexemes that were read. -/
theorem reads_run {s : Progress} {ts : List ExprToken} (hs : s.Reads l) (h : s.run ts = .ok next) :
    next.Reads (l ++ ts.map ExprToken.lexeme) := by
  induction ts generalizing s l with
  | nil =>
    cases h
    simpa using hs
  | cons t ts ih =>
    rw [run] at h
    split at h
    next mid hmid =>
      have hrest := ih (reads_step hs hmid) h
      simpa using hrest
    next => cases h

theorem derives_of_finish {s : Progress} {stop : Nat} (hs : s.Reads l) (h : s.finish stop = .ok e) :
    Derives .conditional l e := by
  have hvalue : ∀ {enclosing ps phase a b c v}, Encloses enclosing a → Waits ps b →
      Derives .member c v → finishValue ⟨enclosing, ps, phase⟩ v stop = .ok e →
      Derives .conditional (a ++ (b ++ c)) e := by
    intro enclosing ps phase a b c v ha hb hv hfinish
    cases ha with
    | nil =>
      cases hfinish
      exact hb.settleAll hv (fits_of_unary (by decide))
    | cons => cases hfinish
  obtain ⟨ha, hb, hc, rfl⟩ := hs
  cases hc with
  | operand => cases h
  | name name => exact hvalue ha hb ((Derives.name name).mono (by decide)) h
  | value he => exact hvalue ha hb he h
  | property he => cases h

end Progress

theorem TokenRun.derives_of_parse {r : TokenRun} {e : Expr} (h : r.parse = .ok e) :
    Derives .conditional (r.tokens.map ExprToken.lexeme) e := by
  unfold parse at h
  split at h
  next s hs =>
    have hreads := Progress.reads_run Progress.reads_start hs
    exact Progress.derives_of_finish hreads h
  next => cases h

theorem TokenRun.parse_of_derives {r : TokenRun} {e : Expr}
    (h : Derives .conditional (r.tokens.map ExprToken.lexeme) e) : r.parse = .ok e := by
  obtain ⟨qs, phase, x, hlead, hholds, -, rfl⟩ :=
    Progress.completes_of_derives h [] [] (fits_nil _)
  have hrun : Progress.start.run r.tokens = .ok ⟨[], qs ++ [], phase⟩ := hlead r.tokens rfl
  rw [parse, hrun, List.append_nil]
  cases hholds <;> rfl

/-- The parser accepts exactly the runs of lexemes that the grammar derives, each as its only
tree, and fails on all others. -/
theorem TokenRun.parse_eq_ok_iff_derives (r : TokenRun) :
    (∀ e, r.parse = .ok e ↔ Derives .conditional (r.tokens.map ExprToken.lexeme) e) ∧
      ((∃ error, r.parse = .error error) ↔
        ∀ e, ¬ Derives .conditional (r.tokens.map ExprToken.lexeme) e) ∧
      ∀ e f, Derives .conditional (r.tokens.map ExprToken.lexeme) e →
        Derives .conditional (r.tokens.map ExprToken.lexeme) f → e = f := by
  have hiff : ∀ e, r.parse = .ok e ↔ Derives .conditional (r.tokens.map ExprToken.lexeme) e :=
    fun e => ⟨derives_of_parse, parse_of_derives⟩
  refine ⟨hiff, ⟨?_, ?_⟩, ?_⟩
  · rintro ⟨error, herror⟩ e he
    have hok := (hiff e).mpr he
    rw [herror] at hok
    cases hok
  · intro hnone
    cases hparse : r.parse with
    | error error => exact ⟨error, rfl⟩
    | ok e => exact absurd ((hiff e).mp hparse) (hnone e)
  · intro e f he hf
    have hok := (hiff e).mpr he
    rw [(hiff f).mpr hf] at hok
    cases hok
    rfl

end Stencil
