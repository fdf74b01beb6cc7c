/- Integers are compared through the doubles nearest to them. -/
import Stencil.Expr.Parser
import Stencil.Proofs.Number.Rounding
import Stencil.Proofs.Value.Comparison

namespace Stencil

theorem Value.order?_int (a b : Int) :
    (number (.int a)).order? (.number (.int b)) = some (Double.roundedOrder a b) :=
  congrArg some (Double.compare_units_ofInt a b)

theorem Value.looselyEqual_int_iff (p : Platform) (a b : Int) :
    (number (.int a)).looselyEqual p (.number (.int b)) = true ↔
      Double.ofInt a = Double.ofInt b := by
  rw [looselyEqual, beq_iff_eq]
  exact Double.units_ofInt_inj

namespace Scope

/-- Integers of any size are equal exactly if one double is nearest to both, and are otherwise
ordered as integers, by the two functions as by all six operators. So all that is not decided as
over the integers is two neighbours of one sign, neither below the limit, that are taken for equal.
-/
theorem integers_compared (s : Scope) {x y : Expr} {a b : Int}
    (hx : s.eval x = .ok (.number (.int a))) (hy : s.eval y = .ok (.number (.int b))) :
    ((Value.number (.int a)).looselyEqual s.platform (.number (.int b)) = true ↔
      Double.ofInt a = Double.ofInt b) ∧
    (Value.number (.int a)).order? (.number (.int b)) = some (Double.roundedOrder a b) ∧
    (∀ op test, op.test? = some test →
      s.eval (.binary op x y) = .ok (.bool (test (Double.roundedOrder a b)))) ∧
    (Double.roundedOrder a b = compare a b ∨
      Double.roundedOrder a b = .eq ∧ Double.exactLimit ≤ a.natAbs ∧
        Double.exactLimit ≤ b.natAbs ∧ (a < 0 ↔ b < 0) ∧
        Double.exactLimit * (a - b).natAbs ≤ a.natAbs + b.natAbs) := by
  have horder := Value.order?_int a b
  refine ⟨Value.looselyEqual_int_iff s.platform a b, horder, fun op test hop => ?_,
    Double.roundedOrder_cases a b⟩
  exact eval_of_order? hx hy hop horder

/-- The greatest signed word and its successor are one double, the limit and its predecessor two. -/
theorem integers_compared_words :
    let s : Scope := ⟨fun _ => none, fun _ => none, .usual⟩
    let literal (n : Int) : Expr := .literal (.number (.int n))
    let signed : Int := 9223372036854775807
    let unsigned : Int := 9223372036854775808
    let low : Int := 9007199254740991
    let high : Int := 9007199254740992
    (s.eval (literal signed) = .ok (.number (.int signed)) ∧
      s.eval (literal unsigned) = .ok (.number (.int unsigned)) ∧
      s.eval (.binary .eq (literal signed) (literal unsigned)) = .ok (.bool true) ∧
      s.eval (.binary .lt (literal signed) (literal unsigned)) = .ok (.bool false)) ∧
    s.eval (literal low) = .ok (.number (.int low)) ∧
      s.eval (literal high) = .ok (.number (.int high)) ∧
      s.eval (.binary .eq (literal low) (literal high)) = .ok (.bool false) ∧
      s.eval (.binary .lt (literal low) (literal high)) = .ok (.bool true) := by
  intro s literal signed unsigned low high
  have hequal : Double.roundedOrder signed unsigned = .eq := by decide +kernel
  have hbelow : Double.roundedOrder low high = .lt := by decide +kernel
  obtain ⟨-, -, hwords, -⟩ :=
    integers_compared s (x := literal signed) (y := literal unsigned) rfl rfl
  obtain ⟨-, -, hsmall, -⟩ := integers_compared s (x := literal low) (y := literal high) rfl rfl
  rw [hequal] at hwords
  rw [hbelow] at hsmall
  exact ⟨⟨rfl, rfl, hwords .eq _ rfl, hwords .lt _ rfl⟩, rfl, rfl, hsmall .eq _ rfl,
    hsmall .lt _ rfl⟩

/-- Different integers that are equal and not below each other, although lists of them differ. -/
theorem exists_equal_integers :
    let low : Value := .number (.int 9007199254740992)
    let high : Value := .number (.int 9007199254740993)
    (9007199254740992 : Int) < 9007199254740993 ∧ low.looselyEqual .usual high = true ∧
      low.order? high = some .eq ∧ (Value.array [low]).looselyEqual .usual (.array [high]) = false ∧
      ∃ e, Expr.parse "9007199254740992 < 9007199254740993".toList = .ok e ∧
        eval ⟨fun _ => none, fun _ => none, .usual⟩ e = .ok (.bool false) := by
  intro low high
  have horder : low.order? high = some .eq := by decide +kernel
  have heval : eval ⟨fun _ => none, fun _ => none, .usual⟩
      (.binary .lt (.literal low) (.literal high)) = .ok (.bool Ordering.eq.isLT) :=
    eval_of_order? rfl rfl rfl horder
  exact ⟨by decide, by decide +kernel, horder, by decide +kernel, _, rfl, heval⟩

end Scope

end Stencil
