/- Equality and order of values agree with each other, and the operators with both. -/
import Mathlib.Logic.ExistsUnique
import Stencil.Usual

namespace Stencil

instance : Std.TransCmp Text.order where
  eq_swap {s t} := (Text.order_swap t s).symm
  isLE_trans {r s t} hrs hst := by
    cases hr : Text.order r s with
    | gt => rw [hr] at hrs; cases hrs
    | eq => rwa [Text.order_eq_eq_iff.mp hr]
    | lt =>
      cases hs : Text.order s t with
      | gt => rw [hs] at hst; cases hst
      | eq => rw [← Text.order_eq_eq_iff.mp hs, hr]; rfl
      | lt => rw [Text.order_lt_trans hr hs]; rfl

/-- Steps that do not go opposite ways make up one step. -/
theorem cmp_eq_then {α : Type} {cmp : α → α → Ordering} [Std.TransCmp cmp] {a b c : α}
    {o p : Ordering} (ho : cmp a b = o) (hp : cmp b c = p) (h : o = p ∨ o = .eq ∨ p = .eq) :
    cmp a c = o.then p := by
  rcases h with rfl | rfl | rfl
  · cases o with
    | lt => exact Std.TransCmp.lt_trans ho hp
    | eq => exact (Std.TransCmp.congr_left ho).trans hp
    | gt => exact Std.TransCmp.gt_trans ho hp
  · exact (Std.TransCmp.congr_left ho).trans hp
  · rw [Ordering.then_eq]
    exact (Std.TransCmp.congr_right hp).symm.trans ho

theorem Number.same_comm (m n : Number) : m.same n = n.same m := by
  cases m <;> cases n <;> first | rfl | exact BEq.comm

namespace Value

mutual

theorem same_self : ∀ v : Value, v.same v = true
  | .null => rfl
  | .bool _ => beq_self_eq_true _
  | .number (.int _) => beq_self_eq_true _
  | .number (.double _) => beq_self_eq_true _
  | .text _ => beq_self_eq_true _
  | .array items => sameItems_self items
  | .object fields => sameFields_self fields

theorem sameItems_self : ∀ vs : List Value, sameItems vs vs = true
  | [] => rfl
  | v :: vs => by rw [sameItems, same_self v, sameItems_self vs, Bool.and_true]

theorem sameFields_self : ∀ fs : List (Text × Value), sameFields fs fs = true
  | [] => rfl
  | (n, v) :: fs => by
    rw [sameFields, same_self v, sameFields_self fs, beq_self_eq_true, Bool.and_true, Bool.and_true]

end

mutual

theorem same_comm : ∀ v w : Value, v.same w = w.same v
  | .null, w => by cases w <;> rfl
  | .bool _, w => by
    cases w with
    | bool _ => exact BEq.comm
    | _ => rfl
  | .number m, w => by
    cases w with
    | number n => exact m.same_comm n
    | _ => rfl
  | .text _, w => by
    cases w with
    | text _ => exact BEq.comm
    | _ => rfl
  | .array vs, w => by
    cases w with
    | array ws => exact sameItems_comm vs ws
    | _ => rfl
  | .object fs, w => by
    cases w with
    | object gs => exact sameFields_comm fs gs
    | _ => rfl

theorem sameItems_comm : ∀ vs ws : List Value, sameItems vs ws = sameItems ws vs
  | [], [] | [], _ :: _ | _ :: _, [] => rfl
  | v :: vs, w :: ws => by rw [sameItems, sameItems, same_comm v w, sameItems_comm vs ws]

theorem sameFields_comm : ∀ fs gs : List (Text × Value), sameFields fs gs = sameFields gs fs
  | [], [] | [], _ :: _ | _ :: _, [] => rfl
  | (m, v) :: fs, (n, w) :: gs => by
    rw [sameFields, sameFields, same_comm v w, sameFields_comm fs gs, BEq.comm (a := m)]

end

theorem looselyEqual_self (p : Platform) (v : Value) : v.looselyEqual p v = true := by
  cases v with
  | null => rfl
  | bool _ => exact beq_self_eq_true _
  | number _ => exact beq_self_eq_true _
  | text _ => exact beq_self_eq_true _
  | array _ => exact same_self _
  | object _ => exact same_self _

/-- The last rule of equality, for what is neither `null` nor two numbers. -/
theorem looselyEqual_eq_ite (p : Platform) {v w : Value} (hv : v ≠ .null) (hw : w ≠ .null)
    (hnumbers : ¬ ∃ m n, v = .number m ∧ w = .number n) :
    v.looselyEqual p w =
      if v.isCollection || w.isCollection then v.same w else v.render p == w.render p := by
  unfold looselyEqual
  split
  next m n => exact absurd ⟨m, n, rfl, rfl⟩ hnumbers
  next => exact absurd rfl hv
  next => exact absurd rfl hw
  next => rfl

theorem looselyEqual_comm (p : Platform) (v w : Value) :
    v.looselyEqual p w = w.looselyEqual p v := by
  by_cases hv : v = .null
  · subst hv
    cases w <;> rfl
  by_cases hw : w = .null
  · subst hw
    cases v <;> rfl
  by_cases hnumbers : ∃ m n, v = .number m ∧ w = .number n
  · obtain ⟨m, n, rfl, rfl⟩ := hnumbers
    exact BEq.comm
  · have hflipped : ¬ ∃ n m, w = .number n ∧ v = .number m :=
      fun ⟨n, m, hw, hv⟩ => hnumbers ⟨m, n, hv, hw⟩
    rw [looselyEqual_eq_ite p hv hw hnumbers, looselyEqual_eq_ite p hw hv hflipped, Bool.or_comm,
      same_comm, BEq.comm (a := v.render p)]

/-- Two numbers or two texts. -/
def Comparable (v w : Value) : Prop :=
  (∃ m n, v = .number m ∧ w = .number n) ∨ ∃ s t, v = .text s ∧ w = .text t

theorem Comparable.symm {v w : Value} (h : v.Comparable w) : w.Comparable v := by
  rcases h with ⟨m, n, rfl, rfl⟩ | ⟨s, t, rfl, rfl⟩
  · exact .inl ⟨n, m, rfl, rfl⟩
  · exact .inr ⟨t, s, rfl, rfl⟩

variable {u v w : Value} {o p : Ordering}

theorem order?_eq_some_iff : v.order? w = some o ↔
    (∃ m n, v = .number m ∧ w = .number n ∧ compare m.units n.units = o) ∨
      ∃ s t, v = .text s ∧ w = .text t ∧ Text.order s t = o := by
  constructor
  · intro h
    cases v <;> cases w <;> simp only [order?, Option.some.injEq, reduceCtorEq] at h
    · exact .inl ⟨_, _, rfl, rfl, h⟩
    · exact .inr ⟨_, _, rfl, rfl, h⟩
  · rintro (⟨m, n, rfl, rfl, rfl⟩ | ⟨s, t, rfl, rfl, rfl⟩) <;> rfl

theorem Comparable.exists_order? (h : v.Comparable w) : ∃ o, v.order? w = some o := by
  rcases h with ⟨m, n, rfl, rfl⟩ | ⟨s, t, rfl, rfl⟩ <;> exact ⟨_, rfl⟩

theorem order?_eq_none (h : ¬ v.Comparable w) : v.order? w = none := by
  refine Option.eq_none_iff_forall_not_mem.mpr fun o ho => h ?_
  rcases order?_eq_some_iff.mp ho with ⟨m, n, hv, hw, -⟩ | ⟨s, t, hv, hw, -⟩
  · exact .inl ⟨m, n, hv, hw⟩
  · exact .inr ⟨s, t, hv, hw⟩

theorem order?_swap (v w : Value) : w.order? v = (v.order? w).map Ordering.swap := by
  by_cases h : v.Comparable w
  · rcases h with ⟨m, n, rfl, rfl⟩ | ⟨s, t, rfl, rfl⟩
    · exact congrArg some (Int.compare_swap _ _).symm
    · exact congrArg some (Text.order_swap s t).symm
  · rw [order?_eq_none h, order?_eq_none (mt Comparable.symm h), Option.map_none]

theorem order?_then (ho : u.order? v = some o) (hp : v.order? w = some p)
    (h : o = p ∨ o = .eq ∨ p = .eq) : u.order? w = some (o.then p) := by
  rcases order?_eq_some_iff.mp ho with ⟨l, m, rfl, rfl, hlm⟩ | ⟨r, s, rfl, rfl, hrs⟩
  · rcases order?_eq_some_iff.mp hp with ⟨_, n, ⟨⟩, rfl, hmn⟩ | ⟨_, _, ⟨⟩, -⟩
    exact congrArg some (cmp_eq_then hlm hmn h)
  · rcases order?_eq_some_iff.mp hp with ⟨_, _, ⟨⟩, -⟩ | ⟨_, t, ⟨⟩, rfl, hst⟩
    exact congrArg some (cmp_eq_then hrs hst h)

/-- Values in an order are equal exactly if none comes first. -/
theorem looselyEqual_of_order? (platform : Platform) (h : v.order? w = some o) :
    v.looselyEqual platform w = o.isEq := by
  rcases order?_eq_some_iff.mp h with ⟨m, n, rfl, rfl, rfl⟩ | ⟨s, t, rfl, rfl, rfl⟩
  · rw [looselyEqual, Bool.eq_iff_iff, beq_iff_eq, Ordering.isEq_iff_eq_eq, Std.compare_eq_iff_eq]
  · have hequal : (Value.text s).looselyEqual platform (.text t) = (s == t) := rfl
    rw [hequal, Bool.eq_iff_iff, beq_iff_eq, Ordering.isEq_iff_eq_eq, Text.order_eq_eq_iff]

end Value

/-- In which orders of its operands a comparison holds. The logical operators are none. -/
def BinaryOp.test? : BinaryOp → Option (Ordering → Bool)
  | .or => none
  | .and => none
  | .eq => some Ordering.isEq
  | .notEq => some Ordering.isNe
  | .lt => some Ordering.isLT
  | .ltEq => some Ordering.isLE
  | .gt => some Ordering.isGT
  | .gtEq => some Ordering.isGE

namespace BinaryOp

/-- The operator that holds of operands in this order and of no others. -/
def ofOrdering : Ordering → BinaryOp
  | .lt => .lt
  | .eq => .eq
  | .gt => .gt

theorem exists_test_ofOrdering (o : Ordering) :
    ∃ test, (ofOrdering o).test? = some test ∧ test o = true := by
  cases o <;> exact ⟨_, rfl, rfl⟩

/-- The operators that are false of values without an order. -/
def orderings : List BinaryOp := [.lt, .ltEq, .gt, .gtEq]

end BinaryOp

section Operators

variable {op : BinaryOp} {test : Ordering → Bool} {l r : Value} {o : Ordering} {p : Platform}

namespace Value

theorem decideBinary_of_order? (hop : op.test? = some test) (h : l.order? r = some o) :
    decideBinary p op l r = test o := by
  have hequal := looselyEqual_of_order? p h
  cases op with
  | or => cases hop
  | and => cases hop
  | eq =>
    cases hop
    exact hequal
  | notEq =>
    cases hop
    rw [decideBinary, hequal]
    cases o <;> rfl
  | _ =>
    cases hop
    rw [decideBinary, h]
    rfl

theorem decideBinary_of_not_comparable (hop : op ∈ BinaryOp.orderings) (h : ¬ l.Comparable r) :
    decideBinary p op l r = false := by
  have hnone := order?_eq_none h
  simp only [BinaryOp.orderings, List.mem_cons, List.not_mem_nil, or_false] at hop
  rcases hop with rfl | rfl | rfl | rfl <;> rw [decideBinary, hnone, Option.any_none]

end Value

namespace Scope

variable {s : Scope} {x y : Expr}

/-- A comparison looks at both operands. -/
theorem eval_comparison (hx : s.eval x = .ok l) (hy : s.eval y = .ok r)
    (hop : op.test? = some test) :
    s.eval (.binary op x y) = .ok (.bool (Value.decideBinary s.platform op l r)) := by
  have hopen : op.settled? l = none := by
    cases op <;> first | rfl | cases hop
  simp only [eval, hx, hy, hopen, bind, Except.bind, pure, Except.pure]

theorem eval_of_order? (hx : s.eval x = .ok l) (hy : s.eval y = .ok r)
    (hop : op.test? = some test) (ho : l.order? r = some o) :
    s.eval (.binary op x y) = .ok (.bool (test o)) := by
  rw [eval_comparison hx hy hop, Value.decideBinary_of_order? hop ho]

theorem eval_of_not_comparable (hx : s.eval x = .ok l) (hy : s.eval y = .ok r)
    (hop : op ∈ BinaryOp.orderings) (h : ¬ l.Comparable r) :
    s.eval (.binary op x y) = .ok (.bool false) := by
  obtain ⟨test, htest⟩ : ∃ test, op.test? = some test := by
    simp only [BinaryOp.orderings, List.mem_cons, List.not_mem_nil, or_false] at hop
    rcases hop with rfl | rfl | rfl | rfl <;> exact ⟨_, rfl⟩
  rw [eval_comparison hx hy htest, Value.decideBinary_of_not_comparable hop h]

theorem eval_not {b : Bool} (hx : s.eval x = .ok (.bool b)) :
    s.eval (.not x) = .ok (.bool !b) := by
  simp only [eval, hx, bind, Except.bind, pure, Except.pure, Value.isTruthy]

/-- Of below, equal and above, the order of the operands makes exactly one true. -/
theorem eval_eq_true_iff (hx : s.eval x = .ok l) (hy : s.eval y = .ok r)
    (ho : l.order? r = some o) (op : BinaryOp) :
    (op ∈ [.lt, .eq, .gt] ∧ s.eval (.binary op x y) = .ok (.bool true)) ↔
      op = BinaryOp.ofOrdering o := by
  constructor
  · rintro ⟨hop, htrue⟩
    simp only [List.mem_cons, List.not_mem_nil, or_false] at hop
    rcases hop with rfl | rfl | rfl <;>
      (rw [eval_of_order? hx hy rfl ho] at htrue; cases o <;> first | rfl | cases htrue)
  · rintro rfl
    obtain ⟨test, htest, htrue⟩ := BinaryOp.exists_test_ofOrdering o
    refine ⟨?_, ?_⟩
    · cases o <;> decide
    · rw [eval_of_order? hx hy htest ho, htrue]

/-- Whatever the operands are, or whether they have values at all. -/
theorem eval_notEq (s : Scope) (x y : Expr) :
    s.eval (.binary .notEq x y) = s.eval (.not (.binary .eq x y)) := by
  simp only [eval, BinaryOp.settled?, bind, Except.bind]
  cases s.eval x with
  | error e => rfl
  | ok l =>
    cases s.eval y with
    | error e => rfl
    | ok r => rfl

/-- Equality and order are coherent. Equality holds of a value with itself and works both ways; the
order of two values is reversed with them, and goes on over a third. Two numbers or two texts stand
in exactly one of three relations, of which "not above" and "not below" are the negations; all other
values have no order either way. -/
theorem comparisons_coherent :
    (∀ (platform : Platform) (v : Value), v.looselyEqual platform v = true) ∧
    (∀ (platform : Platform) (v w : Value),
      v.looselyEqual platform w = w.looselyEqual platform v) ∧
    (∀ v w : Value, w.order? v = (v.order? w).map Ordering.swap) ∧
    (∀ (u v w : Value) (o p : Ordering), u.order? v = some o → v.order? w = some p →
      o = p ∨ o = .eq ∨ p = .eq → u.order? w = some (o.then p)) ∧
    ∀ (s : Scope) (x y : Expr) (l r : Value), s.eval x = .ok l → s.eval y = .ok r →
      (∀ op test, op.test? = some test → ∃ b, s.eval (.binary op x y) = .ok (.bool b)) ∧
      (l.Comparable r →
        (∃! op, op ∈ [.lt, .eq, .gt] ∧ s.eval (.binary op x y) = .ok (.bool true)) ∧
        s.eval (.binary .ltEq x y) = s.eval (.not (.binary .gt x y)) ∧
        s.eval (.binary .gtEq x y) = s.eval (.not (.binary .lt x y))) ∧
      (¬ l.Comparable r → ∀ op ∈ BinaryOp.orderings,
        s.eval (.binary op x y) = .ok (.bool false) ∧
          s.eval (.binary op y x) = .ok (.bool false)) ∧
      s.eval (.binary .notEq x y) = s.eval (.not (.binary .eq x y)) := by
  refine ⟨Value.looselyEqual_self, Value.looselyEqual_comm, Value.order?_swap,
    fun _ _ _ _ _ => Value.order?_then, fun s x y l r hx hy => ⟨?_, ?_, ?_, eval_notEq s x y⟩⟩
  · intro op test htest
    exact ⟨_, eval_comparison hx hy htest⟩
  · intro h
    obtain ⟨o, ho⟩ := h.exists_order?
    have hgt : s.eval (.binary .gt x y) = .ok (.bool o.isGT) := eval_of_order? hx hy rfl ho
    have hlt : s.eval (.binary .lt x y) = .ok (.bool o.isLT) := eval_of_order? hx hy rfl ho
    refine ⟨?_, ?_, ?_⟩
    · simp only [eval_eq_true_iff hx hy ho]
      exact existsUnique_eq
    · rw [eval_of_order? hx hy rfl ho, eval_not hgt]
      cases o <;> rfl
    · rw [eval_of_order? hx hy rfl ho, eval_not hlt]
      cases o <;> rfl
  · intro h op hop
    exact ⟨eval_of_not_comparable hx hy hop h,
      eval_of_not_comparable hy hx hop (mt Value.Comparable.symm h)⟩

/-- The two zeros are one number, and a number is not ordered with its text. -/
theorem comparisons_coherent_zeros :
    let s : Scope := ⟨fun _ => none, fun _ => none, .usual⟩
    let x : Expr := .neg (.literal (.number (.double ⟨false, 0⟩)))
    let y : Expr := .literal (.number (.int 0))
    let t : Expr := .literal (.text "0".toList)
    let half : Value := .number (.double ⟨false, Nat.pow 2 1073⟩)
    (s.eval x = .ok (.number (.double ⟨true, 0⟩)) ∧ s.eval y = .ok (.number (.int 0)) ∧
      (Value.number (.double ⟨true, 0⟩)).Comparable (.number (.int 0)) ∧
      (∃! op, op ∈ [.lt, .eq, .gt] ∧ s.eval (.binary op x y) = .ok (.bool true)) ∧
      s.eval (.binary .eq x y) = .ok (.bool true) ∧
      s.eval (.binary .ltEq x y) = s.eval (.not (.binary .gt x y))) ∧
    (s.eval t = .ok (.text "0".toList) ∧
      ¬ (Value.number (.int 0)).Comparable (.text "0".toList) ∧
      s.eval (.binary .ltEq y t) = .ok (.bool false) ∧
      s.eval (.binary .ltEq t y) = .ok (.bool false) ∧ s.eval (.binary .eq y t) = .ok (.bool true)) ∧
    (Value.number (.int 0)).order? half = some .lt ∧ half.order? (.number (.int 1)) = some .lt ∧
      (Value.number (.int 0)).order? (.number (.int 1)) = some .lt := by
  intro s x y t half
  obtain ⟨-, -, -, hthen, heval⟩ := comparisons_coherent
  have hx : s.eval x = .ok (.number (.double ⟨true, 0⟩)) := rfl
  have hy : s.eval y = .ok (.number (.int 0)) := rfl
  have ht : s.eval t = .ok (.text "0".toList) := rfl
  have hzeros : (Value.number (.double ⟨true, 0⟩)).Comparable (.number (.int 0)) :=
    .inl ⟨_, _, rfl, rfl⟩
  have hmixed : ¬ (Value.number (.int 0)).Comparable (.text "0".toList) := by
    rintro (⟨_, _, -, h⟩ | ⟨_, _, h, -⟩) <;> cases h
  have hlow : (Value.number (.int 0)).order? half = some .lt := by decide +kernel
  have hhigh : half.order? (.number (.int 1)) = some .lt := by decide +kernel
  have hequal : (Value.number (.double ⟨true, 0⟩)).looselyEqual .usual (.number (.int 0)) = true := by
    decide +kernel
  have heq : s.eval (.binary .eq x y) = .ok (.bool true) :=
    (eval_comparison hx hy rfl).trans (congrArg (fun b => Except.ok (Value.bool b)) hequal)
  obtain ⟨-, hordered, -, -⟩ := heval s x y _ _ hx hy
  obtain ⟨-, -, hunordered, -⟩ := heval s y t _ _ hy ht
  obtain ⟨hone, hle, -⟩ := hordered hzeros
  obtain ⟨hyt, hty⟩ := hunordered hmixed .ltEq (by decide)
  exact ⟨⟨hx, hy, hzeros, hone, heq, hle⟩, ⟨ht, hmixed, hyt, hty, rfl⟩, hlow, hhigh,
    hthen _ _ _ _ _ hlow hhigh (.inl rfl)⟩

end Scope

end Operators

end Stencil
