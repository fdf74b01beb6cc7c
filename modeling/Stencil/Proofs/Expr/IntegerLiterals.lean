/- Integers that are written in expressions, and what they evaluate to. -/
import Stencil.Expr.Eval
import Stencil.Proofs.Expr.Spelling
import Stencil.Proofs.Number.Notation
import Stencil.Proofs.Number.Rounding

namespace Stencil

namespace Double

theorem ofDigits?_whole (negative : Bool) (whole : Text) :
    ofDigits? negative whole [] 0 = ofRatio? negative (Nat.ofDigitChars 10 whole 0) 1 := by
  have hnum : ((0 : Int) - ([] : Text).length).toNat = 0 := rfl
  have hden : (-((0 : Int) - ([] : Text).length)).toNat = 0 := rfl
  rw [ofDigits?, List.append_nil, hnum, hden, Nat.pow_eq, Nat.pow_zero, Nat.mul_one]

theorem ofRatio?_one {n : Nat} (hfits : nearest n 1 < overflow) :
    ofRatio? false n 1 = some (ofInt n) := by
  have hsign : ¬ (n : Int) < 0 := Int.not_lt.mpr (Int.natCast_nonneg n)
  rw [ofRatio?, if_pos hfits, ofInt, Int.natAbs_natCast, decide_eq_false hsign]

theorem neg_ofInt {n : Nat} (hn : n ≠ 0) : (ofInt n).neg = ofInt (-n) := by
  have hsign : ¬ (n : Int) < 0 := Int.not_lt.mpr (Int.natCast_nonneg n)
  have hneg : -(n : Int) < 0 := by omega
  simp only [ofInt, neg, hsign, hneg, decide_false, decide_true, Bool.not_false, Int.natAbs_neg]

end Double

namespace Number

/-- Its magnitude is no signed word. -/
def leastSigned : Int := -greatestSigned - 1

/-- A natural number that does not fit a signed word is read as the double nearest to it. -/
theorem ofLiteral?_of_lt {n : Nat} (hn : greatestSigned < n)
    (hfits : Double.nearest n 1 < Double.overflow) :
    ofLiteral? (Text.ofNat n) none = some (.double (.ofInt n)) := by
  have hread : Nat.ofDigitChars 10 (Text.ofNat n) 0 = n := Nat.ofDigitChars_ten_toDigits
  simp only [ofLiteral?, hread, Int.not_le.mpr hn, and_false, if_false, Option.getD_none,
    Double.ofDigits?_whole, Double.ofRatio?_one hfits, Option.map_some]

theorem negate_int {n : Nat} (hn : (n : Int) ≤ greatestSigned) :
    (int n).negate = int (-n) := by
  have hword : greatestSigned = 9223372036854775807 := rfl
  rw [negate, if_pos (by omega)]

end Number

theorem Text.not_mem_ofInt {n : Int} {c : Char} (hsign : c ≠ '-') (hdigit : c.isDigit = false) :
    c ∉ Text.ofInt n := by
  have hdigits : c ∉ Text.ofNat n.natAbs := fun hc =>
    Bool.false_ne_true (hdigit.symm.trans (Text.isDigit_of_mem_ofNat hc))
  unfold Text.ofInt
  split
  · exact fun hc => hdigits ((List.mem_cons.mp hc).resolve_left hsign)
  · exact hdigits

namespace Expr

variable {n : Nat} {m : Number}

theorem parse_ofNat (hm : Number.ofLiteral? (Text.ofNat n) none = some m) :
    parse (Text.ofNat n) = .ok (.literal (.number m)) := by
  have hreads : (Lexeme.number m).Reads (Text.ofNat n) [] := Lexeme.reads_ofLiteral? hm nofun rfl
  rw [Progress.parse_eq_parseOn, ← List.append_nil (Text.ofNat n),
    Progress.parseOn_of_reads hreads rfl, Progress.parseOn_nil]
  rfl

/-- The sign is an operator. -/
theorem parse_minus_ofNat (hm : Number.ofLiteral? (Text.ofNat n) none = some m) :
    parse ('-' :: Text.ofNat n) = .ok (.neg (.literal (.number m))) := by
  have hminus : Lexeme.minus.Reads ['-'] (Text.ofNat n) := ⟨_, _, rfl, rfl, fun _ => rfl⟩
  have hreads : (Lexeme.number m).Reads (Text.ofNat n) [] := Lexeme.reads_ofLiteral? hm nofun rfl
  rw [Progress.parse_eq_parseOn, ← List.singleton_append, Progress.parseOn_of_reads hminus rfl,
    ← List.append_nil (Text.ofNat n), Progress.parseOn_of_reads hreads rfl, Progress.parseOn_nil]
  rfl

/-- An integer is read by its magnitude, and then negated if it is below zero. -/
theorem exists_parse_ofInt {n : Int}
    (hm : Number.ofLiteral? (Text.ofNat n.natAbs) none = some m) :
    ∃ e, parse (Text.ofInt n) = .ok e ∧
      ∀ s : Scope, s.eval e = .ok (.number (if n < 0 then m.negate else m)) := by
  unfold Text.ofInt
  split
  · exact ⟨_, parse_minus_ofNat hm, fun s => rfl⟩
  · exact ⟨_, parse_ofNat hm, fun s => rfl⟩

theorem exists_parse_of_natAbs_le {n : Int} (hn : (n.natAbs : Int) ≤ Number.greatestSigned) :
    ∃ e, parse (Text.ofInt n) = .ok e ∧ ∀ s : Scope, s.eval e = .ok (.number (.int n)) := by
  obtain ⟨e, he, heval⟩ := exists_parse_ofInt (Number.ofLiteral?_of_le hn)
  refine ⟨e, he, fun s => ?_⟩
  rw [heval s]
  split
  next hneg =>
    rw [Number.negate_int hn]
    exact congrArg (fun k => Except.ok (Value.number (.int k))) (by omega)
  next hneg => exact congrArg (fun k => Except.ok (Value.number (.int k))) (by omega)

theorem exists_parse_leastSigned : ∃ e, parse (Text.ofInt Number.leastSigned) = .ok e ∧
    ∀ s : Scope, s.eval e = .ok (.number (.double (.ofInt Number.leastSigned))) := by
  have hm : Number.ofLiteral? (Text.ofNat Number.leastSigned.natAbs) none =
      some (.double (.ofInt Number.leastSigned.natAbs)) :=
    Number.ofLiteral?_of_lt (by decide) (by decide +kernel)
  obtain ⟨e, he, heval⟩ := exists_parse_ofInt hm
  refine ⟨e, he, fun s => ?_⟩
  rw [heval s, if_pos (by decide), Number.negate, Double.neg_ofInt (by decide)]
  rfl

/-- The text of a double that is marked as such is the text of no integer. -/
theorem render_double_ne {p : Platform} (hp : p.MarksDoubles) (x : Double) (n : Int) :
    (Value.number (.double x)).render p ≠ Text.ofInt n := by
  intro h
  have hmarked : '.' ∈ Text.ofInt n ∨ 'e' ∈ Text.ofInt n := h ▸ hp x
  rcases hmarked with hmark | hmark
  · exact Text.not_mem_ofInt (by decide) (by decide) hmark
  · exact Text.not_mem_ofInt (by decide) (by decide) hmark

/-- Every signed word but the least is read as itself and printed as it was written. The least is
read as a double, which is the same number but is printed as doubles are, with a mark that no
integer has. -/
theorem parse_ofInt {n : Int} (hlow : Number.leastSigned ≤ n) (hhigh : n ≤ Number.greatestSigned) :
    ∃ e, parse (Text.ofInt n) = .ok e ∧ ∀ s : Scope,
      (n ≠ Number.leastSigned → s.eval e = .ok (.number (.int n)) ∧
        (Value.number (.int n)).render s.platform = Text.ofInt n) ∧
      (n = Number.leastSigned → s.eval e = .ok (.number (.double (.ofInt n))) ∧
        (Double.ofInt n).units = n * Double.unitsPerOne ∧
        (s.platform.MarksDoubles →
          (Value.number (.double (.ofInt n))).render s.platform ≠ Text.ofInt n)) := by
  by_cases hleast : n = Number.leastSigned
  · subst hleast
    obtain ⟨e, he, heval⟩ := exists_parse_leastSigned
    have hunits : (Double.ofInt Number.leastSigned).units =
        Number.leastSigned * Double.unitsPerOne := by
      decide +kernel
    exact ⟨e, he, fun s => ⟨fun h => absurd rfl h,
      fun _ => ⟨heval s, hunits, fun hp => render_double_ne hp _ _⟩⟩⟩
  · have hmagnitude : (n.natAbs : Int) ≤ Number.greatestSigned := by
      unfold Number.leastSigned at hlow hleast
      omega
    obtain ⟨e, he, heval⟩ := exists_parse_of_natAbs_le hmagnitude
    exact ⟨e, he, fun s => ⟨fun _ => ⟨heval s, rfl⟩, fun h => absurd h hleast⟩⟩

theorem parse_ofInt_words :
    let low : Int := -9223372036854775807
    let least : Int := -9223372036854775808
    let s : Scope := ⟨fun _ => none, fun _ => none, .usual⟩
    (Number.leastSigned ≤ low ∧ low ≤ Number.greatestSigned ∧ low ≠ Number.leastSigned ∧
      ∃ e, parse "-9223372036854775807".toList = .ok e ∧ s.eval e = .ok (.number (.int low))) ∧
    Number.leastSigned ≤ least ∧ least ≤ Number.greatestSigned ∧ least = Number.leastSigned ∧
      s.platform.MarksDoubles ∧ ∃ e, parse "-9223372036854775808".toList = .ok e ∧
        ∃ x, s.eval e = .ok (.number (.double x)) ∧
          (Value.number (.double x)).render s.platform ≠ "-9223372036854775808".toList := by
  intro low least s
  have hlow : Text.ofInt low = "-9223372036854775807".toList := by decide +kernel
  have hleast : Text.ofInt least = "-9223372036854775808".toList := by decide +kernel
  have hword : least = Number.leastSigned := rfl
  obtain ⟨e, he, heval⟩ := parse_ofInt (n := low) (by decide) (by decide)
  obtain ⟨f, hf, hfeval⟩ := parse_ofInt (n := least) (by decide) (by decide)
  refine ⟨⟨by decide, by decide, by decide, e, hlow ▸ he, ((heval s).1 (by decide)).1⟩, by decide,
    by decide, hword, Platform.usual_marksDoubles, f, hleast ▸ hf, ?_⟩
  obtain ⟨hvalue, -, hrender⟩ := (hfeval s).2 hword
  exact ⟨_, hvalue, hleast ▸ hrender Platform.usual_marksDoubles⟩

/-- A signed word that is not read as itself. -/
theorem parse_ofInt_least :
    Text.ofInt Number.leastSigned = "-9223372036854775808".toList ∧
      ∃ e, parse (Text.ofInt Number.leastSigned) = .ok e ∧
        ∀ s : Scope, s.eval e ≠ .ok (.number (.int Number.leastSigned)) ∧
          (s.platform.MarksDoubles →
            ∃ v, s.eval e = .ok v ∧ v.render s.platform ≠ Text.ofInt Number.leastSigned) := by
  obtain ⟨e, he, heval⟩ := exists_parse_leastSigned
  refine ⟨by decide +kernel, e, he, fun s => ⟨?_, fun hp => ?_⟩⟩
  · rw [heval s]
    exact nofun
  · exact ⟨_, heval s, render_double_ne hp _ _⟩

end Expr

end Stencil
