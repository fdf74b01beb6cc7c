/- Access to items and fields by a number, and by the text of the number. -/
import Stencil.Expr.Eval
import Stencil.Proofs.Expr.Spelling
import Stencil.Proofs.Number.Notation

namespace Stencil

namespace Value

theorem indexOfText?_of_mem {t : Text} {c : Char} (hc : c ∈ t) (hsign : c ≠ '+')
    (hdigit : c.isDigit = false) : indexOfText? t = none := by
  have hnone {ds : Text} (hds : c ∈ ds) : (ds.isEmpty || !Double.isDigits ds) = true := by
    rw [Double.isDigits, List.all_eq_false.mpr ⟨c, hds, by rw [hdigit]; decide⟩, Bool.not_false,
      Bool.or_true]
  unfold indexOfText?
  split
  next ds => exact if_pos (hnone ((List.mem_cons.mp hc).resolve_left hsign))
  next => exact if_pos (hnone hc)

theorem indexOfText?_ofNat (n : Nat) : indexOfText? (Text.ofNat n) = some n := by
  have hdigits : Double.isDigits (Text.ofNat n) = true :=
    List.all_eq_true.mpr fun _ => Text.isDigit_of_mem_ofNat
  have hread : Nat.ofDigitChars 10 (Text.ofNat n) 0 = n := Nat.ofDigitChars_ten_toDigits
  unfold indexOfText?
  split
  next ds hsign =>
    have hplus : '+' ∈ Text.ofNat n := hsign ▸ List.mem_cons_self
    cases Text.isDigit_of_mem_ofNat hplus
  next => simp [Text.ofNat_ne_nil, hdigits, hread]

theorem indexOfText?_ofInt (n : Int) : indexOfText? (Text.ofInt n) = (Number.int n).index? := by
  by_cases hn : n < 0
  · have hminus : '-' ∈ Text.ofInt n := by
      rw [Text.ofInt, if_pos hn]
      exact List.mem_cons_self
    rw [indexOfText?_of_mem hminus (by decide) rfl, Number.index?, if_neg (by omega)]
  · rw [Text.ofInt, if_neg hn, indexOfText?_ofNat, Number.index?, if_pos (by omega)]
    exact congrArg some (by omega)

/-- The text of a number names the position that the number names, or none. -/
theorem indexOfText?_text {p : Platform} (hp : p.MarksDoubles) (n : Number) :
    indexOfText? (n.text p) = n.index? := by
  cases n with
  | int n => exact indexOfText?_ofInt n
  | double x =>
    rcases hp x with hmark | hmark
    · exact indexOfText?_of_mem hmark (by decide) rfl
    · exact indexOfText?_of_mem hmark (by decide) rfl

theorem member_text {p : Platform} {n : Number} (h : indexOfText? (n.text p) = n.index?)
    (v : Value) : v.member p (.text (n.text p)) = v.member p (.number n) := by
  cases v with
  | array items =>
    have hindex : (Value.text (n.text p)).index? = (Value.number n).index? := h
    rw [member, member, hindex]
  | _ => rfl

variable {p : Platform} {n : Number} {items : List Value} {fields : List (Text × Value)}

theorem member_array_of_lt {k : Nat} (hk : k < items.length) :
    (Value.array items).member p (.number (.int k)) = items[k] := by
  rw [member, index?, Number.index?, if_pos (Int.natCast_nonneg k), Int.toNat_natCast,
    Option.bind_some, List.getElem?_eq_getElem hk, Option.getD_some]

theorem member_array_of_ne (h : ∀ k : Nat, k < items.length → n ≠ .int k) :
    (Value.array items).member p (.number n) = .null := by
  rw [member, index?]
  cases hindex : n.index? with
  | none => rfl
  | some k =>
    have hn : n = .int k := by
      cases n with
      | double x => cases hindex
      | int n =>
        rw [Number.index?] at hindex
        split at hindex
        next hpos =>
          cases hindex
          rw [Int.toNat_of_nonneg hpos]
        next => cases hindex
    have hk : items.length ≤ k := Nat.le_of_not_lt fun hk => h k hk hn
    rw [Option.bind_some, List.getElem?_eq_none hk, Option.getD_none]

theorem member_object_of_mem {w : Value} (hnames : (fields.map Prod.fst).Nodup)
    (h : (n.text p, w) ∈ fields) : (Value.object fields).member p (.number n) = w := by
  obtain ⟨before, after, rfl⟩ := List.append_of_mem h
  have hbefore : ∀ f ∈ before, (n.text p != f.1) = true := by
    intro f hf
    rw [List.map_append, List.map_cons] at hnames
    have hne := (List.nodup_append.mp hnames).2.2 f.1 (List.mem_map_of_mem hf) (n.text p)
      List.mem_cons_self
    exact bne_iff_ne.mpr hne.symm
  have hlookup : (before ++ (n.text p, w) :: after).lookup (n.text p) = some w :=
    List.lookup_eq_some_iff.mpr ⟨before, after, rfl, hbefore⟩
  rw [member, render, hlookup, Option.getD_some]

theorem member_object_of_not_mem (h : ∀ f ∈ fields, f.1 ≠ n.text p) :
    (Value.object fields).member p (.number n) = .null := by
  have hlookup : fields.lookup (n.text p) = none :=
    List.lookup_eq_none_iff.mpr fun f hf => bne_iff_ne.mpr (h f hf).symm
  rw [member, render, hlookup, Option.getD_none]

end Value

namespace Scope

/-- Where doubles are marked as such, a number and the text that it is written with are one key. In a
list they give the item at an integer position and nothing else; in an object the field of that
text; elsewhere nothing. So a field by position and an index by the same literal are evaluated
alike, errors included. -/
theorem access_agrees {p : Platform} (hp : p.MarksDoubles) (n : Number) :
    (∀ v : Value, v.member p (.number n) = v.member p (.text (n.text p))) ∧
    (∀ items : List Value,
      (∀ (k : Nat) (hk : k < items.length), n = .int k →
        (Value.array items).member p (.number n) = items[k]) ∧
      ((∀ k : Nat, k < items.length → n ≠ .int k) →
        (Value.array items).member p (.number n) = .null)) ∧
    (∀ fields : List (Text × Value), (fields.map Prod.fst).Nodup →
      (∀ w, (n.text p, w) ∈ fields → (Value.object fields).member p (.number n) = w) ∧
      ((∀ f ∈ fields, f.1 ≠ n.text p) → (Value.object fields).member p (.number n) = .null)) ∧
    (∀ v : Value, (∀ items, v ≠ .array items) → (∀ fields, v ≠ .object fields) →
      v.member p (.number n) = .null) ∧
    ∀ (s : Scope) (target : Expr) (k : Nat),
      s.eval (.field target (Text.ofNat k)) =
        s.eval (.index target (.literal (.number (.int k)))) := by
  refine ⟨fun v => (v.member_text (Value.indexOfText?_text hp n)).symm,
    fun items => ⟨?_, Value.member_array_of_ne⟩,
    fun fields hnames => ⟨fun w hw => Value.member_object_of_mem hnames hw,
      Value.member_object_of_not_mem⟩, fun v harray hobject => ?_, fun s target k => ?_⟩
  · rintro k hk rfl
    exact Value.member_array_of_lt hk
  · cases v with
    | array items => exact absurd rfl (harray items)
    | object fields => exact absurd rfl (hobject fields)
    | _ => rfl
  · have hkey (v : Value) : v.member s.platform (.text (Text.ofNat k)) =
        v.member s.platform (.number (.int k)) :=
      v.member_text (n := .int k) (Value.indexOfText?_ofInt k)
    simp only [eval, hkey, bind, Except.bind]

/-- A position, a double of the same size, and a negative number. -/
theorem access_agrees_roles :
    let roles : List Value := [.text "admin".toList, .text "dev".toList]
    let user : List (Text × Value) := [("-1".toList, .bool true), ("roles".toList, .array roles)]
    let p : Platform := .usual
    let one : Number := .double ⟨false, Double.unitsPerOne⟩
    (1 < roles.length ∧ (Value.array roles).member p (.number (.int 1)) = .text "dev".toList ∧
      (Value.array roles).member p (.text "1".toList) = .text "dev".toList) ∧
    ((∀ k : Nat, k < roles.length → one ≠ .int k) ∧ one.text p = "1.0".toList ∧
      (Value.array roles).member p (.number one) = .null ∧
      (Value.array roles).member p (.text "1.0".toList) = .null) ∧
    (user.map Prod.fst).Nodup ∧ ("-1".toList, .bool true) ∈ user ∧
      (Value.object user).member p (.number (.int (-1))) = .bool true ∧
      (Value.object user).member p (.text "-1".toList) = .bool true := by
  intro roles user p one
  obtain ⟨hposition, hpositions, -⟩ := access_agrees Platform.usual_marksDoubles (.int 1)
  obtain ⟨hdouble, hdoubles, -⟩ := access_agrees Platform.usual_marksDoubles one
  obtain ⟨hnegative, -, hfields, -⟩ := access_agrees Platform.usual_marksDoubles (.int (-1))
  have hlength : 1 < roles.length := by decide
  have hone : one.text p = "1.0".toList := by decide +kernel
  have hne : ∀ k : Nat, k < roles.length → one ≠ .int k := fun _ _ => nofun
  have hnames : (user.map Prod.fst).Nodup := by decide
  have hmem : ("-1".toList, Value.bool true) ∈ user := List.mem_cons_self
  have hitem := (hpositions roles).1 1 hlength rfl
  have hnull := (hdoubles roles).2 hne
  have hfield := (hfields user hnames).1 _ hmem
  refine ⟨⟨hlength, hitem, ?_⟩, ⟨hne, hone, hnull, ?_⟩, hnames, hmem, hfield, ?_⟩
  · exact (hposition (.array roles)).symm.trans hitem
  · rw [← hone, ← hdouble, hnull]
  · exact (hnegative (.object user)).symm.trans hfield

end Scope

end Stencil
