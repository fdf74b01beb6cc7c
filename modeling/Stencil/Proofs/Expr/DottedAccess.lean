/- Fields of fields: which chains of dotted names parse. -/
import Mathlib.Data.List.Chain
import Mathlib.Data.List.Induction
import Stencil.Proofs.Expr.Spelling
import Stencil.Proofs.Number.Rounding

namespace Stencil

namespace Text

/-- A position as it is written: a natural number that fits a signed word. -/
def IsPosition (t : Text) : Prop := ∃ n : Nat, t = ofNat n ∧ (n : Int) ≤ Number.greatestSigned

/-- No name starts like a position. -/
theorem IsName.not_isPosition {t : Text} (h : t.IsName) : ¬ t.IsPosition := by
  rintro ⟨n, hn, -⟩
  obtain ⟨c, cs, rfl, hc, -⟩ := h
  have hdigit : c.isDigit = true := isDigit_of_mem_ofNat (hn ▸ List.mem_cons_self)
  cases hdigit.symm.trans (Unicode.isDigit_eq_false_of_isWordStart hc)

def IsField (t : Text) : Prop := t.IsName ∨ t.IsPosition

/-- Not two positions. -/
def Apart (s t : Text) : Prop := ¬ (s.IsPosition ∧ t.IsPosition)

/-- Fields one after the other, each behind a dot. -/
def behindDots (fields : List Text) : Text := fields.flatMap ('.' :: ·)

/-- The fields of fields of a variable. -/
def dotted (name : Text) (fields : List Text) : Text := ('$' :: name) ++ behindDots fields

theorem behindDots_cons (f : Text) (fs : List Text) :
    behindDots (f :: fs) = ['.'] ++ (f ++ behindDots fs) := by
  simp only [behindDots, List.flatMap_cons, List.cons_append, List.nil_append]

theorem eq_dot_of_mem_head?_behindDots {fs : List Text} :
    ∀ c ∈ (behindDots fs).head?, c = '.' := by
  intro c hc
  cases fs with
  | nil => cases hc
  | cons f fs =>
    rw [behindDots_cons] at hc
    cases hc
    rfl

theorem isDigit_eq_false_of_mem_head?_behindDots (fs : List Text) :
    ∀ c ∈ (behindDots fs).head?, c.isDigit = false := by
  intro c hc
  rw [eq_dot_of_mem_head?_behindDots c hc]
  rfl

theorem behindDots_cons_cons (f g : Text) (fs : List Text) :
    behindDots (f :: g :: fs) = ['.'] ++ ((f ++ '.' :: g) ++ behindDots fs) := by
  simp only [behindDots_cons, List.append_assoc, List.cons_append, List.nil_append]

theorem length_ofNat_le {n : Nat} (hn : (n : Int) ≤ Number.greatestSigned) :
    (ofNat n).length ≤ 19 := by
  have hword : Number.greatestSigned = 9223372036854775807 := rfl
  exact (Nat.length_toDigits_le_iff (by decide) (by decide)).mpr (by omega)

end Text

/-- Any two positions are the parts of a double. -/
theorem Double.exists_ofDigits? {m n : Nat} (hm : (m : Int) ≤ Number.greatestSigned)
    (hn : (n : Int) ≤ Number.greatestSigned) :
    ∃ x, ofDigits? false (Text.ofNat m) (Text.ofNat n) 0 = some x := by
  have hvalue : Nat.ofDigitChars 10 (Text.ofNat m ++ Text.ofNat n) 0 =
      10 ^ (Text.ofNat n).length * m + n := by
    rw [Nat.ofDigitChars_append, Nat.ofDigitChars_eq_ofDigitChars_zero]
    simp only [Text.ofNat, Nat.ofDigitChars_ten_toDigits]
  have hword : Number.greatestSigned = 9223372036854775807 := rfl
  have hpow : 10 ^ (Text.ofNat n).length ≤ 10 ^ 19 :=
    Nat.pow_le_pow_right (by decide) (Text.length_ofNat_le hn)
  have hmul := Nat.mul_le_mul_right m hpow
  have hbound : 10 ^ (Text.ofNat n).length * m + n ≤ 2 ^ 128 := by omega
  have hunits := Nat.mul_le_mul_right unitsPerOne hbound
  have hlimit : 2 * (2 ^ 128 * unitsPerOne) + 1 < overflow := by decide +kernel
  have hscale : (0 - ((Text.ofNat n).length : Int)).toNat = 0 := by omega
  rw [ofDigits?, hvalue, hscale]
  refine exists_ofRatio? false ?_ _
  rw [Nat.pow_eq, Nat.pow_zero, Nat.mul_one]
  omega

namespace Lexeme

variable {rest : Text}

theorem reads_dot (rest : Text) : dot.Reads ['.'] rest := ⟨_, _, rfl, rfl, fun _ => rfl⟩

/-- A dot between two positions is read as their decimal point. -/
theorem exists_reads_decimal {m n : Text} (hm : m.IsPosition) (hn : n.IsPosition)
    (hrest : ∀ c ∈ rest.head?, c.isDigit = false) :
    ∃ x, Double.ofDigits? false m n 0 = some x ∧
      (number (.double x)).Reads (m ++ '.' :: n) rest := by
  obtain ⟨m, rfl, hm⟩ := hm
  obtain ⟨n, rfl, hn⟩ := hn
  have hwhole : ∀ c ∈ Text.ofNat m, c.isDigit = true := fun _ => Text.isDigit_of_mem_ofNat
  have hdigits : ∀ c ∈ Text.ofNat n, c.isDigit = true := fun _ => Text.isDigit_of_mem_ofNat
  have hpoint : ∀ c ∈ ('.' :: (Text.ofNat n ++ rest)).head?, c.isDigit = false := by
    rintro _ ⟨⟩
    rfl
  obtain ⟨x, hx⟩ := Double.exists_ofDigits? hm hn
  have hfraction : fraction? ('.' :: (Text.ofNat n ++ rest)) = some (Text.ofNat n) := by
    have hrun := Text.takeWhile_append_stop hdigits hrest
    obtain ⟨d, ds, hn⟩ := List.exists_cons_of_ne_nil (Text.ofNat_ne_nil n)
    rw [hn, List.cons_append] at hrun ⊢
    rw [fraction?, if_pos (hdigits d (hn ▸ List.mem_cons_self)), hrun]
  have hnumber : Number.ofLiteral? (Text.ofNat m) (some (Text.ofNat n)) = some (.double x) := by
    simp only [Number.ofLiteral?, Option.isNone_some, Bool.false_eq_true, false_and, if_false,
      Option.getD_some, hx, Option.map_some]
  refine ⟨x, hx, reads_of_numberAt ?_ ?_ fun position => ?_⟩
  · exact List.append_ne_nil_of_left_ne_nil (Text.ofNat_ne_nil m) _
  · rw [List.head?_append_of_ne_nil _ (Text.ofNat_ne_nil m)]
    exact isDigit_of_mem_head?_ofNat
  · rw [List.append_assoc, List.cons_append, numberAt, Text.takeWhile_append_stop hwhole hpoint,
      Text.dropWhile_append_stop hwhole hpoint, hfraction]
    simp only [hnumber, Option.map_some, Option.getD_some, List.length_append, List.length_cons]

/-- A field ends at the next dot. -/
theorem exists_reads_field {f : Text} {fs : List Text} (hf : f.IsField)
    (hfs : ∀ g ∈ fs, g.IsField) (hnext : ∀ g ∈ fs.head?, f.Apart g) :
    ∃ l : Lexeme, l.property? = some f ∧ l.Reads f (Text.behindDots fs) := by
  rcases hf with hname | hposition
  · refine ⟨.ident f, rfl, reads_ident hname ?_⟩
    intro c hc
    rw [Text.eq_dot_of_mem_head?_behindDots c hc]
    decide +kernel
  · have hfraction : fraction? (Text.behindDots fs) = none := by
      cases fs with
      | nil => rfl
      | cons g fs =>
        have hg : g.IsName := (hfs g List.mem_cons_self).resolve_right fun hg =>
          hnext g rfl ⟨hposition, hg⟩
        obtain ⟨c, cs, rfl, hc, -⟩ := hg
        rw [Text.behindDots_cons, List.singleton_append, List.cons_append, fraction?,
          Unicode.isDigit_eq_false_of_isWordStart hc]
        rfl
    obtain ⟨n, rfl, hn⟩ := hposition
    refine ⟨.number (.int n), ?_, reads_ofNat hn ?_ hfraction⟩
    · rw [property?, Number.index?, if_pos (Int.natCast_nonneg n), Int.toNat_natCast]
      rfl
    · exact Text.isDigit_eq_false_of_mem_head?_behindDots fs

end Lexeme

variable {f : Text} {fs : List Text}

theorem exists_positions (h : ¬ ∀ g ∈ fs.head?, f.Apart g) :
    ∃ g rest, fs = g :: rest ∧ f.IsPosition ∧ g.IsPosition := by
  cases fs with
  | nil => exact absurd nofun h
  | cons g rest =>
    refine ⟨g, rest, rfl, Classical.byContradiction fun hapart => h ?_⟩
    rintro _ ⟨⟩
    exact hapart

theorem exists_tokensAt_cons (hfs : ∀ g ∈ f :: fs, g.IsField) (hnext : ∀ g ∈ fs.head?, f.Apart g)
    (ih : ∀ position, ∃ r, tokensAt 0 position (Text.behindDots fs) = .ok r) (position : Nat) :
    ∃ r, tokensAt 0 position (Text.behindDots (f :: fs)) = .ok r := by
  obtain ⟨hf, hfs⟩ := List.forall_mem_cons.mp hfs
  obtain ⟨l, -, hl⟩ := Lexeme.exists_reads_field hf hfs hnext
  obtain ⟨r, hr⟩ := ih (position + Text.byteSize ['.'] + f.byteSize)
  rw [Text.behindDots_cons, tokensAt_of_reads (Lexeme.reads_dot _), tokensAt_of_reads hl, hr]
  exact ⟨_, rfl⟩

/-- Fields can be scanned whatever numbers come of them. -/
theorem exists_tokensAt_behindDots (hfs : ∀ f ∈ fs, f.IsField) (position : Nat) :
    ∃ r, tokensAt 0 position (Text.behindDots fs) = .ok r := by
  -- two positions are read at once
  induction fs using List.twoStepInduction generalizing position with
  | nil => exact ⟨_, rfl⟩
  | singleton f => exact exists_tokensAt_cons hfs nofun (fun _ => ⟨_, rfl⟩) position
  | cons_cons f g fs ih ihtail =>
    have htail := (List.forall_mem_cons.mp hfs).2
    by_cases hnext : f.Apart g
    · have hnext : ∀ h ∈ (g :: fs).head?, f.Apart h := by
        rintro _ ⟨⟩
        exact hnext
      exact exists_tokensAt_cons hfs hnext (ihtail g htail) position
    · obtain ⟨hf, hg⟩ := Classical.not_not.mp hnext
      obtain ⟨x, -, hx⟩ := Lexeme.exists_reads_decimal hf hg
        (Text.isDigit_eq_false_of_mem_head?_behindDots fs)
      obtain ⟨r, hr⟩ := ih (List.forall_mem_cons.mp htail).2
        (position + Text.byteSize ['.'] + Text.byteSize (f ++ '.' :: g))
      rw [Text.behindDots_cons_cons, tokensAt_of_reads (Lexeme.reads_dot _), tokensAt_of_reads hx,
        hr]
      exact ⟨_, rfl⟩

namespace Progress

/-- The expression is complete, unless the text goes on with it. -/
def complete (e : Expr) : Progress := ⟨[], [], .value e⟩

theorem parseOn_complete_cons (e : Expr) (position : Nat) (hf : f.IsField)
    (hfs : ∀ g ∈ fs, g.IsField) (hnext : ∀ g ∈ fs.head?, f.Apart g) :
    (complete e).parseOn position (Text.behindDots (f :: fs)) =
      (complete (.field e f)).parseOn (position + Text.byteSize ('.' :: f))
        (Text.behindDots fs) := by
  obtain ⟨l, hproperty, hl⟩ := Lexeme.exists_reads_field hf hfs hnext
  have hdot : (complete e).step ⟨.dot, position⟩ = .ok ⟨[], [], .property e⟩ := rfl
  have hfield (at_ : Nat) : step ⟨[], [], .property e⟩ ⟨l, at_⟩ = .ok (complete (.field e f)) := by
    simp only [step, atProperty, hproperty, complete]
  rw [Text.behindDots_cons, parseOn_of_reads (Lexeme.reads_dot _) hdot,
    parseOn_of_reads hl (hfield _), Nat.add_assoc]
  rfl

theorem parseOn_complete_positions (e : Expr) (position : Nat) {m n : Text} (hm : m.IsPosition)
    (hn : n.IsPosition) (hfs : ∀ f ∈ fs, f.IsField) :
    ∃ x, Double.ofDigits? false m n 0 = some x ∧
      (complete e).parseOn position (Text.behindDots (m :: n :: fs)) = .error
        { kind := .missingPropertyName
          position := position + 1
          found := some (.lexeme (.number (.double x))) } := by
  obtain ⟨x, hvalue, hx⟩ := Lexeme.exists_reads_decimal hm hn
    (Text.isDigit_eq_false_of_mem_head?_behindDots fs)
  refine ⟨x, hvalue, ?_⟩
  have hdot : (complete e).step ⟨.dot, position⟩ = .ok ⟨[], [], .property e⟩ := rfl
  obtain ⟨r, hr⟩ := exists_tokensAt_behindDots hfs
    (position + Text.byteSize ['.'] + Text.byteSize (m ++ '.' :: n))
  rw [Text.behindDots_cons_cons, parseOn_of_reads (Lexeme.reads_dot _) hdot]
  exact parseOn_eq_error hx rfl hr

theorem parseOn_complete_of_isChain (e : Expr) (position : Nat) (hfs : ∀ f ∈ fs, f.IsField)
    (hchain : fs.IsChain Text.Apart) :
    (complete e).parseOn position (Text.behindDots fs) = .ok (fs.foldl .field e) := by
  induction fs generalizing e position with
  | nil => rfl
  | cons f fs ih =>
    obtain ⟨hf, hfs⟩ := List.forall_mem_cons.mp hfs
    obtain ⟨hnext, hchain⟩ := List.isChain_cons.mp hchain
    rw [parseOn_complete_cons e position hf hfs hnext, ih _ _ hfs hchain]
    rfl

theorem parseOn_complete_of_not_isChain (e : Expr) (position : Nat)
    (hfs : ∀ f ∈ fs, f.IsField) (hchain : ¬ fs.IsChain Text.Apart) :
    ∃ before m n after x, fs = before ++ m :: n :: after ∧
      (before ++ [m]).IsChain Text.Apart ∧ m.IsPosition ∧ n.IsPosition ∧
      Double.ofDigits? false m n 0 = some x ∧
      (complete e).parseOn position (Text.behindDots fs) = .error
        { kind := .missingPropertyName
          position := position + (Text.behindDots before).byteSize + 1
          found := some (.lexeme (.number (.double x))) } := by
  induction fs generalizing e position with
  | nil => exact absurd .nil hchain
  | cons f fs ih =>
    obtain ⟨hf, hfs⟩ := List.forall_mem_cons.mp hfs
    by_cases hnext : ∀ g ∈ fs.head?, f.Apart g
    · rw [List.isChain_cons, not_and] at hchain
      obtain ⟨before, m, n, after, x, rfl, hbefore, hm, hn, hx, herror⟩ :=
        ih (.field e f) (position + Text.byteSize ('.' :: f)) hfs (hchain hnext)
      refine ⟨f :: before, m, n, after, x, rfl, ?_, hm, hn, hx, ?_⟩
      · refine List.isChain_cons.mpr ⟨?_, hbefore⟩
        cases before <;> exact hnext
      · rw [parseOn_complete_cons e position hf hfs hnext, herror, Text.behindDots_cons]
        simp only [Text.byteSize_append, Text.byteSize_cons, Text.byteSize_nil, Nat.add_assoc,
          Nat.zero_add]
    · obtain ⟨g, rest, rfl, hm, hn⟩ := exists_positions hnext
      obtain ⟨x, hx, herror⟩ :=
        parseOn_complete_positions e position hm hn (List.forall_mem_cons.mp hfs).2
      exact ⟨[], f, g, rest, x, rfl, .singleton f, hm, hn, hx, herror⟩

end Progress

/-- Fields of fields of a variable, of any number, are read one inside the other, unless a position
follows a position. The first two that do are taken for a number with a fraction, which is no field.
-/
theorem Expr.parse_dotted {name : Text} {fields : List Text} (hname : name ≠ [])
    (hword : ∀ c ∈ name, Unicode.isWord c = true) (hfields : ∀ f ∈ fields, f.IsField) :
    (fields.IsChain Text.Apart →
      Expr.parse (Text.dotted name fields) = .ok (fields.foldl .field (.var name))) ∧
    (¬ fields.IsChain Text.Apart → ∃ before m n after x, fields = before ++ m :: n :: after ∧
      (before ++ [m]).IsChain Text.Apart ∧ m.IsPosition ∧ n.IsPosition ∧
      Double.ofDigits? false m n 0 = some x ∧
      Expr.parse (Text.dotted name fields) = .error
        { kind := .missingPropertyName
          position := (Text.dotted name before).byteSize + 1
          found := some (.lexeme (.number (.double x))) }) := by
  have hdot : ∀ c ∈ (Text.behindDots fields).head?, Unicode.isWord c = false := by
    intro c hc
    rw [Text.eq_dot_of_mem_head?_behindDots c hc]
    decide +kernel
  have hparse : Expr.parse (Text.dotted name fields) =
      (Progress.complete (.var name)).parseOn (Text.byteSize ('$' :: name))
        (Text.behindDots fields) := by
    rw [Progress.parse_eq_parseOn, Text.dotted,
      Progress.parseOn_of_reads (Lexeme.reads_var hname hword hdot) rfl, Nat.zero_add]
    rfl
  rw [hparse]
  refine ⟨Progress.parseOn_complete_of_isChain _ _ hfields, fun hchain => ?_⟩
  simp only [Text.dotted, Text.byteSize_append]
  exact Progress.parseOn_complete_of_not_isChain _ _ hfields hchain

/-- A variable may have a name that no field has: this one starts with a digit. -/
theorem Expr.parse_dotted_roles :
    let name : Text := "1é".toList
    let fields : List Text := ["roles".toList, "0".toList, "_x²".toList,
      "9223372036854775807".toList]
    let mixed : List Text := ["a".toList, "1".toList, "2".toList, "b".toList]
    name ≠ [] ∧ (∀ c ∈ name, Unicode.isWord c = true) ∧
      ((∀ f ∈ fields, f.IsField) ∧ fields.IsChain Text.Apart ∧
        Text.dotted name fields = "$1é.roles.0._x².9223372036854775807".toList ∧
        Expr.parse (Text.dotted name fields) =
          .ok (.field (.field (.field (.field (.var name) "roles".toList) "0".toList)
            "_x²".toList) "9223372036854775807".toList)) ∧
      (∀ f ∈ mixed, f.IsField) ∧ ¬ mixed.IsChain Text.Apart ∧
        Text.dotted name mixed = "$1é.a.1.2.b".toList ∧
        ∃ e, e.kind = .missingPropertyName ∧ Expr.parse (Text.dotted name mixed) = .error e := by
  intro name fields mixed
  have hname : name ≠ [] := List.cons_ne_nil _ _
  have hword : ∀ c ∈ name, Unicode.isWord c = true := List.all_eq_true.mp (by decide +kernel)
  have hroles : Text.IsName "roles".toList :=
    ⟨'r', "oles".toList, rfl, rfl, List.all_eq_true.mp (by decide +kernel)⟩
  have hunderscore : Text.IsName "_x²".toList :=
    ⟨'_', "x²".toList, rfl, rfl, List.all_eq_true.mp (by decide +kernel)⟩
  have hzero : Text.IsPosition "0".toList := ⟨0, rfl, by decide⟩
  have hlargest : Text.IsPosition "9223372036854775807".toList :=
    ⟨9223372036854775807, by decide +kernel, by decide⟩
  have hfields : ∀ f ∈ fields, f.IsField := by
    simp only [fields, List.forall_mem_cons]
    exact ⟨.inl hroles, .inr hzero, .inl hunderscore, .inr hlargest, nofun⟩
  have hchain : fields.IsChain Text.Apart := by
    simp only [fields, List.isChain_cons_cons]
    exact ⟨fun h => hroles.not_isPosition h.1, fun h => hunderscore.not_isPosition h.2,
      fun h => hunderscore.not_isPosition h.1, .singleton _⟩
  have hone : Text.IsPosition "1".toList := ⟨1, rfl, by decide⟩
  have htwo : Text.IsPosition "2".toList := ⟨2, rfl, by decide⟩
  have hmixed : ∀ f ∈ mixed, f.IsField := by
    simp only [mixed, List.forall_mem_cons]
    exact ⟨.inl ⟨'a', [], rfl, rfl, nofun⟩, .inr hone, .inr htwo,
      .inl ⟨'b', [], rfl, rfl, nofun⟩, nofun⟩
  have hpositions : ¬ mixed.IsChain Text.Apart := by
    simp only [mixed, List.isChain_cons_cons]
    exact fun h => h.2.1 ⟨hone, htwo⟩
  obtain ⟨before, m, n, after, x, -, -, -, -, -, herror⟩ :=
    (Expr.parse_dotted hname hword hmixed).2 hpositions
  have hparse := (Expr.parse_dotted hname hword hfields).1 hchain
  exact ⟨hname, hword, ⟨hfields, hchain, by decide +kernel, hparse⟩, hmixed, hpositions,
    by decide +kernel, _, rfl, herror⟩

/-- Each of the two positions could be the field of a variable. -/
theorem Expr.parse_dotted_positions :
    let read := (Double.ofDigits? false "1".toList "2".toList 0).map fun x =>
      Found.lexeme (.number (.double x))
    Text.IsField "1".toList ∧ Text.IsField "2".toList ∧
      Expr.parse "$v.1".toList = .ok (.field (.var "v".toList) "1".toList) ∧
      Expr.parse "$v.1.2".toList = .error
        { kind := .missingPropertyName, position := 3, found := read } ∧ read ≠ none := by
  intro read
  have herror : (Expr.parse "$v.1.2".toList).map (fun _ => ()) = .error
      { kind := .missingPropertyName, position := 3, found := read } := by
    decide +kernel
  exact ⟨.inr ⟨1, rfl, by decide⟩, .inr ⟨2, rfl, by decide⟩, rfl,
    Outcome.map_eq_error_iff.mp herror, by decide +kernel⟩

end Stencil
