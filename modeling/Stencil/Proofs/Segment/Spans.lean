/- Where the tokens of a stretch of segments stand among those of the whole text. -/
import Stencil.Proofs.Segment.Regions

namespace Stencil

namespace Token

/-- The token of a text that stands further down and further on. -/
def moved (lines bytes : Nat) (k : Token) : Token :=
  { k with line := k.line + lines, start := k.start + bytes, stop := k.stop + bytes }

/-- Whether the token stands between two byte offsets. -/
def liesIn (first last : Nat) (k : Token) : Bool := first ≤ k.start && k.stop ≤ last

end Token

namespace Segment

/-- No delimiter of the segment is empty. -/
def Delimited : Segment → Prop
  | .directive opening _ _ _ closing => opening ≠ [] ∧ closing ≠ []
  | .tag _ opening _ closing => opening ≠ [] ∧ closing ≠ []
  | _ => True

theorem tokens_moved (s : Segment) (line offset lines bytes : Nat) :
    s.tokens (line + lines) (offset + bytes) =
      (s.tokens line offset).map (Token.moved lines bytes) := by
  cases s with
  | text t => rfl
  | escapedOpening opening =>
    simp only [tokens, List.map_cons, List.map_nil, Token.moved, Nat.add_right_comm _ bytes]
  | tag kind opening body closing =>
    simp only [tokens, List.map_cons, List.map_nil, Token.moved, Nat.add_right_comm _ bytes,
      Nat.add_right_comm _ lines]
  | directive opening lead name argument closing =>
    simp only [tokens, List.map_cons, List.map_append, List.map_nil, Token.moved,
      Nat.add_right_comm _ bytes, Nat.add_right_comm _ lines]
    cases expression? argument <;> rfl

/-- Each token stands in its segment, and none in the empty text at an end of it. -/
theorem span_of_mem_tokens {s : Segment} (hs : s.Delimited) {line offset : Nat} {k : Token}
    (hk : k ∈ s.tokens line offset) :
    (offset ≤ k.start ∧ k.start < offset + s.raw.byteSize) ∧
      offset < k.stop ∧ k.stop ≤ offset + s.raw.byteSize := by
  cases s with
  | text t => cases hk
  | escapedOpening opening =>
    obtain rfl := List.mem_singleton.mp hk
    simp only [raw, Text.byteSize_cons, show '\\'.utf8Size = 1 from rfl]
    omega
  | tag kind opening body closing =>
    have hopening := Text.byteSize_pos hs.1
    have hclosing := Text.byteSize_pos hs.2
    simp only [tokens, List.mem_cons, List.not_mem_nil, or_false] at hk
    simp only [raw, Text.byteSize_append]
    rcases hk with rfl | rfl | rfl <;> dsimp only <;> omega
  | directive opening lead name argument closing =>
    have hopening := Text.byteSize_pos hs.1
    have hclosing := Text.byteSize_pos hs.2
    simp only [tokens, List.mem_cons, List.mem_append, List.not_mem_nil, or_false] at hk
    simp only [raw, Text.byteSize_append]
    rcases hk with rfl | rfl | hexpression | rfl
    · dsimp only
      omega
    · dsimp only
      omega
    · split at hexpression
      next e _ =>
        obtain rfl := List.mem_singleton.mp hexpression
        dsimp only
        omega
      next => cases hexpression
    · dsimp only
      omega

end Segment

namespace DelimiterSet

variable {ds : DelimiterSet} {s : Segment} {ss : List Segment} {rest : Text}

theorem IsRegion.delimited (hds : ds.Closes) {o : Opener} {body after : Text}
    (h : ds.IsRegion o body after) : o.opening ≠ [] ∧ o.closing ≠ [] :=
  ⟨h.opens.1.nonempty, h.opens.closing_ne_nil hds⟩

theorem delimited_of_fits (hds : ds.Closes) (h : ds.Fits rest s) : s.Delimited := by
  cases s with
  | text t => trivial
  | escapedOpening opening => trivial
  | directive opening lead name argument closing => exact IsRegion.delimited hds h
  | tag kind opening body closing => exact IsRegion.delimited hds h

theorem AllFit.delimited (hds : ds.Closes) (h : ds.AllFit rest ss) :
    ∀ s ∈ ss, s.Delimited := by
  induction ss with
  | nil => nofun
  | cons s ss ih => exact List.forall_mem_cons.mpr ⟨delimited_of_fits hds h.1, ih h.2⟩

end DelimiterSet

variable {ss front inner rear : List Segment} {line offset : Nat}

theorem tokensFrom_append (ss ts : List Segment) (line offset : Nat) :
    tokensFrom line offset (ss ++ ts) = tokensFrom line offset ss ++
      tokensFrom (line + (source ss).newlines) (offset + (source ss).byteSize) ts := by
  induction ss generalizing line offset with
  | nil => rfl
  | cons s ss ih =>
    rw [List.cons_append, tokensFrom, ih, tokensFrom, source_cons, Text.newlines_append,
      Text.byteSize_append, List.append_assoc, Nat.add_assoc, Nat.add_assoc]

theorem tokensFrom_moved (ss : List Segment) (line offset lines bytes : Nat) :
    tokensFrom (line + lines) (offset + bytes) ss =
      (tokensFrom line offset ss).map (Token.moved lines bytes) := by
  induction ss generalizing line offset with
  | nil => rfl
  | cons s ss ih =>
    rw [tokensFrom, tokensFrom, List.map_append, s.tokens_moved, Nat.add_right_comm line,
      Nat.add_right_comm offset, ih]

theorem span_of_mem_tokensFrom (hss : ∀ s ∈ ss, s.Delimited) {k : Token}
    (hk : k ∈ tokensFrom line offset ss) :
    (offset ≤ k.start ∧ k.start < offset + (source ss).byteSize) ∧
      offset < k.stop ∧ k.stop ≤ offset + (source ss).byteSize := by
  induction ss generalizing line offset with
  | nil => cases hk
  | cons s ss ih =>
    obtain ⟨hs, hss⟩ := List.forall_mem_cons.mp hss
    rw [source_cons, Text.byteSize_append]
    rcases List.mem_append.mp hk with hk | hk
    · have hspan := Segment.span_of_mem_tokens hs hk
      omega
    · have hspan := ih hss hk
      omega

/-- The tokens within a stretch of segments are those of the stretch. -/
theorem filter_tokensFrom (h : ∀ s ∈ front ++ (inner ++ rear), s.Delimited) (line offset : Nat) :
    (tokensFrom line offset (front ++ (inner ++ rear))).filter
        (Token.liesIn (offset + (source front).byteSize)
          (offset + (source (front ++ inner)).byteSize)) =
      tokensFrom (line + (source front).newlines) (offset + (source front).byteSize) inner := by
  obtain ⟨hfront, h⟩ := List.forall_mem_append.mp h
  obtain ⟨hinner, hrear⟩ := List.forall_mem_append.mp h
  rw [tokensFrom_append, tokensFrom_append, List.filter_append, List.filter_append,
    List.filter_eq_nil_iff.mpr, List.filter_eq_self.mpr, List.filter_eq_nil_iff.mpr,
    List.nil_append, List.append_nil]
  · intro k hk
    have hspan := span_of_mem_tokensFrom hrear hk
    rw [source_append, Text.byteSize_append, Token.liesIn, Bool.and_eq_true, decide_eq_true_eq,
      decide_eq_true_eq]
    omega
  · intro k hk
    have hspan := span_of_mem_tokensFrom hinner hk
    rw [source_append, Text.byteSize_append, Token.liesIn, Bool.and_eq_true, decide_eq_true_eq,
      decide_eq_true_eq]
    omega
  · intro k hk
    have hspan := span_of_mem_tokensFrom hfront hk
    rw [Token.liesIn, Bool.and_eq_true, decide_eq_true_eq, decide_eq_true_eq]
    omega

end Stencil
