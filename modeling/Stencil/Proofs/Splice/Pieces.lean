/- The text that stands for each segment once the tags are replaced. -/
import Stencil.Splice.Tags

namespace Stencil

namespace Tagging

variable {g : Tagging}

mutual

/-- The value of a tag body, with every tag inside replaced. -/
inductive Expands (g : Tagging) : Text → Text → Prop
  | plain {body value : Text} (hvalue : g.valueOf body = .ok value)
      (huntagged : taggedSegments? g.template.own.delimiters value = none) : Expands g body value
  | tagged {body value : Text} {ss : List Segment} {ps : List Text}
      (hvalue : g.valueOf body = .ok value)
      (htagged : taggedSegments? g.template.own.delimiters value = some ss)
      (hps : Pieces g ss ps) : Expands g body ps.flatten

/-- What stands for a segment. -/
inductive Piece (g : Tagging) : Segment → Text → Prop
  | text (t : Text) : Piece g (.text t) t
  | escapedOpening (opening : Text) : Piece g (.escapedOpening opening) opening
  | directive (opening lead name argument closing : Text) :
      Piece g (.directive opening lead name argument closing)
        (Segment.directive opening lead name argument closing).raw
  | tag (kind : TagKind) {opening body closing value : Text}
      (hvalue : Expands g body.trim value) :
      Piece g (.tag kind opening body closing) (g.insert kind value)

/-- What stands for each of the segments, in order. -/
inductive Pieces (g : Tagging) : List Segment → List Text → Prop
  | nil : Pieces g [] []
  | cons {s : Segment} {p : Text} {ss : List Segment} {ps : List Text} (hp : Piece g s p)
      (hps : Pieces g ss ps) : Pieces g (s :: ss) (p :: ps)

end

theorem Expands.unique {body v w : Text} (hv : g.Expands body v) (hw : g.Expands body w) :
    v = w := by
  refine Expands.rec (motive_1 := fun body v _ => ∀ w, g.Expands body w → v = w)
    (motive_2 := fun s p _ => ∀ q, g.Piece s q → p = q)
    (motive_3 := fun ss ps _ => ∀ qs, g.Pieces ss qs → ps = qs)
    ?plain ?tagged ?text ?escapedOpening ?directive ?tag ?nil ?cons hv w hw
  case plain =>
    intro body v hvalue huntagged w hw
    cases hw with
    | plain hvalue' _ => exact Except.ok.inj (hvalue.symm.trans hvalue')
    | tagged hvalue' htagged' _ =>
      cases hvalue.symm.trans hvalue'
      cases huntagged.symm.trans htagged'
  case tagged =>
    intro body v ss ps hvalue htagged _ ih w hw
    cases hw with
    | plain hvalue' huntagged' =>
      cases hvalue.symm.trans hvalue'
      cases htagged.symm.trans huntagged'
    | tagged hvalue' htagged' hqs =>
      cases hvalue.symm.trans hvalue'
      cases htagged.symm.trans htagged'
      rw [ih _ hqs]
  case text => intro t q hq; cases hq; rfl
  case escapedOpening => intro opening q hq; cases hq; rfl
  case directive => intro opening lead name argument closing q hq; cases hq; rfl
  case tag =>
    intro kind opening body closing value _ ih q hq
    cases hq with
    | tag _ hvalue => rw [ih _ hvalue]
  case nil => intro qs hqs; cases hqs; rfl
  case cons =>
    intro s p ss ps _ _ ihp ihps qs hqs
    cases hqs with
    | cons hq hqs => rw [ihp _ hq, ihps _ hqs]

theorem Pieces.length_eq {ss : List Segment} {ps : List Text} (h : g.Pieces ss ps) :
    ps.length = ss.length := by
  induction ss generalizing ps with
  | nil => cases h; rfl
  | cons s ss ih =>
    cases h with
    | cons _ hps => rw [List.length_cons, List.length_cons, ih hps]

theorem Pieces.of_mem_zip {ss : List Segment} {ps : List Text} (h : g.Pieces ss ps) {s : Segment}
    {p : Text} (hmem : (s, p) ∈ ss.zip ps) : g.Piece s p := by
  induction ss generalizing ps with
  | nil => cases hmem
  | cons s' ss ih =>
    cases h with
    | cons hp hps =>
      rcases List.mem_cons.mp hmem with heq | hmem
      · cases heq
        exact hp
      · exact ih hps hmem

section Replacing

variable {fill : Text → List Segment → Except Cause Text}

/-- Whatever fills in the tags of a value puts pieces together. -/
def FillsIn (g : Tagging) (fill : Text → List Segment → Except Cause Text) : Prop :=
  ∀ body ss out, fill body ss = .ok out → ∃ ps, g.Pieces ss ps ∧ ps.flatten = out

theorem piece_of_replace (hfill : g.FillsIn fill) {s : Segment} {p : Text}
    (h : g.replace fill s = .ok p) : g.Piece s p := by
  cases s with
  | text t =>
    cases h
    exact .text _
  | escapedOpening opening =>
    cases h
    exact .escapedOpening _
  | directive opening lead name argument closing =>
    cases h
    exact .directive opening lead name argument closing
  | tag kind opening body closing =>
    rw [replace] at h
    split at h
    next => cases h
    next value hvalue =>
      split at h
      next huntagged =>
        cases h
        exact .tag kind (.plain hvalue huntagged)
      next ss htagged =>
        obtain ⟨out, hout, rfl⟩ := Outcome.map_eq_ok_iff.mp h
        obtain ⟨ps, hps, rfl⟩ := hfill _ _ _ hout
        exact .tag kind (.tagged hvalue htagged hps)

theorem pieces_of_replaceAll (hfill : g.FillsIn fill) {ss : List Segment} {out : Text}
    (h : g.replaceAll fill ss = .ok out) : ∃ ps, g.Pieces ss ps ∧ ps.flatten = out := by
  induction ss generalizing out with
  | nil => cases h; exact ⟨[], .nil, rfl⟩
  | cons s ss ih =>
    rw [replaceAll] at h
    split at h
    next => cases h
    next first hfirst =>
      split at h
      next => cases h
      next rest hrest =>
        cases h
        obtain ⟨ps, hps, rfl⟩ := ih hrest
        exact ⟨first :: ps, .cons (piece_of_replace hfill hfirst) hps, rfl⟩

theorem fillsIn_complete (budget : Nat) : g.FillsIn (g.complete budget) := by
  induction budget with
  | zero => intro body ss out h; cases h
  | succ b ih => intro body ss out h; exact pieces_of_replaceAll ih h

end Replacing

theorem pieces_of_replaceFrom {s : Splice} {position : Nat} {ss : List Segment} {out : Text}
    (h : g.replaceFrom s position ss = .ok out) : ∃ ps, g.Pieces ss ps ∧ ps.flatten = out := by
  induction ss generalizing position out with
  | nil => cases h; exact ⟨[], .nil, rfl⟩
  | cons segment ss ih =>
    rw [replaceFrom] at h
    split at h
    next => cases h
    next first hfirst =>
      split at h
      next => cases h
      next rest hrest =>
        cases h
        obtain ⟨ps, hps, rfl⟩ := ih hrest
        exact ⟨first :: ps, .cons (piece_of_replace (fillsIn_complete g.limit) hfirst) hps, rfl⟩

theorem exists_pieces_of_run {s : Splice} {out : Text} (h : g.run s = .ok out) :
    ∃ ss ps, segments g.template.own.delimiters s.text = .ok ss ∧ g.Pieces ss ps ∧
      ps.flatten = out := by
  rw [run] at h
  split at h
  next => cases h
  next ss hss =>
    obtain ⟨ps, hps, hout⟩ := pieces_of_replaceFrom h
    exact ⟨ss, ps, hss, hps, hout⟩

end Tagging

end Stencil
