/- The bodies that the tag map answers for. Any visible name is one, also if it is no identifier,
and so the map comes before expressions of every kind. -/
import Mathlib.Logic.Relation
import Stencil.Proofs.Compiler.Sanitizing
import Stencil.Proofs.Compiler.SelfReference
import Stencil.Proofs.Compiler.TagStage
import Stencil.Proofs.Segment.WrittenTags

namespace Stencil

/-- Whether the text is a bare identifier. -/
def Text.isName : Text → Bool
  | [] => false
  | c :: cs => Unicode.isWordStart c && cs.all Unicode.isWord

theorem Text.isName_iff {t : Text} : t.isName = true ↔ t.IsName := by
  cases t with
  | nil => exact ⟨nofun, fun ⟨_, _, h, _⟩ => nomatch h⟩
  | cons c cs => simp [isName, IsName]

namespace Dict

variable {α : Type}

/-- The entries whose names are in the class. -/
def restrict (P : Text → Bool) (d : Dict α) : Dict α :=
  ⟨d.entries.filter fun e => P e.1, d.increasing.filter _⟩

theorem findEntry_filter (P : Text → Bool) (name : Text) (es : List (Text × α)) :
    findEntry name (es.filter fun e => P e.1) = if P name then findEntry name es else none := by
  induction es with
  | nil => simp [findEntry]
  | cons e es ih =>
    rw [List.filter_cons, findEntry]
    by_cases hname : e.1 = name
    · subst hname
      by_cases hp : P e.1 = true <;> simp [hp, findEntry, ih]
    · by_cases hp : P e.1 = true <;> simp [hp, hname, findEntry, ih]

theorem get?_restrict (P : Text → Bool) (d : Dict α) (name : Text) :
    (d.restrict P).get? name = if P name then d.get? name else none :=
  findEntry_filter P name d.entries

end Dict

def Layer.restrictTags (P : Text → Bool) (l : Layer) : Layer := { l with tags := l.tags.restrict P }

namespace Template

/-- The template without the tags of other names, on every level. -/
def restrictTags (P : Text → Bool) (t : Template) : Template :=
  ⟨t.own.restrictTags P, t.ancestors.map (Layer.restrictTags P)⟩

theorem tag?_restrictTags (P : Text → Bool) (t : Template) (name : Text) :
    (t.restrictTags P).tag? name = if P name then t.tag? name else none := by
  have hlayers : (t.restrictTags P).layers = t.layers.map (Layer.restrictTags P) := rfl
  rw [tag?, tag?, hlayers]
  induction t.layers with
  | nil => simp
  | cons l ls ih =>
    have hfirst : (l.restrictTags P).tags.get? name = if P name then l.tags.get? name else none :=
      Dict.get?_restrict P l.tags name
    rw [List.map_cons, List.findSome?_cons, List.findSome?_cons, hfirst, ih]
    by_cases hp : P name = true <;> simp [hp]

end Template

namespace Tagging

/-- The value of the body as an expression, whatever the tags are called. -/
def evaluate (g : Tagging) (body : Text) : Except Cause Text :=
  match Expr.parse body with
  | .error e => .error (.badExpression body e)
  | .ok e =>
    match g.scope.eval e with
    | .error e => .error (.evaluation e)
    | .ok v => .ok (v.render g.scope.platform)

/-- The same stage with a tag map that answers for no other bodies. Expressions see all tags. -/
def answering (P : Text → Bool) (g : Tagging) : Tagging :=
  { g with template := g.template.restrictTags P }

/-- The body comes up: in the segments, or in the value of one that does. -/
def Meets (g : Tagging) (ss : List Segment) (body : Text) : Prop :=
  ∃ kind opening outer closing, .tag kind opening outer closing ∈ ss ∧
    Relation.ReflTransGen g.Holds outer.trim body

/-- The class has every visible tag that comes up. -/
def Covers (g : Tagging) (P : Text → Bool) (ss : List Segment) : Prop :=
  ∀ body, g.Meets ss body → (g.template.tag? body).isSome → P body = true

variable {g : Tagging} {P : Text → Bool} {s : Segment} {ss : List Segment}

theorem valueOf_answering (g : Tagging) (P : Text → Bool) (body : Text) :
    (g.answering P).valueOf body =
      if P body then (g.template.tag? body).elim (g.evaluate body) .ok else g.evaluate body := by
  have htag : (g.answering P).template.tag? body = if P body then g.template.tag? body else none :=
    Template.tag?_restrictTags P g.template body
  rw [valueOf, htag]
  by_cases hp : P body = true
  · rw [if_pos hp, if_pos hp]
    cases g.template.tag? body <;> rfl
  · rw [if_neg hp, if_neg hp]
    rfl

theorem valueOf_eq (g : Tagging) (body : Text) :
    g.valueOf body = (g.template.tag? body).elim (g.evaluate body) .ok := by
  rw [valueOf]
  cases g.template.tag? body <;> rfl

theorem Covers.valueOf {kind : TagKind} {opening body closing : Text} (h : g.Covers P ss)
    (hmem : .tag kind opening body closing ∈ ss) :
    (g.answering P).valueOf body.trim = g.valueOf body.trim := by
  rw [valueOf_answering, valueOf_eq]
  by_cases hp : P body.trim = true
  · rw [if_pos hp]
  · rw [if_neg hp]
    cases htag : g.template.tag? body.trim with
    | none => rfl
    | some v => exact absurd (h _ ⟨kind, opening, body, closing, hmem, .refl⟩ (by simp [htag])) hp

theorem Covers.mono {ts : List Segment} (h : g.Covers P ss) (hts : ts ⊆ ss) : g.Covers P ts := by
  rintro body ⟨kind, opening, outer, closing, hmem, hreach⟩
  exact h body ⟨kind, opening, outer, closing, hts hmem, hreach⟩

/-- What comes up in the value of a tag comes up. -/
theorem Covers.inside {kind : TagKind} {opening body closing value : Text} {ts : List Segment}
    (h : g.Covers P ss) (hmem : .tag kind opening body closing ∈ ss)
    (hvalue : g.valueOf body.trim = .ok value)
    (hts : taggedSegments? g.template.own.delimiters value = some ts) : g.Covers P ts := by
  rintro inner ⟨kind', opening', outer, closing', hmem', hreach⟩
  have hholds : g.Holds body.trim outer.trim :=
    .mk hvalue (taggedSegments?_eq_some_iff.mp hts).1 hmem' rfl
  exact h inner ⟨kind, opening, body, closing, hmem, .head hholds hreach⟩

variable {inner inner' : Text → List Segment → Except Cause Text}

theorem Covers.replace (h : g.Covers P ss) (hmem : s ∈ ss)
    (hinner : ∀ body ts, g.Covers P ts → inner' body ts = inner body ts) :
    (g.answering P).replace inner' s = g.replace inner s := by
  cases s with
  | tag kind opening body closing =>
    rw [Tagging.replace, Tagging.replace, h.valueOf hmem]
    cases hvalue : g.valueOf body.trim with
    | error cause => rfl
    | ok value =>
      have hsame : (g.answering P).template.own.delimiters = g.template.own.delimiters := rfl
      dsimp only
      rw [hsame]
      cases hts : taggedSegments? g.template.own.delimiters value with
      | none => rfl
      | some ts =>
        dsimp only
        rw [hinner _ ts (h.inside hmem hvalue hts)]
        rfl
  | _ => rfl

theorem Covers.replaceAll (h : g.Covers P ss)
    (hinner : ∀ body ts, g.Covers P ts → inner' body ts = inner body ts) :
    (g.answering P).replaceAll inner' ss = g.replaceAll inner ss := by
  induction ss with
  | nil => rfl
  | cons s ss ih =>
    rw [Tagging.replaceAll, Tagging.replaceAll, h.replace List.mem_cons_self hinner,
      ih (h.mono (List.subset_cons_self s ss))]

theorem Covers.complete (budget : Nat) (body : Text) (h : g.Covers P ss) :
    (g.answering P).complete budget body ss = g.complete budget body ss := by
  induction budget generalizing body ss with
  | zero => rfl
  | succ budget ih => exact h.replaceAll fun body ts hts => ih body hts

theorem Covers.replaceFrom (h : g.Covers P ss) (s : Splice) (position : Nat) :
    (g.answering P).replaceFrom s position ss = g.replaceFrom s position ss := by
  induction ss generalizing position with
  | nil => rfl
  | cons segment ss ih =>
    have hfirst : (g.answering P).replace ((g.answering P).complete g.limit) segment =
        g.replace (g.complete g.limit) segment :=
      h.replace List.mem_cons_self fun body ts hts => hts.complete g.limit body
    have hlimit : (g.answering P).limit = g.limit := rfl
    rw [Tagging.replaceFrom, Tagging.replaceFrom, hlimit, hfirst,
      ih (h.mono (List.subset_cons_self segment ss))]

/-- Bodies that the tag map is not asked about make no difference if no tag has their name. -/
theorem run_answering {s : Splice}
    (h : ∀ ss, segments g.template.own.delimiters s.text = .ok ss → g.Covers P ss) :
    (g.answering P).run s = g.run s := by
  have hsame : (g.answering P).template.own.delimiters = g.template.own.delimiters := rfl
  rw [run, run, hsame]
  cases hss : segments g.template.own.delimiters s.text with
  | error e => rfl
  | ok ss => exact (h ss hss).replaceFrom s 0

/-- A region that cannot be replaced is reported, unless one in front of it is. -/
theorem replaceFrom_of_error (s : Splice) (position : Nat) (front rear : List Segment)
    {segment : Segment} {cause : Cause}
    (h : g.replace (g.complete g.limit) segment = .error cause) :
    ∃ f, g.replaceFrom s position (front ++ segment :: rear) = .error f ∧
      (g.replaceFrom s position front = .error f ∨
        f = ⟨cause, s.lineAt (position + (source front).length)⟩) := by
  induction front generalizing position with
  | nil =>
    refine ⟨⟨cause, s.lineAt position⟩, ?_, .inr rfl⟩
    rw [List.nil_append, replaceFrom, h]
  | cons first front ih =>
    rw [List.cons_append, replaceFrom, replaceFrom]
    cases g.replace (g.complete g.limit) first with
    | error cause => exact ⟨_, rfl, .inl rfl⟩
    | ok text =>
      obtain ⟨f, hf, hor⟩ := ih (position + first.raw.length)
      dsimp only
      rw [hf]
      refine ⟨f, rfl, hor.imp (fun hfront => by rw [hfront]) fun hline => ?_⟩
      rw [hline, source_cons, List.length_append, Nat.add_assoc]

/-- Nothing is no expression. -/
theorem evaluate_nil (g : Tagging) :
    ∃ e, g.evaluate [] = .error (.badExpression [] e) := ⟨_, rfl⟩

end Tagging

theorem Splice.lineAt_whole (front rear : Text) :
    (whole (front ++ rear)).lineAt front.length = front.endLine := by
  show 1 + Text.newlines ((front ++ rear).take front.length) = front.endLine
  rw [List.take_left]
  rfl

namespace Compiler

variable {c : Compiler} {t : Template} {contents : Text}

/-- A region with nothing in it is no expression, and has to be the name of a tag. -/
theorem compileTags_of_blank {ss front rear : List Segment} {kind : TagKind}
    {opening body closing : Text} (hss : segments t.own.delimiters contents = .ok ss)
    (hsplit : ss = front ++ .tag kind opening body closing :: rear) (hblank : body.trim = [])
    (hnone : t.tag? [] = none) :
    ∃ f, c.compileTags t contents = .error f ∧
      ((c.tagging t).replaceFrom (.whole contents) 0 front = .error f ∨
        f.cause.kind = .invalidExpression ∧ f.line = (source front).endLine) := by
  obtain ⟨e, he⟩ := (c.tagging t).evaluate_nil
  have hvalue : (c.tagging t).valueOf body.trim = .error (.badExpression [] e) := by
    have htag : (c.tagging t).template.tag? [] = none := hnone
    rw [hblank, Tagging.valueOf_eq, htag]
    exact he
  have hreplace : (c.tagging t).replace ((c.tagging t).complete (c.tagging t).limit)
      (.tag kind opening body closing) = .error (.badExpression [] e) := by
    rw [Tagging.replace, hvalue]
  obtain ⟨f, hf, hor⟩ := Tagging.replaceFrom_of_error (.whole contents) 0 front rear hreplace
  refine ⟨f, ?_, hor.imp_right ?_⟩
  · have hsame : (c.tagging t).template.own.delimiters = t.own.delimiters := rfl
    rw [compileTags, Tagging.run, hsame, Splice.text_whole, hss, hsplit]
    exact hf
  · rintro rfl
    refine ⟨rfl, ?_⟩
    have hsource := source_segments hss
    rw [hsplit, source_append] at hsource
    rw [Nat.zero_add, ← hsource]
    exact Splice.lineAt_whole _ _

/-- The tags are replaced as if the tag map answered for the bodies of a class only, and all others
were expressions, for every class that has the visible tags that come up. The bare identifiers are
such a class as long as no other name of a visible tag comes up. -/
theorem compileTags_answering (c : Compiler) (t : Template) (contents : Text) :
    (∀ P body, ((c.tagging t).answering P).valueOf body =
      if P body then (t.tag? body).elim ((c.tagging t).evaluate body) .ok
      else (c.tagging t).evaluate body) ∧
    (∀ P, (∀ ss, segments t.own.delimiters contents = .ok ss → (c.tagging t).Covers P ss) →
      c.compileTags t contents = ((c.tagging t).answering P).run (.whole contents)) ∧
    (t.tag? [] = none → ∀ ss front kind opening body closing rear,
      segments t.own.delimiters contents = .ok ss →
      ss = front ++ .tag kind opening body closing :: rear → body.trim = [] →
      ∃ f, c.compileTags t contents = .error f ∧
        ((c.tagging t).replaceFrom (.whole contents) 0 front = .error f ∨
          f.cause.kind = .invalidExpression ∧ f.line = (source front).endLine)) := by
  refine ⟨fun P body => (c.tagging t).valueOf_answering P body, fun P hcovers => ?_, ?_⟩
  · refine (Tagging.run_answering fun ss hss => hcovers ss ?_).symm
    rwa [Splice.text_whole] at hss
  · intro hnone ss front kind opening body closing rear hss hsplit hblank
    exact compileTags_of_blank hss hsplit hblank hnone

/-- A number is no name of a tag here, and `title` is a bare identifier. -/
theorem compileTags_answering_title :
    let c : Compiler := .usual
    let t : Template := ⟨{ tags := .ofList [("title".toList, "T".toList)] }, []⟩
    let contents := "\x7b\x7b title \x7d\x7d \x7b\x7b 1 \x7d\x7d".toList
    c.compileTags t contents = .ok "T 1".toList ∧
      ((c.tagging t).answering Text.isName).run (.whole contents) = .ok "T 1".toList := by
  intro c t contents
  have hok : c.compileTags t contents = .ok "T 1".toList := by decide +kernel
  have hcovers : ∀ ss, segments t.own.delimiters contents = .ok ss →
      (c.tagging t).Covers Text.isName ss := by
    intro ss _ body _ hvisible
    have htag : (c.tagging t).template.tag? body =
        if "title".toList = body then some "T".toList else none := by
      simp [tagging, t, Template.tag?, Template.layers, Dict.ofList, Dict.insertAll]
    rw [htag] at hvisible
    split at hvisible
    next heq =>
      rw [← heq]
      decide
    next => cases hvisible
  refine ⟨hok, ?_⟩
  rw [← (compileTags_answering c t contents).2.1 Text.isName hcovers]
  exact hok

/-- Names of tags that are no identifiers: one that reads as a field, and one that is empty. -/
def titled : Template :=
  ⟨{ tags := .ofList [("page.title".toList, "T".toList), ([], "v".toList)] }, []⟩

/-- They are looked up, while for bare identifiers alone the first body has no value and the second
is no expression. -/
theorem compileTags_titled :
    let c : Compiler := .usual
    let dotted := "\x7b\x7b page.title \x7d\x7d".toList
    let blank := "\x7b\x7b \x7d\x7d".toList
    (c.compileTags titled dotted = .ok "T".toList ∧
      ((c.tagging titled).answering Text.isName).run (.whole dotted) =
        .error ⟨.evaluation (.unresolvedIdentifier "page".toList), 1⟩) ∧
    c.compileTags titled blank = .ok "v".toList ∧
      ((c.tagging titled).answering Text.isName).run (.whole blank) =
        .error ⟨.badExpression [] ⟨.unexpectedEnd, 0, ["expression"], none, none⟩, 1⟩ := by
  decide +kernel

end Compiler

end Stencil
