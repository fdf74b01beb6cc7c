/- Where the characters of an output come from. -/
import Stencil.Proofs.Node.Placement
import Stencil.Template
import Stencil.Splice.Parts

namespace Stencil

/-- A character of the output. It was copied from the contents, where `before` stands in front of
it; or a directive that stands there behind `before` brought it in. -/
structure Mark where
  char : Char
  copied : Bool
  before : Text

/-- Where the text at hand stands: in the contents behind `before`, or elsewhere, brought in by the
directive behind `before`. -/
inductive Site where
  | contents (before : Text)
  | elsewhere (before : Text)

namespace Site

def isContents : Site → Bool
  | .contents _ => true
  | .elsewhere _ => false

/-- What stands in the contents in front of a place behind `inner`, or else in front of the
directive that brought the text in. -/
def before (inner : Text) : Site → Text
  | .contents outer => outer ++ inner
  | .elsewhere outer => outer

def marks (σ : Site) (inner : Text) : Text → List Mark
  | [] => []
  | c :: cs => ⟨c, σ.isContents, σ.before inner⟩ :: σ.marks (inner ++ [c]) cs

/-- The site of the body of a part: in the contents if they define it, elsewhere if not. -/
def ofBody (start? : Option Text) (directive : Text) : Site :=
  match start? with
  | some before => .contents before
  | none => .elsewhere directive

end Site

/-- What decides where characters come from: the template with its parts registered, what names
mean, and the parts that the contents define. -/
structure Tracing where
  template : Template
  scope : Scope
  limit : Nat
  defined : List PlacedDefinition

/-- What stands in the contents in front of the body of a part. The last definition of a name
counts. -/
def Tracing.bodyStart? (g : Tracing) (name : Text) : Option Text :=
  (g.defined.reverse.find? fun d => g.scope.nameOf d.name = .ok name).map
    PlacedDefinition.bodyBefore

/-- The nodes of a text are carried out into these characters. The text stands at the site, and is
the body of `part` if it is one. -/
inductive Traces (g : Tracing) : Option ShownPart → Site → List PlacedNode → List Mark → Prop
  | nil {part σ} : Traces g part σ [] []
  | text {part σ t before ps ms} : Traces g part σ ps ms →
      Traces g part σ (.text t before :: ps) (σ.marks before t ++ ms)
  | part {part σ name body children before bodyBefore ps ms} : Traces g part σ ps ms →
      Traces g part σ (.part name body children before bodyBefore :: ps) ms
  | showPart {part σ e before name p ss qs inner ps ms} : g.scope.nameOf e = .ok name →
      g.template.part? name = some p → segments g.template.own.delimiters p.body = .ok ss →
      Items true g.limit [] ss qs →
      Traces g (some ⟨name, p.level⟩) (.ofBody (g.bodyStart? name) (σ.before before)) qs inner →
      Traces g part σ ps ms → Traces g part σ (.showPart e before :: ps) (inner ++ ms)
  | showParent {shown σ before p ss qs inner ps ms} :
      g.template.inheritedPart? shown.level shown.name = some p →
      segments g.template.own.delimiters p.body = .ok ss → Items true g.limit [] ss qs →
      Traces g (some ⟨shown.name, p.level⟩) (.elsewhere (σ.before before)) qs inner →
      Traces g (some shown) σ ps ms →
      Traces g (some shown) σ (.showParent before :: ps) (inner ++ ms)
  | conditional {part σ test yes no before v inner ps ms} : g.scope.eval test = .ok v →
      Traces g part σ (if v.isTruthy then yes else no) inner → Traces g part σ ps ms →
      Traces g part σ (.conditional test yes no before :: ps) (inner ++ ms)

/-- The directives of the contents are carried out into these characters, when the parts that the
contents define are registered on the template. -/
def Template.Traced (t : Template) (fs : Functions) (limits : Limits) (contents : Text)
    (ms : List Mark) : Prop :=
  ∃ ss ps, segments t.own.delimiters contents = .ok ss ∧
    Items false limits.directiveDepth [] ss ps ∧
    Traces ⟨t, t.scope fs, limits.directiveDepth, PlacedNode.definitionsOf ps⟩ none (.contents [])
      ps ms

variable {g : Tracing} {part : Option ShownPart} {σ : Site} {before : Text}
  {ps : List PlacedNode} {ms : List Mark}

/-- A directive that puts a body in place. -/
def Segment.Brings (s : Segment) : Prop := s.Names .showPart ∨ s.Names .parent

/-- The character stands in the contents behind `before`, or else a directive that puts a body in
place does. -/
def Mark.Stands (contents : Text) (m : Mark) : Prop :=
  (m.copied = true → m.before ++ [m.char] <+: contents) ∧
    (m.copied = false → ∃ d : Segment, d.Brings ∧ m.before ++ d.raw <+: contents)

namespace Site

/-- The text stands at the site. -/
def Holds (contents text : Text) : Site → Prop
  | .contents outer => outer ++ text <+: contents
  | .elsewhere outer => ∃ d : Segment, d.Brings ∧ outer ++ d.raw <+: contents

variable {contents text : Text}

theorem Holds.marks (hσ : σ.Holds contents text) {inner t : Text} (ht : inner ++ t <+: text) :
    ∀ m ∈ σ.marks inner t, m.Stands contents := by
  induction t generalizing inner with
  | nil => nofun
  | cons c cs ih =>
    have hsplit : inner ++ [c] ++ cs <+: text := by rwa [List.append_assoc]
    intro m hm
    rcases List.mem_cons.mp hm with rfl | hm
    · cases σ with
      | contents outer =>
        refine ⟨fun _ => ?_, nofun⟩
        have hhere : inner ++ [c] <+: text := (List.prefix_append _ _).trans hsplit
        have hcontents := ((List.prefix_append_right_inj outer).mpr hhere).trans hσ
        rwa [← List.append_assoc] at hcontents
      | elsewhere outer => exact ⟨nofun, fun _ => hσ⟩
    · exact ih hsplit m hm

theorem Holds.directive (hσ : σ.Holds contents text) {d : Segment} {inner : Text} (hd : d.Brings)
    (hinner : inner ++ d.raw <+: text) (body : Text) :
    (Site.elsewhere (σ.before inner)).Holds contents body := by
  cases σ with
  | contents outer =>
    have hcontents := ((List.prefix_append_right_inj outer).mpr hinner).trans hσ
    rw [← List.append_assoc] at hcontents
    exact ⟨d, hd, hcontents⟩
  | elsewhere outer => exact hσ

end Site

/-- Bodies that the contents define stand there. -/
def Tracing.BodiesStand (g : Tracing) (contents : Text) : Prop :=
  ∀ name p before, g.template.part? name = some p → g.bodyStart? name = some before →
    before ++ p.body <+: contents

theorem Tracing.BodiesStand.ofBody {contents text : Text} (hg : g.BodiesStand contents)
    (hσ : σ.Holds contents text) {d : Segment} (hd : d.Brings) (hbefore : before ++ d.raw <+: text)
    {name : Text} {p : FoundPart} (hp : g.template.part? name = some p) :
    (Site.ofBody (g.bodyStart? name) (σ.before before)).Holds contents p.body := by
  cases hstart : g.bodyStart? name with
  | none => exact hσ.directive hd hbefore p.body
  | some outer => exact hg name p outer hp hstart

/-- What is traced to a place in the contents stands there. -/
theorem Traces.stands {contents : Text} (hg : g.BodiesStand contents) (h : Traces g part σ ps ms)
    {text : Text} (hσ : σ.Holds contents text) (hps : StandIn text ps) :
    ∀ m ∈ ms, m.Stands contents := by
  induction h generalizing text with
  | nil => nofun
  | text _ ih =>
    cases hps with
    | text hhere hrest => exact List.forall_mem_append.mpr ⟨hσ.marks hhere, ih hσ hrest⟩
  | part _ ih =>
    cases hps with
    | part _ hrest => exact ih hσ hrest
  | showPart _ hp hss hqs _ _ ihinner ih =>
    cases hps with
    | showPart hd hhere hrest =>
      obtain ⟨x, hd, -⟩ := hd
      have hsite := hg.ofBody hσ (.inl ⟨_, hd⟩) hhere hp
      exact List.forall_mem_append.mpr
        ⟨ihinner hsite (standIn_of_segments hss hqs), ih hσ hrest⟩
  | showParent _ hss hqs _ _ ihinner ih =>
    cases hps with
    | showParent hd hhere hrest =>
      have hsite := hσ.directive (.inr hd) hhere
      exact List.forall_mem_append.mpr
        ⟨ihinner (hsite _) (standIn_of_segments hss hqs), ih hσ hrest⟩
  | conditional _ _ _ ihinner ih =>
    cases hps with
    | conditional hyes hno hrest =>
      refine List.forall_mem_append.mpr ⟨ihinner hσ ?_, ih hσ hrest⟩
      split
      next => exact hyes
      next => exact hno

end Stencil
