/- The stages as they run come to what the compiler is defined to come to. -/
import Stencil.Proofs.Compiler.SelfReference
import Stencil.Proofs.Compiler.TagStage
import Stencil.Proofs.Expr.Descent
import Stencil.Proofs.Splice.Writing
import Stencil.Stages

namespace Stencil

theorem Output.Answers.of_agrees {out : Output} {s u : Splice} (h : out.Answers u)
    (hagrees : s.Agrees u) : out.Answers s where
  text := h.text.trans hagrees.text.symm
  lineAt n hn := (h.lineAt n (hagrees.text ▸ hn)).trans (hagrees.lineAt n).symm

/-- Writing ended as carrying out the directives does, in an output that reads and stands on lines
as the splice. -/
inductive Output.Renders : Except Failure Output → Except Failure Splice → Prop where
  | error (f : Failure) : Renders (.error f) (.error f)
  | ok {out : Output} {s : Splice} (h : out.Answers s) : Renders (.ok out) (.ok s)

/-- Writing the directives of a text always ends, and as carrying them out does. -/
theorem Template.writeDirectives_eq (t : Template) (fs : Functions) (limits : Limits)
    (contents : Text) : ∃ result,
      t.writeDirectives fs limits contents =
        some ((t.runDirectives fs limits contents).1, result) ∧
      Output.Renders result (t.runDirectives fs limits contents).2 := by
  rw [writeDirectives, readPassages_eq]
  cases hsegments : segments t.own.delimiters contents with
  | error e =>
    rw [runDirectives, Rendering.nodesOf, hsegments]
    exact ⟨_, rfl, .error _⟩
  | ok ss =>
    dsimp only [Except.map]
    cases htokens : tokensFrom 1 0 ss with
    | nil =>
      have hnone : ∀ k ∈ tokensFrom 1 0 ss, k.kind ≠ .opening .directive := by
        rw [htokens]
        exact fun _ h => absurd h List.not_mem_nil
      rw [runDirectives_of_verbatim hsegments (isDirective_of_tokensFrom hnone)]
      have hagrees := Splice.copies_agrees ss
      rw [source_segments hsegments] at hagrees
      exact ⟨_, rfl, .ok ((Output.answers_whole contents).of_agrees hagrees)⟩
    | cons k ks =>
      obtain ⟨parsed, hparse, hnodes, hdefinitions⟩ :=
        parseStatements_eq limits.directiveDepth false 0 ss
      dsimp only
      rw [hparse, runDirectives, Rendering.nodesOf, hsegments]
      dsimp only
      rw [← hnodes] at hdefinitions ⊢
      cases parsed with
      | error f => exact ⟨_, rfl, .error f⟩
      | ok statements =>
        obtain hdefinitions := Except.ok.inj hdefinitions
        dsimp only [Except.map]
        rw [hdefinitions]
        cases nameParts (t.scope fs) (definitionsIn (Statement.allNodes statements)) with
        | mk parts failure =>
          cases failure with
          | some f => exact ⟨_, rfl, .error f⟩
          | none =>
            dsimp only
            rw [Rendering.writeStatements_eq (Rendering.writeBody_eq _ _)]
            refine ⟨_, rfl, ?_⟩
            rw [Rendering.render]
            generalize Rendering.renderNodes _ _ none (.source 1) _ = r
            cases r with
            | error f => exact .error f
            | ok s => exact .ok s.answers_writtenTo

/-- The lines of offsets and lines of a text, looked up in a map if there is one, are those of the
splice. -/
structure Locates (lines : Option LineMap) (contents : Text) (s : Splice) : Prop where
  text : contents = s.text
  lineAt : ∀ n ≤ contents.length,
    (lines.map (·.lineAt contents (Text.byteSize (contents.take n)))).getD
      (1 + Text.newlines (contents.take n)) = s.lineAt n
  sourceLine : ∀ n, Text.HasLine 1 contents n →
    (lines.map (·.sourceLine contents n)).getD n = s.sourceLine n

/-- Without a map the lines are those of the text. -/
theorem Locates.whole (contents : Text) : Locates none contents (.whole contents) where
  text := (Splice.text_whole contents).symm
  lineAt _ _ := rfl
  sourceLine _ h := (Splice.sourceLine_whole h).symm

theorem Output.Answers.locates {out : Output} {s : Splice} (h : out.Answers s) :
    Locates (some out.lines) out.text s where
  text := h.text
  lineAt n hn := h.lineAt n (h.text ▸ hn)
  sourceLine n _ := h.sourceLine n

namespace Tagging

variable {g : Tagging} {complete : Text → Nat → Text → Attempt Failure Text}
  {inner : Text → List Segment → Except Cause Text} {lines : Option LineMap} {contents : Text}

theorem resolveAt_eq (g : Tagging) (body : Text) (line : Nat) :
    g.resolveAt body line = some ((g.valueOf body).mapError (⟨·, line⟩)) := by
  rw [resolveAt, valueOf]
  cases g.template.tag? body with
  | some v => rfl
  | none =>
    dsimp only
    rw [Expr.descend_eq]
    cases Expr.parse body with
    | error e => rfl
    | ok e =>
      dsimp only [Option.map_some]
      cases g.scope.eval e <;> rfl

/-- Texts are completed as their segments are, whatever the lines of the failures. -/
def Completes (g : Tagging) (complete : Text → Nat → Text → Attempt Failure Text)
    (inner : Text → List Segment → Except Cause Text) : Prop :=
  ∀ body line value ss, taggedSegments? g.template.own.delimiters value = some ss →
    ∃ r, complete body line value = some r ∧ r.mapError Failure.cause = inner body ss

theorem replaceTag_eq (h : g.Completes complete inner) (kind : TagKind)
    (opening body closing : Text) (line : Nat) :
    g.replaceTag complete kind body.trim line =
      some ((g.replace inner (.tag kind opening body closing)).mapError (⟨·, line⟩)) := by
  rw [replaceTag, resolveAt_eq, replace]
  cases g.valueOf body.trim with
  | error cause => rfl
  | ok value =>
    dsimp only [Except.mapError, Attempt.ok_andThen]
    rw [containsTag]
    cases htagged : taggedSegments? g.template.own.delimiters value with
    | none => rfl
    | some ss =>
      obtain ⟨r, hr, hcause⟩ := h body.trim line value ss htagged
      dsimp only
      rw [Option.isSome_some, if_pos rfl, hr, ← hcause]
      cases r <;> rfl

/-- A passage comes to what its segment does, with failures on the line that is looked up. -/
theorem replacePassage_eq (h : g.Completes complete inner) (s : Segment) (line offset : Nat) :
    g.replacePassage complete lines contents (s.passage line offset) =
      some ((g.replace inner s).mapError
        (⟨·, (lines.map (·.lineAt contents offset)).getD line⟩)) := by
  cases s with
  | tag kind opening body closing => exact replaceTag_eq h kind opening body closing _
  | _ => rfl

/-- Passages come to what their segments do, up to the lines of the failures. -/
theorem cause_replacePassages (h : g.Completes complete inner) (line offset : Nat)
    (ss : List Segment) : ∃ r,
      g.replacePassages complete lines contents (passagesOf line offset ss) = some r ∧
      r.mapError Failure.cause = g.replaceAll inner ss := by
  induction ss generalizing line offset with
  | nil => exact ⟨_, rfl, rfl⟩
  | cons s ss ih =>
    obtain ⟨r, hr, hcause⟩ := ih (line + s.raw.newlines) (offset + s.raw.byteSize)
    rw [passagesOf, replacePassages, replacePassage_eq h, replaceAll, hr, ← hcause]
    cases g.replace inner s with
    | error cause => exact ⟨_, rfl, rfl⟩
    | ok first => cases r <;> exact ⟨_, rfl, rfl⟩

/-- Passages behind `front` come to what their segments do at that position of the splice. -/
theorem replacePassages_eq {s : Splice} (h : g.Completes complete (g.complete g.limit))
    (hlines : Locates lines contents s) {front : Text} {ss : List Segment}
    (hcontents : contents = front ++ source ss) :
    g.replacePassages complete lines contents
        (passagesOf (1 + front.newlines) front.byteSize ss) =
      some (g.replaceFrom s front.length ss) := by
  induction ss generalizing front with
  | nil => rfl
  | cons segment ss ih =>
    have hbehind : contents = (front ++ segment.raw) ++ source ss := by
      rw [hcontents, source_cons, List.append_assoc]
    have hrest := ih hbehind
    have htake : contents.take front.length = front := by rw [hcontents, List.take_left]
    have hline := hlines.lineAt front.length
      (by rw [hcontents, List.length_append]; exact Nat.le_add_right ..)
    rw [htake] at hline
    rw [Text.newlines_append, Text.byteSize_append, List.length_append, ← Nat.add_assoc] at hrest
    rw [passagesOf, replacePassages, replacePassage_eq h, hline, replaceFrom, hrest]
    cases g.replace (g.complete g.limit) segment with
    | error cause => rfl
    | ok first => cases g.replaceFrom s (front.length + segment.raw.length) ss <;> rfl

/-- Passages without tokens are text, which stays as it is. -/
theorem replacePassages_of_untokenized {line offset : Nat} {ss : List Segment}
    (h : tokensFrom line offset ss = []) :
    g.replacePassages complete lines contents (passagesOf line offset ss) =
      some (.ok (source ss)) := by
  induction ss generalizing line offset with
  | nil => rfl
  | cons s ss ih =>
    obtain ⟨hs, hss⟩ := List.append_eq_nil_iff.mp h
    rw [passagesOf, replacePassages, ih hss]
    cases s with
    | text u => rfl
    | _ => cases hs

theorem replaceText_of_segments {ss : List Segment}
    (h : segments g.template.own.delimiters contents = .ok ss) :
    g.replaceText complete lines contents =
      g.replacePassages complete lines contents (passagesOf 1 0 ss) := by
  rw [replaceText, readPassages_eq, h]
  dsimp only [Except.map]
  cases htokens : tokensFrom 1 0 ss with
  | nil => rw [replacePassages_of_untokenized htokens, source_segments h]
  | cons k ks => rfl

/-- With any budget texts are completed as their segments are. -/
theorem completes (g : Tagging) (budget : Nat) :
    g.Completes (g.completeText budget) (g.complete budget) := by
  induction budget with
  | zero => exact fun body line value ss _ => ⟨_, rfl, rfl⟩
  | succ budget ih =>
    intro body line value ss hss
    rw [completeText, replaceText_of_segments (taggedSegments?_eq_some_iff.mp hss).1, complete]
    exact cause_replacePassages ih 1 0 ss

/-- Replacing the tags of a text always ends, and as replacing those of the splice does. -/
theorem replaceText_eq {s : Splice} (hlines : Locates lines contents s) :
    g.replaceText (g.completeText g.limit) lines contents = some (g.run s) := by
  rw [run, ← hlines.text]
  cases hsegments : segments g.template.own.delimiters contents with
  | error e =>
    rw [replaceText, readPassages_eq, hsegments]
    dsimp only [Except.map]
    rw [hlines.sourceLine _ (hasLine_of_segments hsegments)]
  | ok ss =>
    have hcontents : contents = [] ++ source ss := (source_segments hsegments).symm
    rw [replaceText_of_segments hsegments]
    exact replacePassages_eq (g.completes g.limit) hlines hcontents

end Tagging

namespace Compiler

theorem replaceTags_eq (c : Compiler) (t : Template) (contents : Text) :
    c.replaceTags t contents = some (c.compileTags t contents) :=
  Tagging.replaceText_eq (.whole contents)

theorem writeDirectives_eq (c : Compiler) (t : Template) (contents : Text) :
    c.writeDirectives t contents = some (c.compileDirectives t contents) := by
  obtain ⟨result, hwrite, hrenders⟩ := t.writeDirectives_eq c.functions c.limits contents
  rw [writeDirectives, hwrite, compileDirectives]
  cases hrun : t.runDirectives c.functions c.limits contents with
  | mk registered r =>
    rw [hrun] at hrenders
    cases hrenders with
    | error f => rfl
    | ok h => exact congrArg (fun u => some (registered, Except.ok u)) h.text

/-- Both stages always end, and as compiling does. -/
theorem runStages_eq (c : Compiler) (t : Template) : c.runStages t = some (c.compile t) := by
  obtain ⟨result, hwrite, hrenders⟩ := t.writeDirectives_eq c.functions c.limits t.own.contents
  rw [runStages, hwrite, compile]
  cases hrun : t.runDirectives c.functions c.limits t.own.contents with
  | mk registered r =>
    rw [hrun] at hrenders
    cases hrenders with
    | error f => rfl
    | ok h => exact congrArg (Option.map (registered, ·)) (Tagging.replaceText_eq h.locates)

end Compiler

end Stencil
