/- Tags whose values are tags again, one inside the other. -/
import Mathlib.Logic.Function.Iterate
import Stencil.Proofs.Compiler.Untagged
import Stencil.Proofs.Segment.WrittenTags

namespace Stencil

/-- A tag with the name of a tag in it, as it can be written. -/
structure NameTag where
  kind : TagKind
  lead : Text
  name : Text
  trail : Text
  lead_blank : ∀ c ∈ lead, Unicode.isBlank c = true
  name_isName : name.IsName
  trail_blank : ∀ c ∈ trail, Unicode.isBlank c = true

namespace NameTag

def body (m : NameTag) : Text := m.lead ++ (m.name ++ m.trail)

def source (m : NameTag) : Text := m.kind.written m.body

def segment (m : NameTag) : Segment := m.kind.segment m.body

theorem trim_body (m : NameTag) : m.body.trim = m.name := by
  have hblank : ∀ c ∈ m.name, Unicode.isBlank c = false := fun c hc =>
    Unicode.isBlank_eq_false_of_isWord (m.name_isName.isWord c hc)
  exact Text.trim_padded m.lead_blank m.trail_blank
    (fun c hc => hblank c (List.mem_of_mem_head? hc))
    (fun c hc => hblank c (List.mem_of_mem_getLast? hc))

theorem segments_source (m : NameTag) : segments {} m.source = .ok [m.segment] := by
  have hname : Enclosable m.name := enclosable_of_isWord m.name_isName.isWord
  have hbody : Enclosable m.body :=
    (enclosable_of_isBlank m.lead_blank).append
      (hname.append (enclosable_of_isBlank m.trail_blank))
  exact segments_written hbody m.kind

theorem taggedSegments?_source (m : NameTag) :
    taggedSegments? {} m.source = some [m.segment] :=
  taggedSegments?_eq_some_iff.mpr ⟨m.segments_source, _, List.mem_singleton_self _, rfl⟩

end NameTag

/-- Every tag but the last one has the next as its value, and the last one has `v`. -/
inductive Template.Nests (t : Template) (v : Text) : NameTag → List NameTag → Prop
  | last {m} : t.tag? m.name = some v → Nests t v m []
  | next {m n ms} : t.tag? m.name = some n.source → Nests t v n ms → Nests t v m (n :: ms)

/-- How many of the tags are sanitized. -/
def sanitizedAmong (ms : List NameTag) : Nat := (ms.map NameTag.kind).count .sanitized

namespace Tagging

variable {g : Tagging} {inner : Text → List Segment → Except Cause Text} {v : Text}
  {m n : NameTag} {ms : List NameTag} {budget : Nat}

/-- The value of a tag that holds another tag is this one, completed. -/
theorem replace_segment_of_tag (husual : g.template.own.delimiters = {})
    (hname : g.template.tag? m.name = some n.source) :
    g.replace inner m.segment = (inner m.name [n.segment]).map (g.insert m.kind) := by
  rw [NameTag.segment, TagKind.segment, replace_tag, m.trim_body, resolve, valueOf_of_tag? hname]
  dsimp only
  rw [husual, n.taggedSegments?_source]

theorem replaceAll_singleton (s : Segment) : g.replaceAll inner [s] = g.replace inner s := by
  rw [replaceAll]
  cases g.replace inner s with
  | error cause => rfl
  | ok out => exact congrArg Except.ok (List.append_nil out)

theorem insert_iterate (m : NameTag) (ms : List NameTag) :
    g.insert m.kind (g.escape^[sanitizedAmong ms] v) = g.escape^[sanitizedAmong (m :: ms)] v := by
  rw [sanitizedAmong, sanitizedAmong, List.map_cons, List.count_cons]
  cases m.kind with
  | sanitized => exact (Function.iterate_succ_apply' g.escape _ v).symm
  | unsanitized => rfl

/-- Each tag takes one from the budget for the next, and what comes of that is escaped if the tag is
sanitized. -/
theorem replace_of_nests_le (husual : g.template.own.delimiters = {})
    (huntagged : containsTag {} v = false) (h : g.template.Nests v m ms)
    (hbudget : ms.length ≤ budget) :
    g.replace (g.complete budget) m.segment =
      .ok (g.escape^[sanitizedAmong (m :: ms)] v) := by
  induction h generalizing budget with
  | @last m hname =>
    have hvalue : g.valueOf m.body.trim = .ok v := by
      rw [m.trim_body]
      exact valueOf_of_tag? hname
    rw [NameTag.segment, TagKind.segment, replace_of_untagged hvalue (husual ▸ huntagged)]
    exact congrArg Except.ok (insert_iterate m [])
  | @next m n ms hname _ ih =>
    -- One of the budget goes to the value of `m`, in which `n` stands.
    obtain ⟨budget, rfl⟩ := Nat.exists_eq_add_of_le' (Nat.one_le_of_lt hbudget)
    rw [replace_segment_of_tag husual hname, complete, replaceAll_singleton,
      ih (Nat.le_of_succ_le_succ hbudget)]
    exact congrArg Except.ok (insert_iterate m (n :: ms))

/-- The tag that the budget leaves no room for is the one that is reported. -/
theorem replace_of_nests_lt (husual : g.template.own.delimiters = {})
    (h : g.template.Nests v m ms) (hbudget : budget < ms.length) :
    ∃ n, (m :: ms)[budget]? = some n ∧
      g.replace (g.complete budget) m.segment = .error (.tagTooDeep n.name g.limit) := by
  induction h generalizing budget with
  | last _ => cases hbudget
  | @next m n ms hname _ ih =>
    rw [replace_segment_of_tag husual hname]
    cases budget with
    | zero => exact ⟨m, rfl, rfl⟩
    | succ budget =>
      obtain ⟨o, ho, herror⟩ := ih (Nat.lt_of_succ_lt_succ hbudget)
      refine ⟨o, ho, ?_⟩
      rw [complete, replaceAll_singleton, herror]
      rfl

end Tagging

namespace Compiler

/-- Tags in each other's values are replaced as long as no more of them stand in the value of the
first than the limit allows. The text in the last one is then escaped once for each of them that is
sanitized. Beyond the limit the compiler fails for the first tag that stands too deep. -/
theorem compileTags_nested (c : Compiler) (t : Template) {v : Text} {m : NameTag}
    {ms : List NameTag} (husual : t.own.delimiters = {}) (huntagged : containsTag {} v = false)
    (h : t.Nests v m ms) :
    (∀ out, c.compileTags t m.source = .ok out ↔
        ms.length ≤ c.limits.tagDepth ∧ out = c.escape^[sanitizedAmong (m :: ms)] v) ∧
      (c.limits.tagDepth < ms.length → ∃ n cause, (m :: ms)[c.limits.tagDepth]? = some n ∧
        cause = .tagTooDeep n.name c.limits.tagDepth ∧ cause.kind = .recursionLimit ∧
        c.compileTags t m.source = .error ⟨cause, 1⟩) := by
  have husual' : (c.tagging t).template.own.delimiters = {} := husual
  have hrun : c.compileTags t m.source =
      ((c.tagging t).replace ((c.tagging t).complete c.limits.tagDepth) m.segment).mapError
        fun cause => ⟨cause, 1⟩ :=
    (c.tagging t).run_whole_tag (husual'.symm ▸ m.segments_source)
  have hfailure : c.limits.tagDepth < ms.length → ∃ n,
      (m :: ms)[c.limits.tagDepth]? = some n ∧
        c.compileTags t m.source = .error ⟨.tagTooDeep n.name c.limits.tagDepth, 1⟩ := by
    intro hlimit
    obtain ⟨n, hn, herror⟩ := (c.tagging t).replace_of_nests_lt husual' h hlimit
    refine ⟨n, hn, ?_⟩
    rw [hrun, herror]
    rfl
  constructor
  · intro out
    rcases Nat.lt_or_ge c.limits.tagDepth ms.length with hlimit | hlimit
    · obtain ⟨n, -, herror⟩ := hfailure hlimit
      rw [herror]
      exact ⟨nofun, fun hout => absurd hout.1 (Nat.not_le.mpr hlimit)⟩
    · rw [hrun, (c.tagging t).replace_of_nests_le husual' huntagged h hlimit]
      exact ⟨fun hout => ⟨hlimit, (Except.ok.inj hout).symm⟩, fun hout => hout.2 ▸ rfl⟩
  · intro hlimit
    obtain ⟨n, hn, herror⟩ := hfailure hlimit
    exact ⟨n, _, hn, rfl, rfl, herror⟩

/-- Four tags, of which every second one is sanitized. What the last one has opens a tag, but never
closes it. -/
def fourfold : Template where
  own := {
    tags := .ofList [("a".toList, "\x7b\x7b b\x7d\x7d".toList),
      ("b".toList, "\x7b\x7b!\nc2!\x7d\x7d".toList),
      ("c2".toList, "\x7b\x7b_d\t\x7d\x7d".toList), ("_d".toList, "<\x7b\x7b".toList)] }

/-- Three values may just stand in the value of the first tag. With room for two only, it is the
third tag that fails, since its value holds one more. -/
theorem compileTags_nested_fourfold :
    let v := "<\x7b\x7b".toList
    let first : NameTag :=
      ⟨.unsanitized, [], "a".toList, [], nofun, ⟨_, _, rfl, rfl, nofun⟩, nofun⟩
    let rest : List NameTag := [
      ⟨.sanitized, " ".toList, "b".toList, [], List.forall_mem_singleton.mpr rfl,
        ⟨_, _, rfl, rfl, nofun⟩, nofun⟩,
      ⟨.unsanitized, "\n".toList, "c2".toList, [], List.forall_mem_singleton.mpr rfl,
        ⟨_, _, rfl, rfl, List.forall_mem_singleton.mpr rfl⟩, nofun⟩,
      ⟨.sanitized, [], "_d".toList, "\t".toList, nofun,
        ⟨_, _, rfl, rfl, List.forall_mem_singleton.mpr rfl⟩, List.forall_mem_singleton.mpr rfl⟩]
    let three : Compiler := { Compiler.usual with limits := ⟨3, 0⟩ }
    let two : Compiler := { Compiler.usual with limits := ⟨2, 0⟩ }
    fourfold.own.delimiters = {} ∧ containsTag {} v = false ∧ fourfold.Nests v first rest ∧
      first.source = "\x7b\x7b!a!\x7d\x7d".toList ∧
      three.compileTags fourfold first.source = .ok "&amp;lt;\x7b\x7b".toList ∧
      two.compileTags fourfold first.source = .error ⟨.tagTooDeep "c2".toList 2, 1⟩ := by
  intro v first rest three two
  have huntagged : containsTag {} v = false := by decide +kernel
  have hnests : fourfold.Nests v first rest := by
    refine .next ?_ (.next ?_ (.next ?_ (.last ?_))) <;> decide +kernel
  have hout := ((compileTags_nested three fourfold rfl huntagged hnests).1 _).mpr ⟨by decide, rfl⟩
  obtain ⟨n, cause, hn, hcause, -, hfailure⟩ :=
    (compileTags_nested two fourfold rfl huntagged hnests).2 (by decide)
  have hescaped : Escaper.html^[sanitizedAmong (first :: rest)] v =
      "&amp;lt;\x7b\x7b".toList := by
    decide +kernel
  refine ⟨rfl, huntagged, hnests, rfl, hout.trans (congrArg Except.ok hescaped), ?_⟩
  cases hn
  rw [hfailure, hcause]

end Compiler

end Stencil
