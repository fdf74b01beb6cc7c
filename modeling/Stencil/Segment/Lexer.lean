/- Cutting a template into segments. Regions run to the first closing outside quoted strings. -/
import Stencil.Outcome
import Stencil.Segment.Basic
import Stencil.Segment.LexError
import Stencil.Unicode.Word

namespace Stencil

/-- Where reading stands inside a region. A string remembers its quote and the line of it. -/
inductive BodyState where
  | code
  | quoted (quote : Char) (line : Nat)
  | escaped (quote : Char) (line : Nat)
deriving DecidableEq

def BodyState.next (line : Nat) (c : Char) : BodyState → BodyState
  | .code => if c = '"' ∨ c = '\'' then .quoted c line else .code
  | .quoted quote opened =>
    if c = '\\' then .escaped quote opened else if c = quote then .code else .quoted quote opened
  | .escaped quote opened => .quoted quote opened

/-- How a region that never closes ends: in its own text or in a string. -/
inductive Unclosed where
  | region (line : Nat)
  | string (line openedAt : Nat) (quote : Char)
deriving DecidableEq

def BodyState.unclosed (line : Nat) : BodyState → Unclosed
  | .code => .region line
  | .quoted quote opened => .string line opened quote
  | .escaped quote opened => .string line opened quote

/-- The text before the closing of a region, which is not looked for inside strings. -/
def bodyBefore (closing : Text) : BodyState → Nat → Text → Except Unclosed Text
  | state, line, [] => .error (state.unclosed line)
  | state, line, c :: cs =>
    if state = .code ∧ closing.isPrefixOf (c :: cs) then .ok []
    else (bodyBefore closing (state.next line c) (Text.lineAfter line c) cs).map (c :: ·)

theorem bodyBefore_append_closing {closing : Text} {state : BodyState} {line : Nat} {t body : Text}
    (h : bodyBefore closing state line t = .ok body) : body ++ closing <+: t := by
  induction t generalizing state line body with
  | nil => cases h
  | cons c cs ih =>
    rw [bodyBefore] at h
    split at h
    next hc =>
      cases h
      exact List.isPrefixOf_iff_prefix.mp hc.2
    next =>
      obtain ⟨b, hb, hs⟩ := Outcome.map_eq_ok_iff.mp h
      cases hs
      exact List.cons_prefix_cons.mpr ⟨rfl, ih hb⟩

def Unclosed.error (kind : RegionKind) (openedAt : Nat) (closing : Text) : Unclosed → LexError
  | .region line =>
    let k := match kind with
      | .directive => .unterminatedDirective
      | .tag _ => .unterminatedTag
    .unterminatedRegion k line openedAt closing
  | .string line opened quote => .unterminatedString line opened quote

/-- The segment of a region, given the text between its delimiters. -/
def regionSegment (o : Opener) (line : Nat) (body : Text) : Except LexError Segment :=
  match o.kind with
  | .tag kind => .ok (.tag kind o.opening body o.closing)
  | .directive =>
    let rest := body.dropWhile Unicode.isBlank
    let name := rest.takeWhile Unicode.isWord
    if name.isEmpty then .error (.missingDirectiveName line body)
    else
      .ok (.directive o.opening (body.takeWhile Unicode.isBlank) name
        (rest.dropWhile Unicode.isWord) o.closing)

theorem raw_of_regionSegment {o : Opener} {line : Nat} {body : Text} {s : Segment}
    (h : regionSegment o line body = .ok s) : s.raw = o.opening ++ (body ++ o.closing) := by
  unfold regionSegment at h
  split at h
  next => cases h; rfl
  next =>
    dsimp only at h
    split at h
    next => cases h
    next =>
      cases h
      simp only [Segment.raw, ← List.append_assoc _ _ o.closing, List.takeWhile_append_dropWhile]

/-- The region that starts with opener `o` on line `line`, where `rest` follows the opening. -/
def regionAfter (o : Opener) (line : Nat) (rest : Text) : Except LexError Segment :=
  match bodyBefore o.closing .code (line + o.opening.newlines) rest with
  | .error e => .error (e.error o.kind line o.closing)
  | .ok body => regionSegment o line body

theorem raw_of_regionAfter {o : Opener} {line : Nat} {rest : Text} {s : Segment}
    (h : regionAfter o line rest = .ok s) : s.raw <+: o.opening ++ rest := by
  unfold regionAfter at h
  split at h
  next => cases h
  next body hb =>
    rw [raw_of_regionSegment h]
    exact (List.prefix_append_right_inj _).mpr (bodyBefore_append_closing hb)

/-- The opening of a tag that a backslash makes plain text. -/
def escapedOpening? (os : List Opener) : Text → Option Opener
  | '\\' :: rest => matchOpener? (os.filter Opener.isTag) rest
  | _ => none

/-- The segment other than text that starts here, if there is one. -/
def segmentAt? (os : List Opener) (line : Nat) (t : Text) : Except LexError (Option Segment) :=
  match escapedOpening? os t with
  | some o => .ok (some (.escapedOpening o.opening))
  | none =>
    match matchOpener? os t with
    | some o => (regionAfter o line (t.drop o.opening.length)).map some
    | none => .ok none

/-- A segment is taken from the start of the text. -/
theorem raw_of_segmentAt? {os : List Opener} {line : Nat} {t : Text} {s : Segment}
    (h : segmentAt? os line t = .ok (some s)) : s.raw <+: t := by
  unfold segmentAt? at h
  split at h
  next o ho =>
    cases h
    unfold escapedOpening? at ho
    split at ho
    next => exact List.cons_prefix_cons.mpr ⟨rfl, isPrefixOf_of_matchOpener? ho⟩
    next => cases ho
  next =>
    split at h
    next o ho =>
      obtain ⟨r, hr, hs⟩ := Outcome.map_eq_ok_iff.mp h
      cases hs
      simpa only [append_drop_of_matchOpener? ho] using raw_of_regionAfter hr
    next => cases h

theorem raw_ne_nil_of_segmentAt? {os : List Opener} {line : Nat} {t : Text} {s : Segment}
    (hos : ∀ o ∈ os, o.opening ≠ []) (h : segmentAt? os line t = .ok (some s)) : s.raw ≠ [] := by
  unfold segmentAt? at h
  split at h
  next => cases h; exact List.cons_ne_nil _ _
  next =>
    split at h
    next o ho =>
      obtain ⟨r, hr, hs⟩ := Outcome.map_eq_ok_iff.mp h
      cases hs
      unfold regionAfter at hr
      split at hr
      next => cases hr
      next =>
        rw [raw_of_regionSegment hr]
        exact List.append_ne_nil_of_left_ne_nil (hos o (List.mem_of_find?_eq_some ho)) _
    next => cases h

/-- Adds a character to the text that the segments start with. -/
def consText (c : Char) : List Segment → List Segment
  | .text t :: ss => .text (c :: t) :: ss
  | ss => .text [c] :: ss

theorem source_consText (c : Char) (ss : List Segment) :
    source (consText c ss) = c :: source ss := by
  unfold consText
  split <;> simp [Segment.raw]

/-- Segments of the text after its next `skip` characters, which belong to a segment already
taken. -/
def segmentsFrom (os : List Opener) : Nat → Nat → Text → Except LexError (List Segment)
  | _, _, [] => .ok []
  | skip + 1, line, c :: cs => segmentsFrom os skip (Text.lineAfter line c) cs
  | 0, line, c :: cs =>
    match segmentAt? os line (c :: cs) with
    | .error e => .error e
    | .ok (some s) =>
      (segmentsFrom os (s.raw.length - 1) (Text.lineAfter line c) cs).map (s :: ·)
    | .ok none => (segmentsFrom os 0 (Text.lineAfter line c) cs).map (consText c)

theorem source_segmentsFrom {os : List Opener} (hos : ∀ o ∈ os, o.opening ≠ []) {skip line : Nat}
    {t : Text} {ss : List Segment} (h : segmentsFrom os skip line t = .ok ss) :
    source ss = t.drop skip := by
  induction t generalizing skip line ss with
  | nil => cases skip <;> (cases h; rfl)
  | cons c cs ih =>
    cases skip with
    | succ skip => exact ih h
    | zero =>
      rw [segmentsFrom] at h
      split at h
      next => cases h
      next s hs =>
        obtain ⟨rest, hrest, rfl⟩ := Outcome.map_eq_ok_iff.mp h
        obtain ⟨n, hn⟩ := Nat.exists_eq_succ_of_ne_zero
          fun h0 => raw_ne_nil_of_segmentAt? hos hs (List.length_eq_zero_iff.mp h0)
        have hdrop := List.prefix_iff_eq_append.mp (raw_of_segmentAt? hs)
        rw [hn, Nat.succ_eq_add_one, List.drop_succ_cons] at hdrop
        rw [source_cons, ih hrest, hn, Nat.succ_sub_one, hdrop, List.drop_zero]
      next =>
        obtain ⟨rest, hrest, rfl⟩ := Outcome.map_eq_ok_iff.mp h
        rw [source_consText, ih hrest, List.drop_zero, List.drop_zero]

/-- Cuts a template into segments, with no two texts side by side and none empty. -/
def segments (ds : DelimiterSet) (t : Text) : Except LexError (List Segment) :=
  segmentsFrom ds.openers 0 1 t

/-- Segments lose nothing of the text. -/
theorem source_segments {ds : DelimiterSet} {t : Text} {ss : List Segment}
    (h : segments ds t = .ok ss) : source ss = t :=
  source_segmentsFrom (fun _ => DelimiterSet.opening_ne_nil) h

end Stencil
