/- The lexer as a loop with a stack of modes. What is cut out of the text by byte offsets is cut out
at ends of characters, or the loop breaks off. -/
import Stencil.Segment.Token
import Stencil.Text.Slice

namespace Stencil

inductive ScanMode where
  | text
  | region
  | string (quote : Char)

/-- The region that is read: its body starts at a byte offset, and it was opened on a line. -/
structure ScanRegion where
  kind : RegionKind
  closing : Text
  bodyStart : Nat
  line : Nat

/-- Where the loop stands. The innermost mode comes first. -/
structure Scan where
  offset : Nat := 0
  line : Nat := 1
  modes : List ScanMode := [.text]
  region : Option ScanRegion := none
  stringLine : Nat := 1
  tokens : List Token := []

/-- What a number of turns comes to. -/
inductive ScanResult where
  | ended (result : Except LexError (List Token))
  | brokeOff
  | goesOn
deriving DecidableEq

/-- The byte offset of the first character for which `p` holds. -/
def Text.findOffset? (p : Char → Bool) : Text → Option Nat
  | [] => none
  | c :: cs => if p c then some 0 else (findOffset? p cs).map (c.utf8Size + ·)

namespace Scan

def mode (s : Scan) : ScanMode := s.modes.head?.getD .text

def enter (m : ScanMode) (s : Scan) : Scan := { s with modes := m :: s.modes }

/-- The outermost mode stays. -/
def leave (s : Scan) : Scan := if 1 < s.modes.length then { s with modes := s.modes.tail } else s

def add (kind : TokenKind) (value : Text) (line start stop : Nat) (s : Scan) : Scan :=
  { s with tokens := s.tokens ++ [⟨kind, value, line, start, stop⟩] }

/-- The text that is left. -/
def rest? (t : Text) (s : Scan) : Option Text := t.slice? s.offset t.byteSize

def pass (c : Char) (s : Scan) : Scan :=
  { s with offset := s.offset + c.utf8Size, line := Text.lineAfter s.line c }

/-- Goes behind the next character, if there is one. -/
def advanceChar? (t : Text) (s : Scan) : Option Scan :=
  (s.rest? t).map fun rest =>
    match rest with
    | [] => s
    | c :: _ => s.pass c

/-- Goes behind so many bytes. -/
def advanceBytes? (t : Text) (bytes : Nat) (s : Scan) : Option Scan :=
  let stop := min (s.offset + bytes) t.byteSize
  (t.slice? s.offset stop).map fun passed =>
    { s with offset := stop, line := s.line + passed.newlines }

theorem offset_of_rest? {t : Text} {s : Scan} {c : Char} {rest : Text}
    (h : s.rest? t = some (c :: rest)) : s.offset + c.utf8Size ≤ t.byteSize := by
  obtain ⟨front, rear, -, hstart, hstop⟩ := Text.slice?_eq_some_iff.mp h
  rw [Text.byteSize_append, hstart, Text.byteSize_cons] at hstop
  omega

/-- Goes on as long as `p` holds of the next character. -/
def advanceWhile? (t : Text) (p : Char → Bool) (s : Scan) : Option Scan :=
  match _hrest : s.rest? t with
  | none => none
  | some [] => some s
  | some (c :: _) => if p c then advanceWhile? t p (s.pass c) else some s
termination_by t.byteSize - s.offset
decreasing_by
  have hsize := offset_of_rest? _hrest
  have hpos := c.utf8Size_pos
  show t.byteSize - (s.offset + c.utf8Size) < t.byteSize - s.offset
  omega

/-- One turn outside of regions. -/
def atText? (os : List Opener) (t : Text) (s : Scan) : Option Scan :=
  (s.rest? t).bind fun rest =>
    match escapedOpening? os rest with
    | some o =>
      (s.advanceBytes? t (1 + o.opening.byteSize)).map fun next =>
        next.add .escapedOpening o.opening s.line s.offset next.offset
    | none =>
      match matchOpener? os rest with
      | some o =>
        (s.advanceBytes? t o.opening.byteSize).map fun next =>
          let opened := next.add (.opening o.kind) o.opening s.line s.offset next.offset
          enter .region { opened with region := some ⟨o.kind, o.closing, next.offset, s.line⟩ }
      | none => s.advanceChar? t

/-- The tokens of a body, once the closing of its region is found. -/
def addBody? (t : Text) (r : ScanRegion) (bodyStop : Nat) (s : Scan) :
    Option (Except LexError Scan) :=
  (t.slice? r.bodyStart bodyStop).bind fun body =>
    match r.kind with
    | .tag _ => some (.ok (s.add .expression body.trim r.line r.bodyStart bodyStop))
    | .directive =>
      let nameStart := r.bodyStart + (body.byteSize - body.trimStart.byteSize)
      (t.slice? nameStart bodyStop).bind fun inner =>
        let nameSize := (inner.findOffset? fun c => !Unicode.isWord c).getD (bodyStop - nameStart)
        if nameSize = 0 then some (.error (.missingDirectiveName r.line body))
        else
          let nameStop := nameStart + nameSize
          (t.slice? nameStart nameStop).bind fun name =>
            (t.slice? nameStop bodyStop).map fun argument =>
              let named := s.add .directiveName name r.line nameStart nameStop
              if argument.trim.isEmpty then .ok named
              else .ok (named.add .expression argument.trim r.line nameStop bodyStop)

/-- One turn in a region, which looks for the closing first. -/
def atRegion? (t : Text) (s : Scan) : Option (Except LexError Scan) :=
  match s.region with
  | none => some (.ok s.leave)
  | some r =>
    (s.rest? t).bind fun rest =>
      if r.closing.isPrefixOf rest then
        (s.advanceBytes? t r.closing.byteSize).bind fun behind =>
          (behind.addBody? t r s.offset).map fun added =>
            added.map fun next =>
              let closed := next.add (.closing r.kind) r.closing s.line s.offset next.offset
              leave { closed with region := none }
      else
        match rest with
        | [] => some (.ok s)
        | c :: _ =>
          if c = '"' ∨ c = '\'' then
            (advanceChar? t { s with stringLine := s.line }).map fun next =>
              .ok (next.enter (.string c))
          else (s.advanceChar? t).map .ok

/-- One turn in a string, where no closing is looked for. -/
def atString? (t : Text) (quote : Char) (s : Scan) : Option Scan :=
  (s.rest? t).bind fun rest =>
    match rest with
    | [] => some s
    | c :: _ =>
      if c = '\\' then (s.advanceChar? t).bind (advanceChar? t)
      else if c = quote then (s.advanceChar? t).map leave
      else s.advanceWhile? t fun d => d ≠ quote && d ≠ '\\'

/-- One turn of the loop. -/
def turn? (os : List Opener) (t : Text) (s : Scan) : Option (Except LexError Scan) :=
  match s.mode with
  | .text => (s.atText? os t).map .ok
  | .region => s.atRegion? t
  | .string quote => (s.atString? t quote).map .ok

/-- What the loop ends in. A region must not be left open. -/
def finish (s : Scan) : Except LexError (List Token) :=
  match s.mode, s.region with
  | .string quote, _ => .error (.unterminatedString s.line s.stringLine quote)
  | .region, some r =>
    let kind := match r.kind with
      | .directive => .unterminatedDirective
      | .tag _ => .unterminatedTag
    .error (.unterminatedRegion kind s.line r.line r.closing)
  | _, _ => .ok s.tokens

/-- The loop, for no more turns than given. -/
def run (os : List Opener) (t : Text) : Nat → Scan → ScanResult
  | turns, s =>
    if s.offset < t.byteSize then
      match turns with
      | 0 => .goesOn
      | turns + 1 =>
        match s.turn? os t with
        | none => .brokeOff
        | some (.error e) => .ended (.error e)
        | some (.ok next) => run os t turns next
    else .ended s.finish

end Scan

end Stencil
