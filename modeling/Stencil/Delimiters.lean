/- The delimiters that set directives and tags off from the text around them. -/
import Stencil.Text.Basic

namespace Stencil

inductive TagKind where
  | sanitized
  | unsanitized
deriving DecidableEq

inductive RegionKind where
  | directive
  | tag (kind : TagKind)
deriving DecidableEq

structure Delimiters where
  opening : Text
  closing : Text
deriving DecidableEq

/-- The delimiters in force, with none for a kind of region that is switched off. -/
structure DelimiterSet where
  directive : Option Delimiters := some ⟨"<%".toList, "%>".toList⟩
  sanitized : Option Delimiters := some ⟨"\x7b\x7b".toList, "\x7d\x7d".toList⟩
  unsanitized : Option Delimiters := some ⟨"\x7b\x7b!".toList, "!\x7d\x7d".toList⟩
deriving DecidableEq

namespace DelimiterSet

def get? (ds : DelimiterSet) : RegionKind → Option Delimiters
  | .directive => ds.directive
  | .tag .sanitized => ds.sanitized
  | .tag .unsanitized => ds.unsanitized

def update (kind : RegionKind) (d : Option Delimiters) (ds : DelimiterSet) : DelimiterSet :=
  match kind with
  | .directive => { ds with directive := d }
  | .tag .sanitized => { ds with sanitized := d }
  | .tag .unsanitized => { ds with unsanitized := d }

@[simp] theorem get?_update_self (kind : RegionKind) (d : Option Delimiters) (ds : DelimiterSet) :
    (ds.update kind d).get? kind = d := by
  rcases kind with _ | _ | _ <;> rfl

end DelimiterSet

/-- The order in which equal openings are preferred. -/
def RegionKind.all : List RegionKind := [.directive, .tag .sanitized, .tag .unsanitized]

/-- An opening to look for, with the closing that ends its region. -/
structure Opener where
  kind : RegionKind
  opening : Text
  closing : Text

def Opener.isTag (o : Opener) : Bool := o.kind != .directive

/-- Puts an opener before those that are no longer than it. -/
def insertOpener (o : Opener) : List Opener → List Opener
  | [] => [o]
  | p :: ps =>
    if p.opening.length ≤ o.opening.length then o :: p :: ps else p :: insertOpener o ps

theorem mem_insertOpener {o p : Opener} {os : List Opener} :
    o ∈ insertOpener p os ↔ o = p ∨ o ∈ os := by
  induction os with
  | nil => exact List.mem_cons
  | cons q qs ih =>
    rw [insertOpener]
    split
    · exact List.mem_cons
    · rw [List.mem_cons, ih, List.mem_cons]
      exact or_left_comm

theorem mem_foldr_insertOpener {o : Opener} {os : List Opener} :
    o ∈ os.foldr insertOpener [] ↔ o ∈ os := by
  induction os with
  | nil => rfl
  | cons p ps ih => rw [List.foldr_cons, mem_insertOpener, ih, List.mem_cons]

namespace DelimiterSet

def opener? (ds : DelimiterSet) (kind : RegionKind) : Option Opener :=
  match ds.get? kind with
  | some d => if d.opening.isEmpty then none else some ⟨kind, d.opening, d.closing⟩
  | none => none

/-- The openings that are set and not empty, long ones first. -/
def openers (ds : DelimiterSet) : List Opener :=
  (RegionKind.all.filterMap ds.opener?).foldr insertOpener []

theorem opening_ne_nil {ds : DelimiterSet} {o : Opener} (h : o ∈ ds.openers) :
    o.opening ≠ [] := by
  obtain ⟨kind, -, hkind⟩ := List.mem_filterMap.mp (mem_foldr_insertOpener.mp h)
  unfold opener? at hkind
  split at hkind
  next d _ =>
    split at hkind
    next => cases hkind
    next hne =>
      cases hkind
      exact fun hnil => hne (List.isEmpty_iff.mpr hnil)
  next => cases hkind

end DelimiterSet

/-- The first opener, hence the longest, that the text starts with. -/
def matchOpener? (os : List Opener) (t : Text) : Option Opener :=
  os.find? fun o => o.opening.isPrefixOf t

theorem isPrefixOf_of_matchOpener? {os : List Opener} {t : Text} {o : Opener}
    (h : matchOpener? os t = some o) : o.opening <+: t := by
  have hp := List.find?_some h
  exact List.isPrefixOf_iff_prefix.mp hp

theorem append_drop_of_matchOpener? {os : List Opener} {t : Text} {o : Opener}
    (h : matchOpener? os t = some o) : o.opening ++ t.drop o.opening.length = t :=
  List.prefix_iff_eq_append.mp (isPrefixOf_of_matchOpener? h)

end Stencil
