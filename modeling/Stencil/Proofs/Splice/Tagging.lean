/- What replacing tags reads of a template: its tags and its delimiters. -/
import Stencil.Splice.Tags

namespace Stencil

namespace Tagging

/-- The templates answer the same for tags and are cut at the same delimiters. -/
structure Alike (g u : Tagging) : Prop where
  tag? : u.template.tag? = g.template.tag?
  delimiters : u.template.own.delimiters = g.template.own.delimiters
  scope : u.scope = g.scope
  escape : u.escape = g.escape
  limit : u.limit = g.limit

variable {g u : Tagging} {inner : Text → List Segment → Except Cause Text}

theorem Alike.insert (h : Alike g u) : u.insert = g.insert := by
  funext kind value
  cases kind with
  | sanitized => rw [Tagging.insert, Tagging.insert, h.escape]
  | unsanitized => rfl

theorem Alike.replace (h : Alike g u) (s : Segment) : u.replace inner s = g.replace inner s := by
  cases s with
  | tag kind opening body closing =>
    have hvalue : u.valueOf body.trim = g.valueOf body.trim := by
      rw [valueOf, valueOf, h.tag?, h.scope]
    rw [Tagging.replace, Tagging.replace, hvalue, h.delimiters, h.insert]
  | _ => rfl

theorem Alike.replaceAll (h : Alike g u) (ss : List Segment) :
    u.replaceAll inner ss = g.replaceAll inner ss := by
  induction ss with
  | nil => rfl
  | cons s ss ih => rw [Tagging.replaceAll, Tagging.replaceAll, h.replace, ih]

theorem Alike.complete (h : Alike g u) (budget : Nat) : u.complete budget = g.complete budget := by
  induction budget with
  | zero =>
    funext body ss
    rw [Tagging.complete, Tagging.complete, h.limit]
  | succ budget ih =>
    funext body ss
    rw [Tagging.complete, Tagging.complete, ih, h.replaceAll]

theorem Alike.replaceFrom (h : Alike g u) (s : Splice) (position : Nat) (ss : List Segment) :
    u.replaceFrom s position ss = g.replaceFrom s position ss := by
  induction ss generalizing position with
  | nil => rfl
  | cons segment ss ih =>
    rw [Tagging.replaceFrom, Tagging.replaceFrom, h.limit, h.complete, h.replace, ih]

theorem Alike.run (h : Alike g u) (s : Splice) : u.run s = g.run s := by
  rw [Tagging.run, Tagging.run, h.delimiters]
  cases segments g.template.own.delimiters s.text with
  | error e => rfl
  | ok ss => exact h.replaceFrom s 0 ss

end Tagging

end Stencil
