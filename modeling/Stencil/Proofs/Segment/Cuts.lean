/- The lexer finds the regions that stand in a text, and its tokens mark them off. -/
import Stencil.Proofs.Segment.Groups

namespace Stencil

/-- The tokens mark segments off that stand one behind the other, the first one at that offset. -/
inductive MarkedOff (t : Text) : Nat → List Segment → List Token → Prop
  | nil (offset : Nat) : MarkedOff t offset [] []
  | cons {offset : Nat} {s : Segment} {ss : List Segment} {ks rest : List Token} :
      s.MarkedBy t offset ks → MarkedOff t (offset + s.raw.byteSize) ss rest →
      MarkedOff t offset (s :: ss) (ks ++ rest)

theorem markedOff_tokensFrom {t front : Text} {ss : List Segment} (ht : t = front ++ source ss) :
    MarkedOff t front.byteSize ss (tokensFrom (1 + front.newlines) front.byteSize ss) := by
  induction ss generalizing front with
  | nil => exact .nil _
  | cons s ss ih =>
    have hrest : t = (front ++ s.raw) ++ source ss := by
      rw [ht, source_cons, List.append_assoc]
    have hmarked := ih hrest
    rw [Text.newlines_append, Text.byteSize_append, ← Nat.add_assoc] at hmarked
    rw [source_cons] at ht
    exact .cons (Segment.markedBy_tokens ht) hmarked

/-- The tokens of a text mark off what has to be cut off one after the other: text where nothing
opens, escaped openings, and regions from the longest opening to the first closing outside strings.
There are no tokens exactly when what is cut off so leads to a region that has no closing or is a
directive without a name. -/
theorem tokenize_cuts_regions (ds : DelimiterSet) (t : Text) (hds : ds.Closes) :
    (∀ ts, tokenize ds t = .ok ts →
      ∃ ss, MarkedOff t 0 ss ts ∧ source ss = t ∧ ds.AllFit [] ss) ∧
    ((∃ e, tokenize ds t = .error e) ↔
      ∃ ss rest, source ss ++ rest = t ∧ ds.AllFit rest ss ∧ ds.Fails rest) := by
  refine ⟨fun ts hts => ?_, ?_⟩
  · obtain ⟨ss, hss, rfl⟩ := Outcome.map_eq_ok_iff.mp hts
    have ht : t = [] ++ source ss := (source_segments hss).symm
    exact ⟨ss, markedOff_tokensFrom ht, source_segments hss,
      DelimiterSet.allFit_of_segmentsFrom hds hss⟩
  · constructor
    · rintro ⟨e, he⟩
      obtain ⟨ss, rest, heq, hall, hfails⟩ :=
        DelimiterSet.exists_fails_of_segmentsFrom hds (Outcome.map_eq_error_iff.mp he)
      exact ⟨ss, rest, heq.symm, hall, hfails⟩
    · rintro ⟨ss, rest, rfl, hall, hfails⟩
      obtain ⟨e, he⟩ := DelimiterSet.exists_error_of_fails hds hall hfails 1
      exact ⟨e, Outcome.map_eq_error_iff.mpr he⟩

/-- A quoted closing does not end a directive: the tokens of the first text mark off one directive
and text behind it, and the second text leads to a directive that never closes. -/
theorem tokenize_cuts_quoted_closing :
    ({} : DelimiterSet).Closes ∧
      (∃ ss, MarkedOff "<% show('%>') %> a".toList 0 ss
          [⟨.opening .directive, "<%".toList, 1, 0, 2⟩, ⟨.directiveName, "show".toList, 1, 3, 7⟩,
            ⟨.expression, "('%>')".toList, 1, 7, 14⟩,
            ⟨.closing .directive, "%>".toList, 1, 14, 16⟩] ∧
        source ss = "<% show('%>') %> a".toList ∧ ({} : DelimiterSet).AllFit [] ss) ∧
      (∃ e, tokenize {} "a <% show %><% '%>".toList = .error e) ∧
      ∃ ss rest, source ss ++ rest = "a <% show %><% '%>".toList ∧
        ({} : DelimiterSet).AllFit rest ss ∧ ({} : DelimiterSet).Fails rest := by
  have hfirst := tokenize_cuts_regions {} "<% show('%>') %> a".toList DelimiterSet.closes_usual
  have hsecond := tokenize_cuts_regions {} "a <% show %><% '%>".toList DelimiterSet.closes_usual
  exact ⟨DelimiterSet.closes_usual, hfirst.1 _ rfl, ⟨_, rfl⟩, hsecond.2.mp ⟨_, rfl⟩⟩

end Stencil
