/- What escaping does to markup, and how it is undone. -/
import Stencil.Escape

namespace Stencil

namespace Entity

/-- The entities of the characters that are markup. -/
def all : List Text :=
  ["&amp;".toList, "&lt;".toList, "&gt;".toList, "&quot;".toList, "&#039;".toList]

/-- The characters that open or close markup or the value of an attribute. -/
def markup : List Char := ['<', '>', '"', '\'']

def IsPlain (c : Char) : Prop := c ∉ markup ∧ c ≠ '&'

instance (c : Char) : Decidable (IsPlain c) :=
  inferInstanceAs (Decidable (c ∉ markup ∧ c ≠ '&'))

-- Deciding the statement itself can mean trying every character there is.
theorem isPlain_of_all {t : Text} (h : t.all (decide <| IsPlain ·) = true) :
    ∀ c ∈ t, IsPlain c :=
  fun c hc => of_decide_eq_true (List.all_eq_true.mp h c hc)

theorem exists_name_of_mem_all {e : Text} (he : e ∈ all) :
    ∃ name, e = '&' :: name ∧ ∀ c ∈ name, IsPlain c := by
  simp only [all, List.mem_cons, List.not_mem_nil, or_false] at he
  rcases he with rfl | rfl | rfl | rfl | rfl
  · exact ⟨"amp;".toList, rfl, isPlain_of_all rfl⟩
  · exact ⟨"lt;".toList, rfl, isPlain_of_all rfl⟩
  · exact ⟨"gt;".toList, rfl, isPlain_of_all rfl⟩
  · exact ⟨"quot;".toList, rfl, isPlain_of_all rfl⟩
  · exact ⟨"#039;".toList, rfl, isPlain_of_all rfl⟩

/-- Entities read back as what they stand for, from left to right. -/
def decode : Text → Text
  | '&' :: 'a' :: 'm' :: 'p' :: ';' :: rest => '&' :: decode rest
  | '&' :: 'l' :: 't' :: ';' :: rest => '<' :: decode rest
  | '&' :: 'g' :: 't' :: ';' :: rest => '>' :: decode rest
  | '&' :: 'q' :: 'u' :: 'o' :: 't' :: ';' :: rest => '"' :: decode rest
  | '&' :: '#' :: '0' :: '3' :: '9' :: ';' :: rest => '\'' :: decode rest
  | c :: rest => c :: decode rest
  | [] => []

theorem decode_cons_of_isPlain {c : Char} (hc : IsPlain c) (rest : Text) :
    decode (c :: rest) = c :: decode rest := by
  rw [decode] <;> rintro _ rfl <;> exact absurd rfl hc.2

/-- Nothing in the text is markup, and every ampersand begins an entity. -/
structure Harmless (t : Text) : Prop where
  markup : ∀ c ∈ Entity.markup, c ∉ t
  ampersand : ∀ behind, '&' :: behind <:+ t → ∃ e ∈ all, e <+: '&' :: behind

theorem harmless_nil : Harmless [] where
  markup _ _ := List.not_mem_nil
  ampersand _ h := nomatch List.suffix_nil.mp h

theorem Harmless.cons {c : Char} {t : Text} (hmarkup : c ∉ Entity.markup)
    (hampersand : c = '&' → ∃ e ∈ all, e <+: c :: t) (ht : Harmless t) : Harmless (c :: t) where
  markup d hd hmem := by
    cases hmem with
    | head => exact hmarkup hd
    | tail _ hmem => exact ht.markup d hd hmem
  ampersand behind h := by
    rcases List.suffix_cons_iff.mp h with heq | hsuffix
    · obtain ⟨rfl, rfl⟩ := List.cons.inj heq
      exact hampersand rfl
    · exact ht.ampersand behind hsuffix

theorem Harmless.plain_append {u t : Text} (hu : ∀ c ∈ u, IsPlain c) (ht : Harmless t) :
    Harmless (u ++ t) := by
  induction u with
  | nil => exact ht
  | cons c u ih =>
    have hc := hu c List.mem_cons_self
    exact (ih fun d hd => hu d (List.mem_cons_of_mem c hd)).cons hc.1 fun h => absurd h hc.2

theorem Harmless.entity_append {e t : Text} (he : e ∈ all) (ht : Harmless t) :
    Harmless (e ++ t) := by
  obtain ⟨name, rfl, hname⟩ := exists_name_of_mem_all he
  exact (ht.plain_append hname).cons (by decide) fun _ => ⟨_, he, _, rfl⟩

end Entity

open Entity

/-- A character that is markup has an entity, which reads back as it; any other stays. -/
theorem htmlChar_cases (c : Char) :
    (IsPlain c ∧ htmlChar c = [c]) ∨
      htmlChar c ∈ all ∧ ∀ t, decode (htmlChar c ++ t) = c :: decode t := by
  unfold htmlChar
  split
  next => exact .inr ⟨by decide, fun _ => rfl⟩
  next => exact .inr ⟨by decide, fun _ => rfl⟩
  next => exact .inr ⟨by decide, fun _ => rfl⟩
  next => exact .inr ⟨by decide, fun _ => rfl⟩
  next => exact .inr ⟨by decide, fun _ => rfl⟩
  next hamp hlt hgt hquot hapos =>
    refine .inl ⟨⟨fun hmem => ?_, hamp⟩, rfl⟩
    simp only [markup, List.mem_cons, List.not_mem_nil, or_false] at hmem
    rcases hmem with rfl | rfl | rfl | rfl
    · exact hlt rfl
    · exact hgt rfl
    · exact hquot rfl
    · exact hapos rfl

namespace Escaper

theorem html_cons (c : Char) (t : Text) : html (c :: t) = htmlChar c ++ html t :=
  List.flatMap_cons

theorem harmless_html (t : Text) : Harmless (html t) := by
  induction t with
  | nil => exact harmless_nil
  | cons c t ih =>
    rw [html_cons]
    rcases htmlChar_cases c with ⟨hplain, hself⟩ | ⟨hentity, -⟩
    · rw [hself]
      exact ih.plain_append fun d hd => List.mem_singleton.mp hd ▸ hplain
    · exact ih.entity_append hentity

theorem decode_html (t : Text) : decode (html t) = t := by
  induction t with
  | nil => rfl
  | cons c t ih =>
    rw [html_cons]
    rcases htmlChar_cases c with ⟨hplain, hself⟩ | ⟨-, hdecode⟩
    · rw [hself, List.singleton_append, decode_cons_of_isPlain hplain, ih]
    · rw [hdecode, ih]

end Escaper

end Stencil
