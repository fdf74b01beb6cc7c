/- Template text as a list of characters, measured in characters, in UTF-8 bytes and in lines. -/
import Stencil.Unicode.Blank

namespace Stencil

/-- The text of templates, names and rendered values. -/
abbrev Text := List Char

namespace Text

def string (t : Text) : String := String.ofList t

/-- Length in UTF-8 bytes. -/
def byteSize : Text → Nat
  | [] => 0
  | c :: cs => c.utf8Size + byteSize cs

@[simp] theorem byteSize_nil : byteSize [] = 0 := rfl

@[simp] theorem byteSize_cons (c : Char) (t : Text) :
    byteSize (c :: t) = c.utf8Size + byteSize t := rfl

@[simp] theorem byteSize_append (s t : Text) : byteSize (s ++ t) = byteSize s + byteSize t := by
  induction s with
  | nil => simp
  | cons c s ih => simp [ih, Nat.add_assoc]

theorem byteSize_pos {t : Text} (h : t ≠ []) : 0 < t.byteSize := by
  obtain ⟨c, cs, rfl⟩ := List.exists_cons_of_ne_nil h
  exact Nat.add_pos_left c.utf8Size_pos _

def newlines (t : Text) : Nat := t.count '\n'

@[simp] theorem newlines_nil : newlines [] = 0 := rfl

@[simp] theorem newlines_append (s t : Text) : newlines (s ++ t) = newlines s + newlines t :=
  List.count_append

theorem newlines_cons (c : Char) (t : Text) :
    newlines (c :: t) = newlines [c] + newlines t := newlines_append [c] t

/-- The line after a character read on line `line`. -/
def lineAfter (line : Nat) (c : Char) : Nat := if c = '\n' then line + 1 else line

theorem lineAfter_eq (line : Nat) (c : Char) : lineAfter line c = line + newlines [c] := by
  by_cases h : c = '\n' <;> simp [lineAfter, newlines, h]

/-- The text between newlines, which are dropped; the empty text is one empty line. -/
def lines : Text → List Text
  | [] => [[]]
  | c :: cs =>
    if c = '\n' then [] :: lines cs
    else
      match lines cs with
      | [] => [[c]]
      | l :: ls => (c :: l) :: ls

theorem length_lines (t : Text) : (lines t).length = newlines t + 1 := by
  induction t with
  | nil => rfl
  | cons c cs ih =>
    by_cases h : c = '\n'
    · simp [lines, h, ih, newlines]
    · have hne : lines cs ≠ [] := by
        intro hnil
        rw [hnil] at ih
        simp at ih
      obtain ⟨l, ls, hl⟩ := List.exists_cons_of_ne_nil hne
      rw [hl] at ih
      simp [lines, h, hl, newlines] at ih ⊢
      exact ih

def trimStart (t : Text) : Text := t.dropWhile Unicode.isBlank

def trimEnd (t : Text) : Text := (t.reverse.dropWhile Unicode.isBlank).reverse

/-- The text without white space at either end. -/
def trim (t : Text) : Text := trimEnd (trimStart t)

/-- Whether a second text stands anywhere in the first. -/
def includes : Text → Text → Bool
  | [], needle => needle.isEmpty
  | c :: cs, needle => needle.isPrefixOf (c :: cs) || includes cs needle

/-- Replaces each occurrence of `old`, left to right without overlap, skipping the next `skip`
characters of an occurrence already replaced. -/
def replaceFrom (old new : Text) : Nat → Text → Text
  | _, [] => []
  | skip + 1, _ :: cs => replaceFrom old new skip cs
  | 0, c :: cs =>
    if old.isPrefixOf (c :: cs) then new ++ replaceFrom old new (old.length - 1) cs
    else c :: replaceFrom old new 0 cs

/-- `old` is meant to be non-empty. -/
def replace (old new t : Text) : Text := replaceFrom old new 0 t

/-- Lexicographic by code point, which is also the order of the UTF-8 bytes. -/
def order : Text → Text → Ordering
  | [], [] => .eq
  | [], _ :: _ => .lt
  | _ :: _, [] => .gt
  | a :: as, b :: bs => (compare a.toNat b.toNat).then (order as bs)

theorem order_eq_eq_iff {s t : Text} : order s t = .eq ↔ s = t := by
  induction s generalizing t with
  | nil => cases t <;> simp [order]
  | cons a s ih =>
    cases t with
    | nil => simp [order]
    | cons b t =>
      rw [order, Ordering.then_eq_eq, ih, Nat.compare_eq_eq, List.cons.injEq]
      exact and_congr_left fun _ => ⟨Char.toNat_inj.mp, congrArg Char.toNat⟩

theorem order_swap (s t : Text) : (order s t).swap = order t s := by
  induction s generalizing t with
  | nil => cases t <;> rfl
  | cons a s ih =>
    cases t with
    | nil => rfl
    | cons b t => rw [order, order, Ordering.swap_then, Nat.compare_swap, ih]

theorem order_lt_trans {r s t : Text} (h : order r s = .lt) (h' : order s t = .lt) :
    order r t = .lt := by
  induction r generalizing s t with
  | nil => cases s <;> cases t <;> simp_all [order]
  | cons a r ih =>
    cases s with
    | nil => simp [order] at h
    | cons b s =>
      cases t with
      | nil => simp [order] at h'
      | cons c t =>
        simp only [order, Ordering.then_eq_lt, Nat.compare_eq_lt, Nat.compare_eq_eq] at h h' ⊢
        rcases h with h | ⟨h, hr⟩ <;> rcases h' with h' | ⟨h', hs⟩
        · exact .inl (Nat.lt_trans h h')
        · exact .inl (h' ▸ h)
        · exact .inl (h ▸ h')
        · exact .inr ⟨h.trans h', ih hr hs⟩

/-- Decimal notation of a natural number. -/
def ofNat (n : Nat) : Text := Nat.toDigits 10 n

/-- Decimal notation of an integer, with a leading minus below zero. -/
def ofInt (n : Int) : Text := if n < 0 then '-' :: ofNat n.natAbs else ofNat n.natAbs

/-- Pads with `fill` on the left up to `width` characters. -/
def padLeft (width : Nat) (fill : Char) (t : Text) : Text :=
  List.replicate (width - t.length) fill ++ t

end Text

end Stencil
