/- Finite maps from names, kept in the order of the names so that equal contents are equal maps. -/
import Stencil.Text.Basic

namespace Stencil

variable {α : Type}

/-- Names in strictly increasing order. -/
def Increasing : List (Text × α) → Prop :=
  List.Pairwise fun a b => Text.order a.1 b.1 = .lt

structure Dict (α : Type) where
  entries : List (Text × α)
  increasing : Increasing entries

namespace Dict

def empty : Dict α := ⟨[], .nil⟩

instance : EmptyCollection (Dict α) := ⟨empty⟩

instance : Inhabited (Dict α) := ⟨empty⟩

def insertEntry (name : Text) (value : α) : List (Text × α) → List (Text × α)
  | [] => [(name, value)]
  | e :: es =>
    match Text.order name e.1 with
    | .lt => (name, value) :: e :: es
    | .eq => (name, value) :: es
    | .gt => e :: insertEntry name value es

theorem fst_of_mem_insertEntry {name : Text} {value : α} {e : Text × α} {es : List (Text × α)}
    (h : e ∈ insertEntry name value es) : e.1 = name ∨ e ∈ es := by
  induction es with
  | nil => simp [insertEntry] at h; exact .inl (h ▸ rfl)
  | cons d es ih =>
    simp only [insertEntry] at h
    split at h
    · rcases List.mem_cons.mp h with rfl | h
      · exact .inl rfl
      · exact .inr h
    · rcases List.mem_cons.mp h with rfl | h
      · exact .inl rfl
      · exact .inr (List.mem_cons_of_mem _ h)
    · rcases List.mem_cons.mp h with rfl | h
      · exact .inr List.mem_cons_self
      · exact (ih h).imp_right (List.mem_cons_of_mem _)

theorem increasing_insertEntry {name : Text} {value : α} {es : List (Text × α)}
    (h : Increasing es) : Increasing (insertEntry name value es) := by
  induction es with
  | nil => exact List.pairwise_singleton _ _
  | cons d es ih =>
    obtain ⟨hd, hes⟩ := List.pairwise_cons.mp h
    simp only [insertEntry]
    split
    next hlt =>
      refine List.pairwise_cons.mpr ⟨fun e he => ?_, h⟩
      rcases List.mem_cons.mp he with rfl | he
      · exact hlt
      · exact Text.order_lt_trans hlt (hd e he)
    next heq =>
      rw [Text.order_eq_eq_iff.mp heq]
      exact List.pairwise_cons.mpr ⟨hd, hes⟩
    next hgt =>
      refine List.pairwise_cons.mpr ⟨fun e he => ?_, ih hes⟩
      rcases fst_of_mem_insertEntry he with rfl | he
      · rw [← Text.order_swap, hgt]; rfl
      · exact hd e he

/-- Sets a name; an earlier value of it gives way. -/
def insert (name : Text) (value : α) (d : Dict α) : Dict α :=
  ⟨insertEntry name value d.entries, increasing_insertEntry d.increasing⟩

def findEntry (name : Text) : List (Text × α) → Option α
  | [] => none
  | e :: es => if e.1 = name then some e.2 else findEntry name es

def get? (d : Dict α) (name : Text) : Option α := findEntry name d.entries

def names (d : Dict α) : List Text := d.entries.map (·.1)

def size (d : Dict α) : Nat := d.entries.length

/-- Sets the names of a list from left to right. -/
def insertAll (pairs : List (Text × α)) (d : Dict α) : Dict α :=
  pairs.foldl (fun d p => d.insert p.1 p.2) d

def ofList (pairs : List (Text × α)) : Dict α := insertAll pairs empty

/-- Both maps, the entries of `d` giving way to those of `near`. -/
def overlay (d near : Dict α) : Dict α := insertAll near.entries d

@[simp] theorem get?_empty (name : Text) : (empty : Dict α).get? name = none := rfl

theorem findEntry_insertEntry (name other : Text) (value : α) (es : List (Text × α)) :
    findEntry other (insertEntry name value es) =
      if name = other then some value else findEntry other es := by
  induction es with
  | nil => simp [insertEntry, findEntry]
  | cons d es ih =>
    simp only [insertEntry]
    split
    · simp [findEntry]
    next heq =>
      simp only [findEntry, ← Text.order_eq_eq_iff.mp heq]
      split <;> rfl
    next hgt =>
      have hne : d.1 ≠ name := by
        intro h
        rw [Text.order_eq_eq_iff.mpr h.symm] at hgt
        cases hgt
      simp only [findEntry, ih]
      by_cases h : d.1 = other
      · simp [h, Ne.symm (h ▸ hne)]
      · simp [h]

@[simp] theorem get?_insert (d : Dict α) (name other : Text) (value : α) :
    (d.insert name value).get? other = if name = other then some value else d.get? other :=
  findEntry_insertEntry name other value d.entries

theorem findEntry_eq_none {name : Text} {es : List (Text × α)} (h : ∀ e ∈ es, e.1 ≠ name) :
    findEntry name es = none := by
  induction es with
  | nil => rfl
  | cons d es ih =>
    simp only [findEntry, if_neg (h d List.mem_cons_self)]
    exact ih fun e he => h e (List.mem_cons_of_mem _ he)

theorem ne_of_order_lt {s t : Text} (h : Text.order s t = .lt) : s ≠ t := by
  intro heq
  rw [Text.order_eq_eq_iff.mpr heq] at h
  cases h

theorem entries_eq {es fs : List (Text × α)} (he : Increasing es) (hf : Increasing fs)
    (h : ∀ name, findEntry name es = findEntry name fs) : es = fs := by
  induction es generalizing fs with
  | nil =>
    cases fs with
    | nil => rfl
    | cons f fs => simpa [findEntry] using h f.1
  | cons e es ih =>
    cases fs with
    | nil => simpa [findEntry] using h e.1
    | cons f fs =>
      obtain ⟨he', hes⟩ := List.pairwise_cons.mp he
      obtain ⟨hf', hfs⟩ := List.pairwise_cons.mp hf
      have hkey : e.1 = f.1 := by
        apply Text.order_eq_eq_iff.mp
        cases ho : Text.order e.1 f.1 with
        | eq => rfl
        | lt =>
          have hnone : findEntry e.1 fs = none :=
            findEntry_eq_none fun g hg heq => ne_of_order_lt
              (Text.order_lt_trans ho (hf' g hg)) heq.symm
          have := h e.1
          simp [findEntry, (ne_of_order_lt ho).symm, hnone] at this
        | gt =>
          have hlt : Text.order f.1 e.1 = .lt := by rw [← Text.order_swap, ho]; rfl
          have hnone : findEntry f.1 es = none :=
            findEntry_eq_none fun g hg heq => ne_of_order_lt
              (Text.order_lt_trans hlt (he' g hg)) heq.symm
          have := h f.1
          simp [findEntry, (ne_of_order_lt hlt).symm, hnone] at this
      have hvalue : e.2 = f.2 := by simpa [findEntry, hkey] using h e.1
      have hrest : es = fs := by
        refine ih hes hfs fun name => ?_
        by_cases hname : e.1 = name
        · rw [findEntry_eq_none fun g hg heq => ne_of_order_lt (he' g hg) (hname.trans heq.symm),
            findEntry_eq_none fun g hg heq =>
              ne_of_order_lt (hf' g hg) (hkey.symm.trans (hname.trans heq.symm))]
        · simpa [findEntry, hname, hkey ▸ hname] using h name
      rw [hrest, Prod.ext hkey hvalue]

theorem get?_insertAll {pairs : List (Text × α)} (h : Increasing pairs) (d : Dict α)
    (name : Text) : (insertAll pairs d).get? name = (findEntry name pairs).or (d.get? name) := by
  induction pairs generalizing d with
  | nil => rfl
  | cons p ps ih =>
    obtain ⟨hp, hps⟩ := List.pairwise_cons.mp h
    rw [insertAll, List.foldl_cons, ← insertAll, ih hps, get?_insert, findEntry]
    by_cases hname : p.1 = name
    · have hnone : findEntry name ps = none :=
        findEntry_eq_none fun e he heq => ne_of_order_lt (hp e he) (hname.trans heq.symm)
      simp [hname, hnone]
    · simp [hname]

/-- The last of the pairs with a name gives its value. -/
theorem get?_insertAll_map {β : Type} (key : β → Text) (value : β → α) (bs : List β) (d : Dict α)
    (name : Text) :
    (insertAll (bs.map fun b => (key b, value b)) d).get? name =
      ((bs.reverse.find? fun b => key b = name).map value).or (d.get? name) := by
  induction bs generalizing d with
  | nil => rfl
  | cons b bs ih =>
    rw [List.map_cons, insertAll, List.foldl_cons, ← insertAll, ih, get?_insert, List.reverse_cons,
      List.find?_append, List.find?_singleton]
    cases bs.reverse.find? fun b => key b = name with
    | some _ => rfl
    | none => by_cases hname : key b = name <;> simp [hname]

@[simp] theorem get?_overlay (d near : Dict α) (name : Text) :
    (d.overlay near).get? name = (near.get? name).or (d.get? name) :=
  get?_insertAll near.increasing d name

/-- Maps with the same lookups are equal. -/
theorem ext {d e : Dict α} (h : ∀ name, d.get? name = e.get? name) : d = e := by
  cases d with
  | mk es hes =>
    cases e with
    | mk fs hfs =>
      obtain rfl := entries_eq hes hfs h
      rfl

end Dict

end Stencil
