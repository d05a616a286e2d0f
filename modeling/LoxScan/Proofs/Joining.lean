import LoxScan.Proofs.ItemForm

/-! # Joined items

Items that are written one after the other are cut apart again exactly if none of them is extended
by the text that follows it.

* `joined` is the text of some items, and `Fits` says that they stay apart in front of a text.
* `items_joined_append` cuts up a text that begins with items that fit; the items of a text always
  do (`fits_items`).
* `items_joined_iff`: items are those of their own text exactly if they fit.
-/

namespace LoxScan

def joined (found : List Item) : List Char :=
  (found.map Item.text).flatten

@[simp] theorem joined_nil : joined [] = [] := rfl

@[simp] theorem joined_cons (item : Item) (found : List Item) :
    joined (item :: found) = item.text ++ joined found := rfl

@[simp] theorem joined_append (first second : List Item) :
    joined (first ++ second) = joined first ++ joined second := by
  simp [joined]

@[simp] theorem joined_items (text : List Char) : joined (items text) = text :=
  flatten_items text

/-- Items that stay apart when they are written in front of a text: each of them ends where the
    next one begins. -/
inductive Fits (rest : List Char) : List Item → Prop
  | nil : Fits rest []
  | cons {item : Item} {found : List Item} (hshape : item.Shape)
      (hrest : item.extendedBy (joined found ++ rest) = false) (hfound : Fits rest found) :
      Fits rest (item :: found)

theorem Item.Shape.text_ne_nil {item : Item} (h : item.Shape) : item.text ≠ [] := by
  cases h with
  | form h => cases h <;> simp
  | unclosed => simp
  | rejected => simp

/-- One item in front of a text that does not extend it. -/
theorem items_text_append {item : Item} {rest : List Char} (hshape : item.Shape)
    (hrest : item.extendedBy rest = false) : items (item.text ++ rest) = item :: items rest := by
  obtain ⟨c, body, htext⟩ := List.exists_cons_of_ne_nil hshape.text_ne_nil
  have happend : item.text ++ rest = c :: (body ++ rest) := by rw [htext, List.cons_append]
  have hcut := Item.cut_eq_iff.2 ⟨hshape, happend, hrest⟩
  rw [happend, items_cons, hcut]

theorem items_joined_append {rest : List Char} {found : List Item} (h : Fits rest found) :
    items (joined found ++ rest) = found ++ items rest := by
  induction h with
  | nil => rfl
  | cons hshape hrest _ ih =>
    rw [joined_cons, List.append_assoc, items_text_append hshape hrest, ih, List.cons_append]

theorem fits_items (text : List Char) : Fits [] (items text) := by
  induction h : text.length using Nat.strongRecOn generalizing text with
  | _ n ih =>
    subst h
    cases text with
    | nil =>
      rw [items_nil]
      exact .nil
    | cons c rest =>
      have hextended := Item.extendedBy_cut c rest
      rw [items_cons]
      refine .cons (Item.shape_cut c rest) ?_ (ih _ (Item.length_cut_lt c rest) _ rfl)
      rwa [joined_items, List.append_nil]

theorem items_joined_iff {found : List Item} : items (joined found) = found ↔ Fits [] found := by
  constructor
  · intro h
    rw [← h]
    exact fits_items _
  · intro h
    simpa using items_joined_append h

theorem fits_cons_iff {rest : List Char} {item : Item} {found : List Item} :
    Fits rest (item :: found) ↔
      item.Shape ∧ item.extendedBy (joined found ++ rest) = false ∧ Fits rest found := by
  constructor
  · intro h
    cases h with
    | cons hshape hrest hfound => exact ⟨hshape, hrest, hfound⟩
  · rintro ⟨hshape, hrest, hfound⟩
    exact .cons hshape hrest hfound

theorem fits_append {rest : List Char} {first second : List Item} :
    Fits rest (first ++ second) ↔ Fits (joined second ++ rest) first ∧ Fits rest second := by
  induction first with
  | nil => exact ⟨fun h => ⟨.nil, h⟩, fun h => h.2⟩
  | cons item first ih =>
    rw [List.cons_append, fits_cons_iff, fits_cons_iff, ih, joined_append, List.append_assoc,
      and_assoc, and_assoc]

theorem Fits.shape {rest : List Char} {found : List Item} (h : Fits rest found) :
    ∀ item ∈ found, item.Shape := by
  induction h with
  | nil => simp
  | cons hshape _ _ ih => exact List.forall_mem_cons.2 ⟨hshape, ih⟩

theorem shape_of_mem_items {text : List Char} : ∀ item ∈ items text, item.Shape :=
  (fits_items text).shape

/-- Items still fit in front of another text if it extends none of them. -/
theorem Fits.replace {rest other : List Char} {found : List Item} (h : Fits rest found)
    (hother : ∀ item ∈ found, ∀ after, item.extendedBy (after ++ rest) = false →
      item.extendedBy (after ++ other) = false) : Fits other found := by
  induction h with
  | nil => exact .nil
  | cons hshape hrest _ ih =>
    obtain ⟨hitem, hfound⟩ := List.forall_mem_cons.1 hother
    exact .cons hshape (hitem _ hrest) (ih hfound)

theorem eq_nil_of_unclosed_mem {text : List Char} {before after : List Item} {item : Item}
    (h : items text = before ++ item :: after) (hkind : item.kind = .unclosed) : after = [] := by
  obtain ⟨-, hitem⟩ := fits_append.1 (h ▸ fits_items text)
  obtain ⟨-, hrest, hafter⟩ := fits_cons_iff.1 hitem
  obtain ⟨kind, body⟩ := item
  obtain rfl : kind = .unclosed := hkind
  have hempty := Item.eq_nil_of_unclosed hrest
  rw [List.append_nil] at hempty
  rw [← items_joined_iff.2 hafter, hempty, items_nil]

end LoxScan
