import LoxScan.Proofs.ItemForm

/-! # The longest match

Cutting a text into items step by step agrees with a description that has no steps: each item is
the longest beginning of the remaining text that has one of the forms of `ItemForm`, and a fault
where no beginning has any form.

* `FirstItem` describes the first item of a text, `LongestMatchCut` the items of a whole text.
* `firstItem_iff` and `longestMatchCut_iff`: cutting finds these items, and there are no others.
-/

namespace LoxScan

/-! ## The description -/

def NoForm (text : List Char) : Prop :=
  ∀ kind other, ItemForm kind other → ¬ other <+: text

/-- The first item of a text: the longest beginning with a form, and else what is wrong there. -/
inductive FirstItem (text : List Char) : Item → Prop
  | longest {kind : ItemKind} {found : List Char} (hform : ItemForm kind found)
      (hbegins : found <+: text)
      (hlongest : ∀ kind' other, ItemForm kind' other → other <+: text →
        other.length ≤ found.length) : FirstItem text ⟨kind, found⟩
  | unclosed (hnone : NoForm text) (hhead : text.head? = some '"') :
      FirstItem text ⟨.unclosed, text⟩
  | rejected {c : Char} (hnone : NoForm text) (hhead : text.head? = some c) (hc : c ≠ '"') :
      FirstItem text ⟨.rejected c, [c]⟩

/-- The items of a text, none of them empty, each of them the first item of the text that is left
    after the ones before it. -/
inductive LongestMatchCut : List Char → List Item → Prop
  | nil : LongestMatchCut [] []
  | cons {item : Item} {rest : List Char} {found : List Item} (hne : item.text ≠ [])
      (hfirst : FirstItem (item.text ++ rest) item) (hrest : LongestMatchCut rest found) :
      LongestMatchCut (item.text ++ rest) (item :: found)

/-! ## Forms and cutting -/

namespace ItemForm

theorem exists_cons {kind : ItemKind} {text : List Char} (h : ItemForm kind text) :
    ∃ c after, text = c :: after := by
  cases h <;> exact ⟨_, _, rfl⟩

theorem cut_self {kind : ItemKind} {c : Char} {after : List Char} (h : ItemForm kind (c :: after)) :
    Item.cut c after = (⟨kind, c :: after⟩, []) :=
  Item.cut_of_form h (Item.extendedBy_nil _) (List.append_nil _)

theorem kind_unique {kind kind' : ItemKind} {text : List Char} (h : ItemForm kind text)
    (h' : ItemForm kind' text) : kind = kind' := by
  obtain ⟨c, after, rfl⟩ := h.exists_cons
  have hcut := h.cut_self.symm.trans h'.cut_self
  simp only [Prod.mk.injEq, Item.mk.injEq, and_true] at hcut
  exact hcut

/-- A text with a form that begins with a quote holds a second one. -/
theorem quote_mem {kind : ItemKind} {after : List Char} (h : ItemForm kind ('"' :: after)) :
    '"' ∈ after := by
  by_contra hmem
  have hcut : Item.cut '"' after = (⟨.unclosed, '"' :: after⟩, []) :=
    Item.cut_of_shape (.unclosed hmem) (Item.extendedBy_nil _) (List.append_nil _)
  rw [h.cut_self] at hcut
  cases hcut
  cases h

/-- No text with a form begins with a foreign character. -/
theorem role_ne_foreign {kind : ItemKind} {c : Char} {after : List Char}
    (h : ItemForm kind (c :: after)) : CharRole.of c ≠ .foreign := by
  intro hrole
  have hcut : Item.cut c after = (⟨.rejected c, [c]⟩, after) :=
    Item.cut_of_shape (.rejected hrole) rfl rfl
  rw [h.cut_self] at hcut
  cases hcut
  cases h

/-- The item cut off a text is at least as long as a beginning of it that has a form. -/
theorem length_le_cut {kind : ItemKind} {c : Char} {after : List Char}
    (h : ItemForm kind (c :: after)) (rest : List Char) :
    (c :: after).length ≤ (Item.cut c (after ++ rest)).1.text.length := by
  have hpos := List.length_pos_iff.2 (Item.cut_text_ne_nil c (after ++ rest))
  -- The runs of the text may go on in what follows, but none of them ends earlier.
  cases h with
  | blank | lineFeed | symbol | slash | alone => exact hpos
  | @comment body h =>
    have hcut : Item.cut '/' ('/' :: body ++ rest) = Item.cutSlash '/' ('/' :: (body ++ rest)) := rfl
    rw [hcut, Item.cutSlash, List.takeWhile_append_of_pos (forall_bne_of_not_mem h)]
    simp
  | pair h => simp [Item.cut, CharRole.of_comparison h, Item.cutComparison]
  | @string body h =>
    have hcut : Item.cut '"' (body ++ ['"'] ++ rest) = Item.cutString '"' (body ++ '"' :: rest) := by
      rw [List.append_assoc]
      rfl
    rw [hcut, Item.cutString_string h]
  | whole hd hdigits =>
    have hcut : Item.cut c (after ++ rest) = Item.cutNumber c (after ++ rest) := by
      simp [Item.cut, CharRole.of_digit hd]
    have hrun : (after ++ rest).takeWhile Char.isDigit = after ++ rest.takeWhile Char.isDigit :=
      List.takeWhile_append_of_pos hdigits
    rw [hcut]
    rw [Item.cutNumber]
    split
    · split
      · simp only [hrun, List.length_append, List.length_cons]
        omega
      · simp [hrun, Nat.add_assoc]
    · simp [hrun]
  | @fraction _ e digits part hd hdigits he hpart =>
    have hcut : Item.cut c (digits ++ '.' :: e :: part ++ rest)
        = Item.cutNumber c (digits ++ '.' :: e :: (part ++ rest)) := by
      simp [Item.cut, CharRole.of_digit hd]
    rw [hcut, Item.cutNumber, takeWhile_run hdigits rfl, dropWhile_run hdigits rfl]
    simp [he, List.takeWhile_append_of_pos hpart]
  | word hc hword =>
    simp [Item.cut, CharRole.of_wordStart hc, Item.cutWord, List.takeWhile_append_of_pos hword]

end ItemForm

/-! ## The first item -/

section FirstItem

variable {kind : ItemKind} {other after rest : List Char} {c : Char} {item : Item}

theorem length_le_of_cut (hcut : Item.cut c after = (item, rest)) (hform : ItemForm kind other)
    (hbegins : other <+: c :: after) : other.length ≤ item.text.length := by
  obtain ⟨d, body, rfl⟩ := hform.exists_cons
  obtain ⟨tail, happend⟩ := hbegins
  obtain ⟨rfl, rfl⟩ := List.cons.inj happend
  calc (d :: body).length ≤ (Item.cut d (body ++ tail)).1.text.length := hform.length_le_cut tail
    _ = item.text.length := congrArg (·.1.text.length) hcut

theorem itemForm_of_cut (hcut : Item.cut c after = (item, rest)) (hform : ItemForm kind other)
    (hbegins : other <+: c :: after) : ItemForm item.kind item.text := by
  obtain ⟨hshape, happend, hrest⟩ := Item.cut_eq_iff.1 hcut
  obtain ⟨d, body, rfl⟩ := hform.exists_cons
  obtain ⟨rfl, hbody⟩ := List.cons_prefix_cons.1 hbegins
  cases hshape with
  | form h => exact h
  | unclosed h =>
    obtain ⟨rfl, rfl⟩ := List.cons.inj happend
    obtain rfl := Item.eq_nil_of_unclosed hrest
    have hmem := hbody.subset hform.quote_mem
    rw [List.append_eq, List.append_nil] at hmem
    exact absurd hmem h
  | rejected h =>
    obtain ⟨rfl, -⟩ := List.cons.inj happend
    exact absurd h hform.role_ne_foreign

theorem firstItem_of_cut (hcut : Item.cut c after = (item, rest)) :
    FirstItem (c :: after) item := by
  obtain ⟨hshape, happend, hrest⟩ := Item.cut_eq_iff.1 hcut
  have hnone : (∀ text, ¬ ItemForm item.kind text) → NoForm (c :: after) :=
    fun h kind other hform hbegins => h _ (itemForm_of_cut hcut hform hbegins)
  rw [← happend]
  rw [← happend] at hnone
  cases hshape with
  | form h =>
    refine .longest h (List.prefix_append _ _) fun kind' other hform hbegins => ?_
    rw [happend] at hbegins
    exact length_le_of_cut hcut hform hbegins
  | unclosed h =>
    obtain rfl := Item.eq_nil_of_unclosed hrest
    rw [List.append_nil] at hnone ⊢
    exact .unclosed (hnone fun text hform => by cases hform) rfl
  | rejected h =>
    refine .rejected (hnone fun text hform => by cases hform) rfl ?_
    rintro rfl
    exact absurd h (by decide)

theorem firstItem_unique (hcut : Item.cut c after = (item, rest)) {first : Item}
    (hfirst : FirstItem (c :: after) first) : first = item := by
  obtain ⟨hshape, happend, hrest⟩ := Item.cut_eq_iff.1 hcut
  have hbegins : item.text <+: c :: after := ⟨rest, happend⟩
  cases hfirst with
  | @longest kind found hform hfound hlongest =>
    have hitem := itemForm_of_cut hcut hform hfound
    have hlength : found.length = item.text.length :=
      Nat.le_antisymm (length_le_of_cut hcut hform hfound) (hlongest _ _ hitem hbegins)
    have htext : found = item.text :=
      (List.prefix_of_prefix_length_le hfound hbegins hlength.le).eq_of_length hlength
    subst htext
    rw [hform.kind_unique hitem]
  | unclosed hnone hhead =>
    obtain rfl : c = '"' := by simpa using hhead
    cases hshape with
    | form h => exact absurd hbegins (hnone _ _ h)
    | unclosed h =>
      obtain rfl := Item.eq_nil_of_unclosed hrest
      rw [← happend, List.append_nil]
    | rejected h =>
      obtain ⟨rfl, -⟩ := List.cons.inj happend
      exact absurd h (by decide)
  | @rejected d hnone hhead hd =>
    obtain rfl : c = d := by simpa using hhead
    cases hshape with
    | form h => exact absurd hbegins (hnone _ _ h)
    | unclosed h => exact absurd (List.cons.inj happend).1.symm hd
    | rejected h => rw [(List.cons.inj happend).1]

theorem firstItem_iff {c : Char} {after : List Char} {item : Item} :
    FirstItem (c :: after) item ↔ item = (Item.cut c after).1 :=
  ⟨fun h => firstItem_unique rfl h, fun h => h ▸ firstItem_of_cut rfl⟩

end FirstItem

/-! ## All items -/

/-- The items of a text are exactly those of its longest match cut. -/
theorem longestMatchCut_iff {text : List Char} {found : List Item} :
    LongestMatchCut text found ↔ found = items text := by
  constructor
  · intro h
    induction h with
    | nil => exact items_nil.symm
    | @cons item rest found hne hfirst _ ih =>
      obtain ⟨c, body, hbody⟩ := List.exists_cons_of_ne_nil hne
      have htext : item.text ++ rest = c :: (body ++ rest) := by rw [hbody, List.cons_append]
      rw [htext] at hfirst ⊢
      have hitem := firstItem_iff.1 hfirst
      have hrest : (Item.cut c (body ++ rest)).2 = rest := by
        have happend := Item.cut_append c (body ++ rest)
        rw [← hitem, ← htext] at happend
        exact List.append_cancel_left happend
      rw [items_cons, ← hitem, hrest, ih]
  · rintro rfl
    -- By the length of the text: what is left after an item is shorter.
    induction h : text.length using Nat.strongRecOn generalizing text with
    | _ n ih =>
      subst h
      cases text with
      | nil =>
        rw [items_nil]
        exact .nil
      | cons c after =>
        have hrest := ih _ (Item.length_cut_lt c after) rfl
        have hfirst := firstItem_iff.2 (rfl : (Item.cut c after).1 = _)
        rw [items_cons]
        have hcut := LongestMatchCut.cons (Item.cut_text_ne_nil c after)
          (by rwa [Item.cut_append]) hrest
        rwa [Item.cut_append] at hcut

end LoxScan
