import LoxScan.Proofs.CharRole
import Mathlib.Data.List.TakeWhile

/-! # Forms of items

Which texts can be an item, and where an item ends.

* `ItemForm` lists the texts of every kind of item that is lexically correct; `Item.Shape` adds the
  two faults.
* `Item.extendedBy` says whether the text after an item would make it longer.
* `Item.cut_eq_iff` is the whole meaning of cutting: the first item of a text is the one that the
  text begins with and that the rest does not extend.
-/

namespace LoxScan

/-! ## Runs of characters -/

section Runs

variable {α : Type} {p : α → Bool} {run rest : List α}

theorem head?_dropWhile_any (p : α → Bool) (text : List α) :
    (text.dropWhile p).head?.any p = false := by
  have h := List.head?_dropWhile_not p text
  cases hd : (text.dropWhile p).head? with
  | none => rfl
  | some x =>
    rw [hd] at h
    simpa using h

/-- A run ends exactly where a character stands that does not belong to it. -/
theorem takeWhile_run (hrun : ∀ x ∈ run, p x = true) (hrest : rest.head?.any p = false) :
    (run ++ rest).takeWhile p = run := by
  rw [List.takeWhile_append_of_pos hrun]
  cases rest with
  | nil => simp
  | cons x rest => simpa using hrest

theorem dropWhile_run (hrun : ∀ x ∈ run, p x = true) (hrest : rest.head?.any p = false) :
    (run ++ rest).dropWhile p = rest := by
  rw [List.dropWhile_append_of_pos hrun]
  cases rest with
  | nil => rfl
  | cons x rest =>
    rw [List.dropWhile_cons_of_neg]
    simpa using hrest

theorem forall_bne_of_not_mem {text : List Char} {c : Char} (h : c ∉ text) :
    ∀ x ∈ text, (x != c) = true := by
  intro x hx
  rw [bne_iff_ne]
  rintro rfl
  exact h hx

end Runs

/-! ## Forms -/

/-- The texts of the items of each kind that is lexically correct. -/
inductive ItemForm : ItemKind → List Char → Prop
  | blank {c : Char} (h : isBlank c = true) : ItemForm .blank [c]
  | lineFeed : ItemForm .lineFeed ['\n']
  | comment {body : List Char} (h : '\n' ∉ body) : ItemForm .comment ('/' :: '/' :: body)
  | symbol {c : Char} {kind : TokenKind} (h : TokenKind.ofSymbol? c = some kind) :
      ItemForm (.token kind) [c]
  | slash : ItemForm (.token .slash) ['/']
  | alone {c : Char} {alone pair : TokenKind} (h : TokenKind.comparison? c = some (alone, pair)) :
      ItemForm (.token alone) [c]
  | pair {c : Char} {alone pair : TokenKind} (h : TokenKind.comparison? c = some (alone, pair)) :
      ItemForm (.token pair) [c, '=']
  | string {body : List Char} (h : '"' ∉ body) :
      ItemForm (.token .string) ('"' :: (body ++ ['"']))
  | whole {d : Char} {digits : List Char} (hd : d.isDigit = true)
      (hdigits : ∀ x ∈ digits, x.isDigit = true) : ItemForm (.token .number) (d :: digits)
  | fraction {d e : Char} {digits part : List Char} (hd : d.isDigit = true)
      (hdigits : ∀ x ∈ digits, x.isDigit = true) (he : e.isDigit = true)
      (hpart : ∀ x ∈ part, x.isDigit = true) :
      ItemForm (.token .number) (d :: (digits ++ '.' :: e :: part))
  | word {c : Char} {rest : List Char} (hc : isWordStart c = true)
      (hrest : ∀ x ∈ rest, isWordPart x = true) :
      ItemForm (.token (.ofWord (String.ofList (c :: rest)))) (c :: rest)

theorem ItemForm.fault?_eq_none {kind : ItemKind} {text : List Char} (h : ItemForm kind text) :
    Item.fault? ⟨kind, text⟩ = none := by
  cases h <;> rfl

theorem countLines_rejected {c : Char} (h : CharRole.of c = .foreign) : countLines [c] = 0 := by
  have hc : c ≠ '\n' := by
    rintro rfl
    exact absurd h (by decide)
  exact countLines_cons_of_ne hc []

namespace Item

/-- What an item may look like: one of the correct forms, or one of the two faults. -/
inductive Shape : Item → Prop
  | form {kind : ItemKind} {text : List Char} (h : ItemForm kind text) : Shape ⟨kind, text⟩
  | unclosed {body : List Char} (h : '"' ∉ body) : Shape ⟨.unclosed, '"' :: body⟩
  | rejected {c : Char} (h : CharRole.of c = .foreign) : Shape ⟨.rejected c, [c]⟩

/-- Whether the text that follows an item would make it longer.  Two characters decide. -/
def extendedBy (item : Item) (rest : List Char) : Bool :=
  match item.kind with
  | .comment => rest.head?.any (· != '\n')
  | .unclosed => rest.head?.any fun _ => true
  | .token .slash => rest.head?.any (· == '/')
  | .token .bang | .token .equal | .token .greater | .token .less => rest.head?.any (· == '=')
  | .token .number =>
    rest.head?.any Char.isDigit ||
      (!item.text.contains '.' && rest.head? == some '.' && rest[1]?.any Char.isDigit)
  | .token .identifier | .token (.keyword _) => rest.head?.any isWordPart
  | _ => false

theorem extendedBy_symbol {c : Char} {kind : TokenKind} (h : TokenKind.ofSymbol? c = some kind)
    (text rest : List Char) : extendedBy ⟨.token kind, text⟩ rest = false := by
  unfold TokenKind.ofSymbol? at h
  split at h
  all_goals cases h
  all_goals rfl

theorem extendedBy_alone {c : Char} {alone pair : TokenKind}
    (h : TokenKind.comparison? c = some (alone, pair)) (text rest : List Char) :
    extendedBy ⟨.token alone, text⟩ rest = rest.head?.any (· == '=') := by
  unfold TokenKind.comparison? at h
  split at h
  all_goals cases h
  all_goals rfl

theorem extendedBy_pair {c : Char} {alone pair : TokenKind}
    (h : TokenKind.comparison? c = some (alone, pair)) (text rest : List Char) :
    extendedBy ⟨.token pair, text⟩ rest = false := by
  unfold TokenKind.comparison? at h
  split at h
  all_goals cases h
  all_goals rfl

theorem extendedBy_word (word : String) (text rest : List Char) :
    extendedBy ⟨.token (.ofWord word), text⟩ rest = rest.head?.any isWordPart := by
  rw [TokenKind.ofWord]
  split
  all_goals rfl

@[simp] theorem extendedBy_nil (item : Item) : item.extendedBy [] = false := by
  rw [extendedBy]
  split <;> simp

theorem eq_nil_of_unclosed {text rest : List Char}
    (h : extendedBy ⟨.unclosed, text⟩ rest = false) : rest = [] := by
  simpa [extendedBy] using h

theorem extendedBy_congr (item : Item) {rest other : List Char} (h : rest.take 2 = other.take 2) :
    item.extendedBy rest = item.extendedBy other := by
  have hget : ∀ i, i < 2 → rest[i]? = other[i]? := by
    intro i hi
    rw [← List.getElem?_take_of_lt hi, h, List.getElem?_take_of_lt hi]
  have hhead : rest.head? = other.head? := by
    rw [List.head?_eq_getElem?, List.head?_eq_getElem?, hget 0 (by omega)]
  unfold extendedBy
  rw [hhead, hget 1 (by omega)]

/-- Behind the next character it matters only whether a digit follows. -/
theorem extendedBy_cons {item : Item} {c : Char} {rest other : List Char}
    (h : item.extendedBy (c :: rest) = false)
    (hdigit : rest.head?.any Char.isDigit = false → other.head?.any Char.isDigit = false) :
    item.extendedBy (c :: other) = false := by
  unfold extendedBy at h ⊢
  split <;> simp_all [List.head?_eq_getElem?]

/-! ## The first item of a text -/

theorem shape_cutComparison {c : Char} {alone pair : TokenKind}
    (h : TokenKind.comparison? c = some (alone, pair)) (rest : List Char) :
    (cutComparison c alone pair rest).1.Shape := by
  unfold cutComparison
  split
  · exact .form (.pair h)
  · exact .form (.alone h)

theorem shape_cutSlash (rest : List Char) : (cutSlash '/' rest).1.Shape := by
  unfold cutSlash
  split
  · refine .form (.comment fun hmem => ?_)
    simpa using List.mem_takeWhile_imp hmem
  · exact .form .slash

theorem shape_cutString (rest : List Char) : (cutString '"' rest).1.Shape := by
  rw [cutString]
  split
  case h_1 hd =>
    refine .unclosed fun hmem => ?_
    simpa using List.dropWhile_eq_nil_iff.1 hd _ hmem
  case h_2 quote after hd =>
    obtain rfl : quote = '"' := by
      simpa [hd] using List.head?_dropWhile_not (· != '"') rest
    refine .form (.string fun hmem => ?_)
    simpa using List.mem_takeWhile_imp hmem

theorem shape_cutNumber {c : Char} (h : c.isDigit = true) (rest : List Char) :
    (cutNumber c rest).1.Shape := by
  have hwhole : ∀ x ∈ rest.takeWhile Char.isDigit, x.isDigit = true :=
    fun x hx => List.mem_takeWhile_imp hx
  rw [cutNumber]
  split
  · split
    case isTrue hd => exact .form (.fraction h hwhole hd fun x hx => List.mem_takeWhile_imp hx)
    case isFalse => exact .form (.whole h hwhole)
  · exact .form (.whole h hwhole)

theorem shape_cut (c : Char) (rest : List Char) : (cut c rest).1.Shape := by
  have hrole := CharRole.describes_of c
  -- One case for each role, with what the role says about `c`.
  rw [cut]
  split <;> rename_i heq <;> rw [heq] at hrole
  · exact .form (.symbol hrole)
  · exact shape_cutComparison hrole rest
  · cases hrole
    exact shape_cutSlash rest
  · exact .form (.blank hrole)
  · cases hrole
    exact .form .lineFeed
  · cases hrole
    exact shape_cutString rest
  · exact shape_cutNumber hrole rest
  · exact .form (.word hrole fun x hx => List.mem_takeWhile_imp hx)
  · exact .rejected heq

theorem extendedBy_cutComparison {c : Char} {alone pair : TokenKind}
    (h : TokenKind.comparison? c = some (alone, pair)) (rest : List Char) :
    (cutComparison c alone pair rest).1.extendedBy (cutComparison c alone pair rest).2 = false := by
  unfold cutComparison
  split
  case h_1 => exact extendedBy_pair h _ _
  case h_2 hne =>
    rw [extendedBy_alone h]
    cases rest with
    | nil => rfl
    | cons d rest =>
      have hd : d ≠ '=' := fun hd => hne rest (by rw [hd])
      simpa using hd

theorem extendedBy_cutSlash (c : Char) (rest : List Char) :
    (cutSlash c rest).1.extendedBy (cutSlash c rest).2 = false := by
  unfold cutSlash
  split
  case h_1 => exact head?_dropWhile_any _ _
  case h_2 hne =>
    cases rest with
    | nil => rfl
    | cons d rest =>
      have hd : d ≠ '/' := fun hd => hne rest (by rw [hd])
      simpa [extendedBy] using hd

theorem extendedBy_cutString (c : Char) (rest : List Char) :
    (cutString c rest).1.extendedBy (cutString c rest).2 = false := by
  rw [cutString]
  split <;> rfl

theorem not_dot_mem_of_digits {digits : List Char} (h : ∀ x ∈ digits, x.isDigit = true) :
    '.' ∉ digits :=
  fun hmem => absurd (h _ hmem) (by decide)

theorem extendedBy_cutNumber (c : Char) (rest : List Char) :
    (cutNumber c rest).1.extendedBy (cutNumber c rest).2 = false := by
  have hhead := head?_dropWhile_any Char.isDigit rest
  rw [cutNumber]
  split
  case h_1 d after hd =>
    rw [hd] at hhead
    split
    case isTrue => simp [extendedBy, head?_dropWhile_any]
    case isFalse hdigit => simp [extendedBy, hdigit]
  case h_2 hne =>
    simp only [extendedBy, hhead, Bool.false_or]
    cases hdrop : rest.dropWhile Char.isDigit with
    | nil => simp
    | cons d after =>
      cases after with
      | nil => simp
      | cons e after =>
        have hd : d ≠ '.' := fun hd => hne e after (by rw [hdrop, hd])
        simp [hd]

theorem extendedBy_cut (c : Char) (rest : List Char) :
    (cut c rest).1.extendedBy (cut c rest).2 = false := by
  have hrole := CharRole.describes_of c
  rw [cut]
  split <;> rename_i heq <;> rw [heq] at hrole
  · exact extendedBy_symbol hrole _ _
  · exact extendedBy_cutComparison hrole rest
  · exact extendedBy_cutSlash c rest
  · rfl
  · rfl
  · exact extendedBy_cutString c rest
  · exact extendedBy_cutNumber c rest
  · rw [cutWord, extendedBy_word]
    exact head?_dropWhile_any _ _
  · rfl

/-! ## Cutting off a given item -/

theorem cutNumber_whole {c : Char} {digits rest : List Char} (hc : c.isDigit = true)
    (hdigits : ∀ x ∈ digits, x.isDigit = true)
    (hrest : extendedBy ⟨.token .number, c :: digits⟩ rest = false) :
    cutNumber c (digits ++ rest) = (⟨.token .number, c :: digits⟩, rest) := by
  have hdot : '.' ∉ c :: digits := not_dot_mem_of_digits (List.forall_mem_cons.2 ⟨hc, hdigits⟩)
  simp only [extendedBy, List.contains_eq_mem, hdot, decide_false, Bool.not_false, Bool.true_and,
    Bool.or_eq_false_iff] at hrest
  obtain ⟨hhead, hfraction⟩ := hrest
  rw [cutNumber]
  rw [takeWhile_run hdigits hhead, dropWhile_run hdigits hhead]
  split
  case h_1 d after =>
    have hd : d.isDigit = false := by simpa using hfraction
    simp [hd]
  case h_2 => rfl

theorem cutNumber_fraction {c d : Char} {digits part rest : List Char}
    (hdigits : ∀ x ∈ digits, x.isDigit = true) (hd : d.isDigit = true)
    (hpart : ∀ x ∈ part, x.isDigit = true) (hrest : rest.head?.any Char.isDigit = false) :
    cutNumber c (digits ++ '.' :: d :: (part ++ rest)) =
      (⟨.token .number, c :: (digits ++ '.' :: d :: part)⟩, rest) := by
  rw [cutNumber]
  rw [takeWhile_run hdigits rfl, dropWhile_run hdigits rfl]
  simp [hd, takeWhile_run hpart hrest, dropWhile_run hpart hrest]

theorem cutSlash_slash {rest : List Char} (hrest : extendedBy ⟨.token .slash, ['/']⟩ rest = false) :
    cutSlash '/' rest = (⟨.token .slash, ['/']⟩, rest) := by
  unfold cutSlash
  split
  · simp [extendedBy] at hrest
  · rfl

theorem cutSlash_comment {body rest : List Char} (h : '\n' ∉ body)
    (hrest : extendedBy ⟨.comment, '/' :: '/' :: body⟩ rest = false) :
    cutSlash '/' ('/' :: (body ++ rest)) = (⟨.comment, '/' :: '/' :: body⟩, rest) := by
  have hrun := forall_bne_of_not_mem h
  rw [cutSlash, takeWhile_run hrun hrest, dropWhile_run hrun hrest]

theorem cutComparison_alone {c : Char} {alone pair : TokenKind} {rest : List Char}
    (hrest : rest.head?.any (· == '=') = false) :
    cutComparison c alone pair rest = (⟨.token alone, [c]⟩, rest) := by
  unfold cutComparison
  split
  · simp at hrest
  · rfl

theorem cutString_string {body : List Char} (h : '"' ∉ body) (rest : List Char) :
    cutString '"' (body ++ '"' :: rest) =
      (⟨.token .string, '"' :: (body ++ ['"'])⟩, rest) := by
  have hrun := forall_bne_of_not_mem h
  rw [cutString]
  rw [takeWhile_run hrun rfl, dropWhile_run hrun rfl]

theorem cutString_unclosed {body rest : List Char} (h : '"' ∉ body)
    (hrest : extendedBy ⟨.unclosed, '"' :: body⟩ rest = false) :
    cutString '"' (body ++ rest) = (⟨.unclosed, '"' :: body⟩, rest) := by
  have hrun := forall_bne_of_not_mem h
  obtain rfl := eq_nil_of_unclosed hrest
  rw [cutString]
  rw [dropWhile_run hrun rfl, List.append_nil]

theorem cut_of_form {kind : ItemKind} {text rest after : List Char} {c : Char}
    (hform : ItemForm kind text) (hrest : extendedBy ⟨kind, text⟩ rest = false)
    (happend : text ++ rest = c :: after) : cut c after = (⟨kind, text⟩, rest) := by
  cases hform
  all_goals obtain ⟨rfl, rfl⟩ := List.cons.inj happend
  case blank h => simp [cut, CharRole.of_blank h]
  case lineFeed => rfl
  case comment h => exact cutSlash_comment h hrest
  case symbol h => simp [cut, CharRole.of_symbol h]
  case slash => exact cutSlash_slash hrest
  case alone h =>
    rw [extendedBy_alone h] at hrest
    simpa [cut, CharRole.of_comparison h] using cutComparison_alone hrest
  case pair h => simp [cut, CharRole.of_comparison h, cutComparison]
  case string h =>
    have hrole : CharRole.of '"' = .quote := rfl
    simpa [cut, hrole] using cutString_string h rest
  case whole hd hdigits =>
    simpa [cut, CharRole.of_digit hd] using cutNumber_whole hd hdigits hrest
  case fraction hd hdigits he hpart =>
    have hhead : rest.head?.any Char.isDigit = false := (Bool.or_eq_false_iff.1 hrest).1
    simpa [cut, CharRole.of_digit hd] using cutNumber_fraction hdigits he hpart hhead
  case word hc hword =>
    rw [extendedBy_word] at hrest
    simp [cut, cutWord, CharRole.of_wordStart hc, takeWhile_run hword hrest,
      dropWhile_run hword hrest]

/-- An item is cut off where the text after it does not extend it. -/
theorem cut_of_shape {item : Item} {rest after : List Char} {c : Char} (hshape : item.Shape)
    (hrest : item.extendedBy rest = false) (happend : item.text ++ rest = c :: after) :
    cut c after = (item, rest) := by
  cases hshape with
  | form hform => exact cut_of_form hform hrest happend
  | unclosed h =>
    obtain ⟨rfl, rfl⟩ := List.cons.inj happend
    exact cutString_unclosed h hrest
  | rejected h =>
    obtain ⟨rfl, rfl⟩ := List.cons.inj happend
    simp [cut, h]

/-- The first item of a text is the item that the text begins with and that the rest of the text
    does not extend. -/
theorem cut_eq_iff {c : Char} {after rest : List Char} {item : Item} :
    cut c after = (item, rest) ↔
      item.Shape ∧ item.text ++ rest = c :: after ∧ item.extendedBy rest = false := by
  constructor
  · intro h
    have hshape := shape_cut c after
    have happend := cut_append c after
    have hrest := extendedBy_cut c after
    rw [h] at hshape happend hrest
    exact ⟨hshape, happend, hrest⟩
  · rintro ⟨hshape, happend, hrest⟩
    exact cut_of_shape hshape hrest happend

end Item

end LoxScan
