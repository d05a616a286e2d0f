import LoxScan.Diagnostic
import LoxScan.Text.LineEnding
import LoxScan.Token

/-! # Items of a source text

A source text falls into *items*, one after the other: blanks, line feeds, comments, tokens, and
what is lexically wrong.  Each item is the longest text from its place on that can be one.

* `CharRole` says what a character does at the beginning of an item.
* `Item.cut` takes the first item off a text that is not empty.
* `items` cuts a whole text up; `items_nil` and `items_cons` are its equations.
* `Item.token?` and `Item.fault?` are what an item gives to the result of a scan.

The main facts are that cutting loses nothing (`Item.cut_append`, `flatten_items`) and that no item
is empty (`Item.cut_text_ne_nil`).
-/

namespace LoxScan

/-! ## Characters -/

/-- What a character does where a new item begins. -/
inductive CharRole where
  | symbol (kind : TokenKind)
  /-- It is a token, and another one together with a following `=`. -/
  | comparison (alone pair : TokenKind)
  | slash
  | blank
  | lineFeed
  | quote
  | digit
  | wordStart
  /-- It belongs to no item but strings and comments. -/
  | foreign
deriving DecidableEq, Repr

def isWordStart (c : Char) : Bool :=
  c.isAlpha || c == '_'

def isWordPart (c : Char) : Bool :=
  c.isAlphanum || c == '_'

/-- Spaces, tabs and carriage returns only separate items. -/
def isBlank (c : Char) : Bool :=
  c == ' ' || c == '\r' || c == '\t'

/-- The role of a character; no character has two. -/
def CharRole.of (c : Char) : CharRole :=
  match TokenKind.ofSymbol? c with
  | some kind => symbol kind
  | none =>
    match TokenKind.comparison? c with
    | some (alone, pair) => comparison alone pair
    | none =>
      if c == '/' then slash
      else if isBlank c then blank
      else if c == '\n' then lineFeed
      else if c == '"' then quote
      else if c.isDigit then digit
      else if isWordStart c then wordStart
      else foreign

/-! ## Items -/

inductive ItemKind where
  | blank
  | lineFeed
  | comment
  | token (kind : TokenKind)
  /-- A quote with all the text after it, which holds no second quote. -/
  | unclosed
  | rejected (c : Char)
deriving DecidableEq, Repr

structure Item where
  kind : ItemKind
  text : List Char
deriving DecidableEq, Repr

namespace Item

/-- An operator, after its first character. -/
def cutComparison (c : Char) (alone pair : TokenKind) : List Char → Item × List Char
  | '=' :: rest => (⟨.token pair, [c, '=']⟩, rest)
  | rest => (⟨.token alone, [c]⟩, rest)

/-- A comment or a slash, after the first slash.  The line feed after a comment is not part of
    it. -/
def cutSlash (c : Char) : List Char → Item × List Char
  | '/' :: rest => (⟨.comment, c :: '/' :: rest.takeWhile (· != '\n')⟩, rest.dropWhile (· != '\n'))
  | rest => (⟨.token .slash, [c]⟩, rest)

def cutString (c : Char) (rest : List Char) : Item × List Char :=
  match rest.dropWhile (· != '"') with
  | [] => (⟨.unclosed, c :: rest⟩, [])
  | quote :: after => (⟨.token .string, c :: (rest.takeWhile (· != '"') ++ [quote])⟩, after)

/-- A number, after its first digit.  A dot belongs to it only if a digit follows. -/
def cutNumber (c : Char) (rest : List Char) : Item × List Char :=
  let whole := c :: rest.takeWhile Char.isDigit
  match rest.dropWhile Char.isDigit with
  | '.' :: d :: after =>
    if d.isDigit then
      (⟨.token .number, whole ++ '.' :: d :: after.takeWhile Char.isDigit⟩,
        after.dropWhile Char.isDigit)
    else (⟨.token .number, whole⟩, '.' :: d :: after)
  | after => (⟨.token .number, whole⟩, after)

/-- A word, after its first letter.  The whole word decides whether it is reserved. -/
def cutWord (c : Char) (rest : List Char) : Item × List Char :=
  let word := c :: rest.takeWhile isWordPart
  (⟨.token (.ofWord (String.ofList word)), word⟩, rest.dropWhile isWordPart)

/-- The first item of a text, given by its first character and the others, and the text after
    the item. -/
def cut (c : Char) (rest : List Char) : Item × List Char :=
  match CharRole.of c with
  | .symbol kind => (⟨.token kind, [c]⟩, rest)
  | .comparison alone pair => cutComparison c alone pair rest
  | .slash => cutSlash c rest
  | .blank => (⟨.blank, [c]⟩, rest)
  | .lineFeed => (⟨.lineFeed, [c]⟩, rest)
  | .quote => cutString c rest
  | .digit => cutNumber c rest
  | .wordStart => cutWord c rest
  | .foreign => (⟨.rejected c, [c]⟩, rest)

/-! ## Cutting loses nothing -/

theorem cutComparison_append (c : Char) (alone pair : TokenKind) (rest : List Char) :
    (cutComparison c alone pair rest).1.text ++ (cutComparison c alone pair rest).2
      = c :: rest := by
  unfold cutComparison
  split <;> rfl

theorem cutSlash_append (c : Char) (rest : List Char) :
    (cutSlash c rest).1.text ++ (cutSlash c rest).2 = c :: rest := by
  unfold cutSlash
  split <;> simp

theorem cutString_append (c : Char) (rest : List Char) :
    (cutString c rest).1.text ++ (cutString c rest).2 = c :: rest := by
  unfold cutString
  split
  · simp
  · rename_i quote after h
    simp [← h]

theorem cutNumber_append (c : Char) (rest : List Char) :
    (cutNumber c rest).1.text ++ (cutNumber c rest).2 = c :: rest := by
  have h := List.takeWhile_append_dropWhile (p := Char.isDigit) (l := rest)
  unfold cutNumber
  split
  · rename_i d after hd
    split <;> simp [← hd]
  · simp

theorem cutWord_append (c : Char) (rest : List Char) :
    (cutWord c rest).1.text ++ (cutWord c rest).2 = c :: rest := by
  simp [cutWord]

theorem cut_append (c : Char) (rest : List Char) :
    (cut c rest).1.text ++ (cut c rest).2 = c :: rest := by
  unfold cut
  split
  · rfl
  · exact cutComparison_append _ _ _ _
  · exact cutSlash_append _ _
  · rfl
  · rfl
  · exact cutString_append _ _
  · exact cutNumber_append _ _
  · exact cutWord_append _ _
  · rfl

theorem cut_text_ne_nil (c : Char) (rest : List Char) : (cut c rest).1.text ≠ [] := by
  unfold cut cutComparison cutSlash cutString cutNumber cutWord
  repeat' split
  all_goals simp

theorem length_cut_lt (c : Char) (rest : List Char) :
    (cut c rest).2.length < (c :: rest).length := by
  have h := congrArg List.length (cut_append c rest)
  have := List.length_pos_iff.2 (cut_text_ne_nil c rest)
  rw [List.length_append] at h
  omega

end Item

/-! ## Cutting a whole text -/

def collectItems (found : Array Item) : List Char → Array Item
  | [] => found
  | c :: rest => collectItems (found.push (Item.cut c rest).1) (Item.cut c rest).2
termination_by text => text.length
decreasing_by exact Item.length_cut_lt c rest

def items (text : List Char) : List Item :=
  (collectItems #[] text).toList

theorem toList_collectItems (found : Array Item) (text : List Char) :
    (collectItems found text).toList = found.toList ++ items text := by
  unfold items
  induction h : text.length using Nat.strongRecOn generalizing found text with
  | _ n ih =>
    subst h
    cases text with
    | nil => simp [collectItems]
    | cons c rest =>
      rw [collectItems, collectItems, ih _ (Item.length_cut_lt c rest) _ _ rfl,
        ih _ (Item.length_cut_lt c rest) (#[].push (Item.cut c rest).1) _ rfl]
      simp

@[simp] theorem items_nil : items [] = [] := by
  simp [items, collectItems]

theorem items_cons (c : Char) (rest : List Char) :
    items (c :: rest) = (Item.cut c rest).1 :: items (Item.cut c rest).2 := by
  conv => lhs; unfold items
  rw [collectItems, toList_collectItems]
  simp

theorem flatten_items (text : List Char) : ((items text).map Item.text).flatten = text := by
  induction h : text.length using Nat.strongRecOn generalizing text with
  | _ n ih =>
    subst h
    cases text with
    | nil => simp
    | cons c rest =>
      rw [items_cons, List.map_cons, List.flatten_cons, ih _ (Item.length_cut_lt c rest) _ rfl,
        Item.cut_append]

/-! ## What an item gives -/

namespace Item

/-- The value of a string is the text between its quotes, that of a number the binary64 number
    nearest to what the numeral denotes. -/
def literal? (item : Item) : Option Literal :=
  match item.kind with
  | .token .string => some (.text (String.ofList (item.text.drop 1).dropLast))
  | .token .number => some (.number (.signed false (Decimal.ofNumeral item.text).nearest))
  | _ => none

def token? (item : Item) (line : Int) : Option Token :=
  match item.kind with
  | .token kind => some ⟨kind, String.ofList item.text, item.literal?, line⟩
  | _ => none

def fault? (item : Item) : Option LexicalFault :=
  match item.kind with
  | .unclosed => some .unterminatedString
  | .rejected c => some (.unexpectedCharacter c)
  | _ => none

/-- An item is at most one of a token and a fault. -/
theorem token?_eq_none_of_fault? {item : Item} {fault : LexicalFault} (h : item.fault? = some fault)
    (line : Int) : item.token? line = none := by
  unfold fault? at h
  unfold token?
  split at h <;> simp_all

end Item

end LoxScan
