import LoxScan.Proofs.Lexeme
import LoxScan.Proofs.Pass
import LoxScan.Proofs.Reader

/-! # Reading by the character

A reader never asks for a character outside of the source, never takes anything but a numeral for a
number, and never goes round for ever.

* `Scanner.beyond` is a scanner some more characters on, which is all that a reader makes of it.
* `Reader.repeatWhile_run` is the one fact about loops over characters.
* `Reader.item_apply`: reading an item by its characters does to the scanner what taking the item at
  the cursor does.
-/

namespace LoxScan

/-! ## The cursor -/

namespace Scanner

variable (s : Scanner)

theorem peek?_eq_head? : s.peek? = s.remaining.head? := by
  simp [peek?, remaining]

theorem peekNext?_eq_getElem? : s.peekNext? = s.remaining[1]? := by
  simp [peekNext?, remaining]

theorem atEnd_iff : s.atEnd = true ↔ s.remaining = [] := by
  simp [atEnd, remaining, String.length_toList]

def beyond (run : List Char) (lines : Nat) : Scanner :=
  { s with current := s.current + run.length, line := s.line + lines }

@[simp] theorem beyond_nil : s.beyond [] 0 = s := by
  simp [beyond]

@[simp] theorem start_beyond (run : List Char) (lines : Nat) :
    (s.beyond run lines).start = s.start := rfl

@[simp] theorem current_beyond (run : List Char) (lines : Nat) :
    (s.beyond run lines).current = s.current + run.length := rfl

@[simp] theorem slice_beyond (run : List Char) (lines : Nat) :
    (s.beyond run lines).slice = s.slice := rfl

theorem beyond_beyond (run more : List Char) (lines extra : Nat) :
    (s.beyond run lines).beyond more extra = s.beyond (run ++ more) (lines + extra) := by
  simp [beyond, Nat.add_assoc, Int.add_assoc]

@[simp] theorem line_beyond_zero (run : List Char) : (s.beyond run 0).line = s.line := by
  simp [beyond]

variable {s} {run rest : List Char} {c : Char}

theorem remaining_beyond (h : s.remaining = run ++ rest) (lines : Nat) :
    (s.beyond run lines).remaining = rest := by
  simp only [remaining, beyond] at h ⊢
  rw [← List.drop_drop, h, List.drop_left]

theorem left_beyond_lt (h : s.remaining = c :: rest) (lines : Nat) :
    (s.beyond [c] lines).left < s.left := by
  have hrest : (s.beyond [c] lines).remaining = rest := remaining_beyond h lines
  rw [left, left, h, hrest, List.length_cons]
  omega

theorem slice_run {front : List Char} (h : s.remaining = front ++ (run ++ rest)) :
    s.slice (s.current + front.length) (s.current + (front.length + run.length)) = run := by
  have hbehind : s.source.toList.drop (s.current + front.length) = run ++ rest := by
    rw [← List.drop_drop, ← remaining, h, List.drop_left]
  have hlength : s.current + (front.length + run.length) - (s.current + front.length)
      = run.length := by
    omega
  rw [slice, List.drop_take, hbehind, hlength, List.take_left]

theorem slice_text (hstart : s.start = s.current) (h : s.remaining = run ++ rest) (lines : Nat) :
    (s.beyond run lines).slice (s.beyond run lines).start (s.beyond run lines).current = run := by
  have hrun := @slice_run s run rest [] h
  simpa [hstart] using hrun

theorem consume_eq (hstart : s.start = s.current) (item : Item) :
    s.consume item = (s.beyond item.text (countLines item.text)).emit (item.token? s.line) := by
  simp [consume, moveOver, beyond, hstart]

theorem consume_eq_beyond {item : Item} {lines : Nat} (hstart : s.start = s.current)
    (htoken : item.token? s.line = none) (hlines : countLines item.text = lines) :
    s.consume item = s.beyond item.text lines := by
  rw [consume_eq hstart, htoken, hlines, emit]

end Scanner

/-! ## Characters in range -/

namespace Reader

variable {s : Scanner} {c : Char} {rest : List Char}

theorem charAt_apply {index : Nat} (h : s.source.toList[index]? = some c) :
    charAt index s = (.ok c, s) := by
  simp [charAt, h]

@[simp] theorem atEnd_apply (s : Scanner) : atEnd s = (.ok s.atEnd, s) := rfl

theorem atEnd_eq_false (h : s.remaining = c :: rest) : s.atEnd = false := by
  rw [← Bool.not_eq_true, s.atEnd_iff, h]
  exact List.cons_ne_nil c rest

theorem charAt_current (h : s.remaining = c :: rest) : charAt s.current s = (.ok c, s) := by
  apply charAt_apply
  have hpeek := s.peek?_eq_head?
  rwa [h, List.head?_cons] at hpeek

/-- The next character is asked for inside of the source only. -/
@[simp] theorem peek_apply (s : Scanner) :
    peek s = (.ok (s.remaining.head?.getD endCharacter), s) := by
  cases hremaining : s.remaining with
  | nil => simp [peek, s.atEnd_iff.2 hremaining]
  | cons c rest => simp [peek, atEnd_eq_false hremaining, charAt_current hremaining]

@[simp] theorem peekNext_apply (s : Scanner) :
    peekNext s = (.ok (s.remaining[1]?.getD endCharacter), s) := by
  rw [← s.peekNext?_eq_getElem?]
  by_cases h : s.source.length ≤ s.current + 1
  · have hnone : s.peekNext? = none := by simpa [Scanner.peekNext?, String.length_toList] using h
    simp [peekNext, h, hnone]
  · obtain ⟨c, hc⟩ : ∃ c, s.peekNext? = some c := by
      rw [← Option.isSome_iff_exists]
      simpa [Scanner.peekNext?, String.length_toList] using h
    simp [peekNext, h, hc, charAt_apply hc]

theorem advance_eq (s : Scanner) :
    advance s = (s.advance.1.mapError .failure, s.advance.2) := by
  cases h : s.peek? with
  | none =>
    have hnone : s.source.toList[s.current]? = none := h
    simp [advance, charAt, hnone, Scanner.advance, h, Except.mapError]
  | some c => simp [advance, charAt_apply h, Scanner.advance, h, Except.mapError]

theorem advance_apply (h : s.remaining = c :: rest) : advance s = (.ok c, s.beyond [c] 0) := by
  simp [advance_eq, Scanner.advance, s.peek?_eq_head?, h, Scanner.beyond, Except.mapError]

theorem skip_apply (h : s.remaining = c :: rest) : skip s = (.ok (), s.beyond [c] 0) := by
  simp [skip, advance_apply h]

/-- Also at the end of the source nothing outside of it is asked for. -/
theorem accept_eq (expected : Char) (s : Scanner) :
    accept expected s = (.ok (s.accept expected).1, (s.accept expected).2) := by
  cases hremaining : s.remaining with
  | nil => simp [accept, s.atEnd_iff.2 hremaining, Scanner.accept, s.peek?_eq_head?, hremaining]
  | cons c rest =>
    by_cases hc : c = expected <;>
      simp [accept, atEnd_eq_false hremaining, charAt_current hremaining, Scanner.accept,
        s.peek?_eq_head?, hremaining, hc]

theorem accept_of_eq (h : s.remaining = c :: rest) : accept c s = (.ok true, s.beyond [c] 0) := by
  simp [accept_eq, Scanner.accept, s.peek?_eq_head?, h, Scanner.beyond]

theorem accept_of_ne {expected : Char} (h : s.remaining.head? ≠ some expected) :
    accept expected s = (.ok false, s) := by
  simp [accept_eq, Scanner.accept, s.peek?_eq_head?, h]

/-! ## Runs of characters -/

/-- A loop that takes a character in each round, as long as a test of the next one holds, ends
    behind the longest run of such characters. -/
theorem repeatWhile_run {test : Reader Bool} {body : Reader Unit} {p : Char → Bool}
    {lines : List Char → Nat} (hnil : lines [] = 0)
    (hcons : ∀ c run, lines (c :: run) = lines [c] + lines run)
    (htest : ∀ s, test s = (.ok (s.remaining.head?.any p), s))
    (hbody : ∀ s c rest, s.remaining = c :: rest → body s = (.ok (), s.beyond [c] (lines [c])))
    (s : Scanner) :
    Program.repeatWhile Scanner.left .stuck test body s =
      (.ok (), s.beyond (s.remaining.takeWhile p) (lines (s.remaining.takeWhile p))) := by
  induction hremaining : s.remaining generalizing s with
  | nil =>
    have hstop : test s = (.ok false, s) := by simp [htest, hremaining]
    simp [Program.repeatWhile_of_false hstop, hnil]
  | cons c rest ih =>
    by_cases hc : p c = true
    · have hgo : test s = (.ok true, s) := by simp [htest, hremaining, hc]
      have hrest : (s.beyond [c] (lines [c])).remaining = rest :=
        Scanner.remaining_beyond hremaining _
      rw [Program.repeatWhile_of_true hgo (hbody s c rest hremaining)
        (Scanner.left_beyond_lt hremaining _), ih _ hrest, Scanner.beyond_beyond, ← hcons,
        List.takeWhile_cons_of_pos hc, List.singleton_append]
    · have hstop : test s = (.ok false, s) := by simp [htest, hremaining, hc]
      simp [Program.repeatWhile_of_false hstop, hc, hnil]

theorem repeatWhile_skip {test : Reader Bool} {p : Char → Bool}
    (htest : ∀ s, test s = (.ok (s.remaining.head?.any p), s)) (s : Scanner) :
    Program.repeatWhile Scanner.left .stuck test skip s
      = (.ok (), s.beyond (s.remaining.takeWhile p) 0) := by
  apply @repeatWhile_run _ _ _ (fun _ => 0) rfl (fun _ _ => rfl) htest
  exact fun _ _ _ => skip_apply

theorem skipWhile_apply {p : Char → Bool} (hend : p endCharacter = false) (s : Scanner) :
    skipWhile p s = (.ok (), s.beyond (s.remaining.takeWhile p) 0) := by
  apply repeatWhile_skip
  intro t
  cases hremaining : t.remaining <;> simp [hremaining, hend]

theorem skipWhile_beyond {p : Char → Bool} (hend : p endCharacter = false)
    (h : s.remaining = c :: rest) :
    skipWhile p (s.beyond [c] 0) = (.ok (), s.beyond (c :: rest.takeWhile p) 0) := by
  have hrest : (s.beyond [c] 0).remaining = rest := Scanner.remaining_beyond h 0
  rw [skipWhile_apply hend, hrest, Scanner.beyond_beyond, List.singleton_append]

theorem awaits_apply (c : Char) (s : Scanner) :
    awaits c s = (.ok (s.remaining.head?.any (· != c)), s) := by
  cases hremaining : s.remaining with
  | nil =>
    have hend := s.atEnd_iff.2 hremaining
    by_cases hc : endCharacter = c <;> simp [awaits, hremaining, hend, hc]
  | cons d rest =>
    by_cases hd : d = c
    · simp [awaits, hremaining, hd]
    · have hne : (d != c) = true := bne_iff_ne.2 hd
      simp [awaits, hremaining, atEnd_eq_false hremaining, hd, hne]

theorem skipTo_apply (c : Char) (s : Scanner) :
    skipTo c s = (.ok (), s.beyond (s.remaining.takeWhile (· != c)) 0) :=
  repeatWhile_skip (awaits_apply c) s

/-- The loop over the text of a string counts the line feeds in it. -/
theorem repeatWhile_string (s : Scanner) :
    Program.repeatWhile Scanner.left .stuck (awaits '"') (do countNewLine; skip) s =
      (.ok (), s.beyond (s.remaining.takeWhile (· != '"'))
        (countLines (s.remaining.takeWhile (· != '"')))) := by
  have hbody : ∀ (t : Scanner) c rest, t.remaining = c :: rest →
      (do countNewLine; skip : Reader Unit) t = (.ok (), t.beyond [c] (countLines [c])) := by
    intro t c rest h
    by_cases hc : c = '\n'
    · subst hc
      have hline : ({ t with line := t.line + 1 } : Scanner).remaining = '\n' :: rest := h
      simp [countNewLine, newLine, h, skip_apply hline, Scanner.beyond, countLines]
    · have hzero : countLines [c] = 0 := countLines_cons_of_ne hc []
      simp [countNewLine, h, hc, skip_apply h, hzero]
  have hcons : ∀ c run, countLines (c :: run) = countLines [c] + countLines run := by
    intro c run
    rw [← countLines_append, List.singleton_append]
  exact repeatWhile_run countLines_nil hcons (awaits_apply '"') hbody s

/-! ## Tokens -/

def answer : Option LexicalError → Except Stop Unit
  | none => .ok ()
  | some error => .error (.failure (.lexical error))

section Items

variable {text : List Char} {kind : TokenKind} {literal : Option Literal}

theorem addToken_item {line : Option Int} {lines : Nat} (hstart : s.start = s.current)
    (hremaining : s.remaining = text ++ rest)
    (hliteral : Item.literal? ⟨.token kind, text⟩ = literal) (hlines : countLines text = lines)
    (hline : line.getD (s.line + lines) = s.line) :
    addToken kind literal line (s.beyond text lines) = (.ok (), s.consume ⟨.token kind, text⟩) := by
  subst hliteral hlines
  simp only [s.consume_eq hstart, addToken, Program.modify_apply,
    Scanner.slice_text hstart hremaining]
  simp [Item.token?, Scanner.emit, Scanner.beyond, hline]

theorem addToken_form (hstart : s.start = s.current) (hremaining : s.remaining = c :: text ++ rest)
    (hform : ItemForm (.token kind) (c :: text)) (hquote : CharRole.of c ≠ .quote)
    (hdigit : CharRole.of c ≠ .digit) :
    addToken kind none none (s.beyond (c :: text) 0)
      = (.ok (), s.consume ⟨.token kind, c :: text⟩) := by
  have hkind : kind ≠ .string := by
    rintro rfl
    exact hquote hform.role_head
  apply addToken_item hstart hremaining (hform.literal?_eq_none hquote hdigit)
  · exact countLines_eq_zero (hform.lineFeed_not_mem hkind)
  · simp

theorem word_apply (hstart : s.start = s.current) (hremaining : s.remaining = c :: rest)
    (hc : isWordStart c = true) :
    word (s.beyond [c] 0) = (.ok (), s.consume (Item.cutWord c rest).1) := by
  have htext : s.remaining = (c :: rest.takeWhile isWordPart) ++ rest.dropWhile isWordPart := by
    simp [hremaining]
  have hrole := CharRole.of_wordStart hc
  have hend : isWordPart endCharacter = false := by decide
  simp only [word, Program.bind_apply, Program.get_apply, skipWhile_beyond hend hremaining,
    Scanner.slice_text hstart htext]
  apply addToken_form hstart htext
  · exact .word hc fun x => List.mem_takeWhile_imp
  · simp [hrole]
  · simp [hrole]

/-! ## Numbers -/

theorem isNumeral_whole (whole : Digits) : isNumeral whole.text = true := by
  have htake := @takeWhile_run _ _ _ [] whole.isDigit_of_mem rfl
  have hdrop := @dropWhile_run _ _ _ [] whole.isDigit_of_mem rfl
  rw [List.append_nil] at htake hdrop
  simp only [isNumeral, htake, hdrop]
  rfl

theorem isNumeral_fraction (whole part : Digits) :
    isNumeral (whole.text ++ '.' :: part.text) = true := by
  have hdot : ('.' :: part.text).head?.any Char.isDigit = false := rfl
  have hpart := part.isDigit_of_mem
  simp only [isNumeral, takeWhile_run whole.isDigit_of_mem hdot,
    dropWhile_run whole.isDigit_of_mem hdot]
  simp_all [Digits.text]

theorem isNumeral_of_form (h : ItemForm (.token .number) text) : isNumeral text = true := by
  obtain ⟨l, hkind, rfl⟩ := Lexeme.exists_iff_form.2 h
  cases l with
  | fixed kind spelling hspelling =>
    cases hkind
    cases hspelling
  | identifier | string => cases hkind
  | number whole fraction =>
    cases fraction with
    | none => exact isNumeral_whole whole
    | some part => exact isNumeral_fraction whole part

theorem fraction_of_dot {d : Char} {after : List Char} (h : s.remaining = '.' :: d :: after)
    (hd : d.isDigit = true) :
    fraction s = (.ok (), s.beyond ('.' :: d :: after.takeWhile Char.isDigit) 0) := by
  have hrest : (s.beyond ['.'] 0).remaining = d :: after := Scanner.remaining_beyond h 0
  have hend : endCharacter.isDigit = false := by decide
  simp [fraction, h, hd, advance_apply h, skipWhile_apply hend, hrest, Scanner.beyond_beyond]

theorem fraction_of_not_isDigit
    (h : ∀ d after, s.remaining = '.' :: d :: after → d.isDigit = false) :
    fraction s = (.ok (), s) := by
  have hend : endCharacter.isDigit = false := by decide
  have hdot : endCharacter ≠ '.' := by decide
  cases hremaining : s.remaining with
  | nil => simp [fraction, hremaining, hdot]
  | cons c after =>
    by_cases hc : c = '.'
    · subst hc
      cases after with
      | nil => simp [fraction, hremaining, hend]
      | cons d after => simp [fraction, hremaining, h d after hremaining]
    · simp [fraction, hremaining, hc]

theorem closeNumber_apply (hstart : s.start = s.current) (hremaining : s.remaining = text ++ rest)
    (hshape : Item.Shape ⟨.token .number, text⟩) :
    closeNumber (s.beyond text 0) = (.ok (), s.consume ⟨.token .number, text⟩) := by
  cases hshape with
  | form hform =>
    simp only [closeNumber, Program.bind_apply, Program.get_apply,
      Scanner.slice_text hstart hremaining, valueOf, if_pos (isNumeral_of_form hform),
      Program.pure_apply]
    apply addToken_item hstart hremaining rfl
    · exact countLines_eq_zero (hform.lineFeed_not_mem (by simp))
    · simp

theorem number_of_fraction {d : Char} {after : List Char} (hstart : s.start = s.current)
    (hremaining : s.remaining = c :: rest) (hc : c.isDigit = true)
    (hdrop : rest.dropWhile Char.isDigit = '.' :: d :: after) (hd : d.isDigit = true) :
    number (s.beyond [c] 0) = (.ok (), s.consume (Item.cutNumber c rest).1) := by
  let whole := c :: rest.takeWhile Char.isDigit
  let part := d :: after.takeWhile Char.isDigit
  have hshape := Item.shape_cutNumber hc rest
  have hitem : (Item.cutNumber c rest).1 = ⟨.token .number, whole ++ '.' :: part⟩ := by
    simp [Item.cutNumber, hdrop, hd, whole, part]
  have hrest : s.remaining = whole ++ '.' :: d :: after := by
    simp [hremaining, whole, ← hdrop]
  have htext : s.remaining = (whole ++ '.' :: part) ++ after.dropWhile Char.isDigit := by
    simp [hrest, part]
  have hend : endCharacter.isDigit = false := by decide
  have hfraction : fraction (s.beyond whole 0) = (.ok (), s.beyond (whole ++ '.' :: part) 0) := by
    rw [fraction_of_dot (Scanner.remaining_beyond hrest 0) hd, Scanner.beyond_beyond]
  simp only [number, Program.bind_apply, skipWhile_beyond hend hremaining]
  rw [hitem] at hshape ⊢
  rw [hfraction]
  exact closeNumber_apply hstart htext hshape

theorem number_of_whole (hstart : s.start = s.current) (hremaining : s.remaining = c :: rest)
    (hc : c.isDigit = true)
    (hdrop : ∀ d after, rest.dropWhile Char.isDigit = '.' :: d :: after → d.isDigit = false) :
    number (s.beyond [c] 0) = (.ok (), s.consume (Item.cutNumber c rest).1) := by
  let whole := c :: rest.takeWhile Char.isDigit
  have hshape := Item.shape_cutNumber hc rest
  have hitem : (Item.cutNumber c rest).1 = ⟨.token .number, whole⟩ := by
    rw [Item.cutNumber]
    split
    case h_1 d after h => rw [hdrop d after h, if_neg Bool.false_ne_true]
    case h_2 => rfl
  have htext : s.remaining = whole ++ rest.dropWhile Char.isDigit := by
    simp [hremaining, whole]
  have hend : endCharacter.isDigit = false := by decide
  have hfraction : fraction (s.beyond whole 0) = (.ok (), s.beyond whole 0) := by
    apply fraction_of_not_isDigit
    rwa [Scanner.remaining_beyond htext 0]
  simp only [number, Program.bind_apply, skipWhile_beyond hend hremaining]
  rw [hitem] at hshape ⊢
  rw [hfraction]
  exact closeNumber_apply hstart htext hshape

theorem number_apply (hstart : s.start = s.current) (hremaining : s.remaining = c :: rest)
    (hc : c.isDigit = true) :
    number (s.beyond [c] 0) = (.ok (), s.consume (Item.cutNumber c rest).1) := by
  by_cases h : ∃ d after, rest.dropWhile Char.isDigit = '.' :: d :: after ∧ d.isDigit = true
  · obtain ⟨d, after, hdrop, hd⟩ := h
    exact number_of_fraction hstart hremaining hc hdrop hd
  · apply number_of_whole hstart hremaining hc
    intro d after hdrop
    exact Bool.eq_false_iff.2 fun hd => h ⟨d, after, hdrop, hd⟩

/-! ## Operators, comments and strings -/

theorem head?_ne_some {expected : Char} {text : List Char}
    (h : ∀ after, text = expected :: after → False) : text.head? ≠ some expected := by
  intro hhead
  obtain ⟨after, rfl⟩ := List.head?_eq_some_iff.1 hhead
  exact h after rfl

theorem comparison_apply {alone pair : TokenKind} (hstart : s.start = s.current)
    (hremaining : s.remaining = c :: rest)
    (hc : TokenKind.comparison? c = some (alone, pair)) :
    comparison alone pair (s.beyond [c] 0)
      = (.ok (), s.consume (Item.cutComparison c alone pair rest).1) := by
  have hrest : (s.beyond [c] 0).remaining = rest := Scanner.remaining_beyond hremaining 0
  have hrole := CharRole.of_comparison hc
  unfold Item.cutComparison
  split
  case h_1 after =>
    simp only [comparison, Program.bind_apply, accept_of_eq hrest, if_true, Scanner.beyond_beyond]
    exact addToken_form hstart hremaining (.pair hc) (by simp [hrole]) (by simp [hrole])
  case h_2 hne =>
    have hother : (s.beyond [c] 0).remaining.head? ≠ some '=' := hrest ▸ head?_ne_some hne
    simp only [comparison, Program.bind_apply, accept_of_ne hother]
    exact addToken_form hstart hremaining (.alone hc) (by simp [hrole]) (by simp [hrole])

theorem slash_apply (hstart : s.start = s.current) (hremaining : s.remaining = '/' :: rest) :
    slash (s.beyond ['/'] 0) = (.ok (), s.consume (Item.cutSlash '/' rest).1) := by
  have hrest : (s.beyond ['/'] 0).remaining = rest := Scanner.remaining_beyond hremaining 0
  unfold Item.cutSlash
  split
  case h_1 after =>
    have hafter : (s.beyond ['/', '/'] 0).remaining = after := Scanner.remaining_beyond hremaining 0
    have hline : '\n' ∉ '/' :: '/' :: after.takeWhile (· != '\n') := by
      simp only [List.mem_cons, not_or]
      exact ⟨by decide, by decide, fun hmem => by simpa using List.mem_takeWhile_imp hmem⟩
    rw [Scanner.consume_eq_beyond hstart rfl (countLines_eq_zero hline)]
    simp [slash, accept_of_eq hrest, Scanner.beyond_beyond, skipTo_apply, hafter]
  case h_2 hne =>
    have hother : (s.beyond ['/'] 0).remaining.head? ≠ some '/' := hrest ▸ head?_ne_some hne
    simp only [slash, Program.bind_apply, accept_of_ne hother]
    exact addToken_form hstart hremaining .slash (by decide) (by decide)

theorem closeString_apply {body : List Char} (hstart : s.start = s.current)
    (hremaining : s.remaining = '"' :: (body ++ '"' :: rest)) :
    closeString s.line (s.beyond ('"' :: body) (countLines body))
      = (.ok (), s.consume ⟨.token .string, '"' :: (body ++ ['"'])⟩) := by
  have hbehind : (s.beyond ('"' :: body) (countLines body)).remaining = '"' :: rest :=
    Scanner.remaining_beyond hremaining _
  have htext : s.remaining = '"' :: (body ++ ['"']) ++ rest := by simp [hremaining]
  have hslice : s.slice (s.current + 1) (s.current + (1 + body.length)) = body :=
    @Scanner.slice_run s body ('"' :: rest) ['"'] hremaining
  have hliteral : Item.literal? ⟨.token .string, '"' :: (body ++ ['"'])⟩
      = some (.text (String.ofList body)) := by
    simp [Item.literal?]
  have hlines : countLines ('"' :: (body ++ ['"'])) = countLines body := by
    rw [countLines_cons_of_ne (by decide), countLines_append]
    rfl
  have hoffset : s.current + ('"' :: (body ++ ['"'])).length - 1
      = s.current + (1 + body.length) := by
    simp
    omega
  simp only [closeString, Program.bind_apply, advance_apply hbehind, Program.get_apply,
    Scanner.beyond_beyond, Scanner.slice_beyond, Scanner.start_beyond, Scanner.current_beyond,
    hstart, List.cons_append, Nat.add_zero, hoffset, hslice]
  exact addToken_item hstart htext hliteral hlines rfl

theorem string_apply (hstart : s.start = s.current) (hremaining : s.remaining = '"' :: rest) :
    string (s.beyond ['"'] 0) =
      (answer ((Item.cutString '"' rest).1.error? s.filename s.line),
        s.consume (Item.cutString '"' rest).1) := by
  have hrest : (s.beyond ['"'] 0).remaining = rest := Scanner.remaining_beyond hremaining 0
  have htext : s.remaining = ('"' :: rest.takeWhile (· != '"')) ++ rest.dropWhile (· != '"') := by
    simp [hremaining]
  have hbehind := Scanner.remaining_beyond htext (countLines (rest.takeWhile (· != '"')))
  simp only [string, Program.bind_apply, Program.get_apply, repeatWhile_string, hrest,
    Scanner.beyond_beyond, Scanner.line_beyond_zero, List.singleton_append, Nat.zero_add,
    atEnd_apply]
  cases hdrop : rest.dropWhile (· != '"') with
  | nil =>
    have hall : rest.takeWhile (· != '"') = rest := by
      simpa [hdrop] using List.takeWhile_append_dropWhile (p := (· != '"')) (l := rest)
    have hitem : (Item.cutString '"' rest).1 = ⟨.unclosed, '"' :: rest⟩ := by
      simp [Item.cutString, hdrop]
    rw [hdrop, hall] at hbehind
    have hend := (Scanner.atEnd_iff _).2 hbehind
    have hlines : countLines ('"' :: rest) = countLines rest := countLines_cons_of_ne (by decide) _
    rw [hall, hend, hitem, Scanner.consume_eq_beyond hstart rfl hlines]
    simp [answer, Item.error?, Item.fault?, hlines, Scanner.beyond, Scanner.location]
  | cons quote after =>
    obtain rfl : quote = '"' := by
      simpa [hdrop] using List.head?_dropWhile_not (· != '"') rest
    have hitem : (Item.cutString '"' rest).1
        = ⟨.token .string, '"' :: (rest.takeWhile (· != '"') ++ ['"'])⟩ := by
      simp [Item.cutString, hdrop]
    rw [hdrop] at hbehind htext
    rw [atEnd_eq_false hbehind, hitem]
    exact closeString_apply hstart htext

theorem reject_apply (hstart : s.start = s.current) (hc : CharRole.of c = .foreign) :
    reject c (s.beyond [c] 0) =
      (answer (Item.error? ⟨.rejected c, [c]⟩ s.filename s.line),
        s.consume ⟨.rejected c, [c]⟩) := by
  have hlines := countLines_rejected hc
  have herror (location : Location) : LexicalError.ofRejected (String.singleton c) location
      = .ok (LexicalFault.errorAt (.unexpectedCharacter c) location) := by
    simp only [LexicalError.ofRejected, String.toList_singleton, rejectionHelp?_singleton]
    rfl
  rw [Scanner.consume_eq_beyond hstart rfl hlines]
  simp [reject, herror, answer, Item.error?, Item.fault?, hlines, Scanner.beyond, Scanner.location]

/-- Reading an item by its characters is taking the item at the cursor: no character outside of the
    source is asked for, what is taken for a number is a numeral, and all loops end. -/
theorem item_apply (hstart : s.start = s.current) (hremaining : s.remaining = c :: rest) :
    item s = (answer ((Item.cut c rest).1.error? s.filename s.line),
      s.consume (Item.cut c rest).1) := by
  have hrole := CharRole.describes_of c
  simp only [item, Program.bind_apply, advance_apply hremaining, Item.cut]
  cases heq : CharRole.of c
  all_goals rw [heq] at hrole
  all_goals simp only
  case symbol kind =>
    exact addToken_form hstart hremaining (.symbol hrole) (by simp [heq]) (by simp [heq])
  case comparison alone pair =>
    rw [comparison_apply hstart hremaining hrole]
    unfold Item.cutComparison
    split <;> rfl
  case slash =>
    cases hrole
    rw [slash_apply hstart hremaining]
    unfold Item.cutSlash
    split <;> rfl
  case blank =>
    have hblank : isBlank c = true := hrole
    have hline : c ≠ '\n' := by
      rintro rfl
      exact absurd hblank (by decide)
    rw [Scanner.consume_eq_beyond hstart rfl (countLines_cons_of_ne hline [])]
    rfl
  case lineFeed =>
    cases hrole
    have hlines : countLines ['\n'] = 1 := rfl
    rw [Scanner.consume_eq_beyond hstart rfl hlines]
    simp [newLine, Scanner.beyond, answer, Item.error?, Item.fault?]
  case quote =>
    cases hrole
    exact string_apply hstart hremaining
  case digit =>
    rw [number_apply hstart hremaining hrole]
    unfold Item.cutNumber
    repeat' split
    all_goals rfl
  case wordStart =>
    rw [word_apply hstart hremaining hrole]
    rfl
  case foreign => exact reject_apply hstart heq

end Items

end Reader

end LoxScan
