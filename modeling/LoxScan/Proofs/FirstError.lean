import LoxScan.Proofs.Joining
import LoxScan.Proofs.Reporting

/-! # The first error

A text is scanned to its end before its first error is given, but nothing behind the error is needed
to know it.

* `FirstFault` singles out the fault of a text that begins before all others; a text has one, or
  nothing is wrong with it (`faultless_or_firstFault`).
* `items_append_foreign`: a character that begins no item holds apart what stands before it and what
  stands behind it, whatever that is.
* `tokenizeText_first_error` is the whole meaning of tokenizing a text.
-/

namespace LoxScan

/-! ## The first fault -/

/-- A fault of a text that begins at an offset, and before all other faults. -/
structure FirstFault (text : List Char) (offset : Nat) (fault : LexicalFault) : Prop where
  found : ∃ item, (offset, item) ∈ placeItems 0 (items text) ∧ item.fault? = some fault
  least : ∀ q ∈ placeItems 0 (items text), q.2.fault? ≠ none → offset ≤ q.1

theorem Item.fault?_eq_none_iff {item : Item} :
    item.fault? = none ↔ item.kind ≠ .unclosed ∧ ∀ c, item.kind ≠ .rejected c := by
  rw [fault?]
  split <;> simp_all

theorem mem_placeItems {start : Nat} {found : List Item} {q : Nat × Item} :
    q ∈ placeItems start found ↔ ∃ before after, found = before ++ q.2 :: after ∧
      q.1 = start + (joined before).length := by
  induction found generalizing start with
  | nil => simp [placeItems]
  | cons item rest ih =>
    rw [placeItems, List.mem_cons, ih]
    constructor
    · rintro (rfl | ⟨before, after, rfl, hoffset⟩)
      · exact ⟨[], rest, rfl, rfl⟩
      · refine ⟨item :: before, after, rfl, ?_⟩
        rw [hoffset, joined_cons, List.length_append, Nat.add_assoc]
    · rintro ⟨before, after, hsplit, hoffset⟩
      cases before with
      | nil =>
        obtain ⟨rfl, -⟩ := List.cons.inj hsplit
        exact .inl (Prod.ext hoffset rfl)
      | cons first before =>
        obtain ⟨rfl, hrest⟩ := List.cons.inj hsplit
        refine .inr ⟨before, after, hrest, ?_⟩
        rw [hoffset, joined_cons, List.length_append, Nat.add_assoc]

/-- The first fault is the one that no fault stands before. -/
theorem firstFault_iff {text : List Char} {offset : Nat} {fault : LexicalFault} :
    FirstFault text offset fault ↔ ∃ before item after, items text = before ++ item :: after ∧
      offset = (joined before).length ∧ (∀ q ∈ before, q.fault? = none) ∧
        item.fault? = some fault := by
  constructor
  · rintro ⟨⟨item, hmem, hfault⟩, hleast⟩
    obtain ⟨before, after, hsplit, hoffset⟩ := mem_placeItems.1 hmem
    simp only [Nat.zero_add] at hsplit hoffset
    refine ⟨before, item, after, hsplit, hoffset, fun q hq => ?_, hfault⟩
    by_contra hne
    obtain ⟨first, second, rfl⟩ := List.append_of_mem hq
    have hplace : ((joined first).length, q) ∈ placeItems 0 (items text) :=
      mem_placeItems.2 ⟨first, second ++ item :: after, by simp [hsplit], by simp⟩
    have hle : offset ≤ (joined first).length := hleast _ hplace hne
    have hq : q ∈ items text := by simp [hsplit]
    have hlength := List.length_pos_iff.2 (shape_of_mem_items q hq).text_ne_nil
    rw [hoffset, joined_append, joined_cons, List.length_append, List.length_append] at hle
    omega
  · rintro ⟨before, item, after, hsplit, hoffset, hbefore, hfault⟩
    refine ⟨⟨item, mem_placeItems.2 ⟨before, after, hsplit, by simp [hoffset]⟩, hfault⟩, ?_⟩
    intro q hq hne
    obtain ⟨first, second, hother, hplace⟩ := mem_placeItems.1 hq
    rw [hplace, hoffset, Nat.zero_add]
    rcases List.append_eq_append_iff.1 (hsplit.symm.trans hother) with
      ⟨between, rfl, -⟩ | ⟨between, rfl, hbetween⟩
    · simp
    · cases between with
      | nil => simp
      | cons other between =>
        obtain ⟨rfl, -⟩ := List.cons.inj hbetween
        exact absurd (hbefore q.2 (by simp)) hne

theorem faultless_or_firstFault (text : List Char) :
    (∀ item ∈ items text, item.fault? = none) ∨ ∃ offset fault, FirstFault text offset fault := by
  cases hfirst : (items text).findSome? Item.fault? with
  | none => exact .inl (List.findSome?_eq_none_iff.1 hfirst)
  | some fault =>
    obtain ⟨before, item, after, hsplit, hfault, hbefore⟩ := List.findSome?_eq_some_iff.1 hfirst
    exact .inr ⟨_, fault, firstFault_iff.2 ⟨before, item, after, hsplit, rfl, hbefore, hfault⟩⟩

/-! ## The errors of a text -/

theorem errorsFrom_of_firstFault {text : List Char} {offset : Nat} {fault : LexicalFault}
    (h : FirstFault text offset fault) (filename : Option String) :
    ∃ after, errorsFrom filename 1 (items text)
      = fault.errorAt ⟨filename, faultLine text offset fault⟩ :: after := by
  obtain ⟨before, item, after, hsplit, hoffset, hbefore, hfault⟩ := firstFault_iff.1 h
  have hplace : (offset, item) ∈ placeItems 0 (items (text.drop 0)) :=
    mem_placeItems.2 ⟨before, after, hsplit, by simp [hoffset]⟩
  have hline : lineAt text offset = 1 + countItemLines before := by
    have htext : text = joined before ++ joined (item :: after) := by
      rw [← joined_append, ← hsplit, joined_items]
    rw [lineAt, htext, hoffset, List.take_left]
    rfl
  have hitem : item.error? filename (1 + countItemLines before)
      = some (fault.errorAt ⟨filename, faultLine text offset fault⟩) := by
    have herror := error?_of_mem_placeItems hplace filename
    rwa [hline, hfault] at herror
  have hnone : gatherFrom (fun item line => item.error? filename line) 1 before = [] :=
    gatherFrom_eq_nil (fun q hq line => by rw [Item.error?, hbefore q hq, Option.map_none]) 1
  rw [hsplit, errorsFrom, gatherFrom_append, hnone, gatherFrom, hitem]
  exact ⟨_, rfl⟩

theorem errorsFrom_of_faultless {text : List Char} (h : ∀ item ∈ items text, item.fault? = none)
    (filename : Option String) : errorsFrom filename 1 (items text) = [] :=
  gatherFrom_eq_nil (fun item hitem line => by rw [Item.error?, h item hitem, Option.map_none]) 1

section TokenizeText

variable {source : String} (filename : Option String)

theorem tokenizeText_of_faultless (h : ∀ item ∈ items source.toList, item.fault? = none) :
    tokenizeText source filename = .ok (tokensToEnd 1 source.toList) := by
  obtain ⟨htokens, herrors⟩ := scan_spec source filename
  rw [errorsFrom_of_faultless h] at herrors
  rw [tokenizeText, herrors, htokens]

theorem tokenizeText_of_firstFault {offset : Nat} {fault : LexicalFault}
    (h : FirstFault source.toList offset fault) :
    tokenizeText source filename
      = .error (fault.errorAt ⟨filename, faultLine source.toList offset fault⟩) := by
  obtain ⟨-, herrors⟩ := scan_spec source filename
  obtain ⟨after, hafter⟩ := errorsFrom_of_firstFault h filename
  rw [hafter] at herrors
  rw [tokenizeText, herrors]

theorem tokenizeText_eq_ok_iff {tokens : List Token} :
    tokenizeText source filename = .ok tokens ↔
      (∀ item ∈ items source.toList, item.fault? = none) ∧
        tokens = tokensToEnd 1 source.toList := by
  rcases faultless_or_firstFault source.toList with h | ⟨offset, fault, h⟩
  · rw [tokenizeText_of_faultless filename h]
    constructor
    · intro hok
      exact ⟨h, (Except.ok.inj hok).symm⟩
    · rintro ⟨-, rfl⟩
      rfl
  · rw [tokenizeText_of_firstFault filename h]
    obtain ⟨item, hmem, hfault⟩ := h.found
    obtain ⟨before, after, hsplit, -⟩ := mem_placeItems.1 hmem
    constructor
    · intro hok
      cases hok
    · rintro ⟨hnone, -⟩
      rw [hnone item (by simp [hsplit])] at hfault
      cases hfault

theorem tokenizeText_eq_error_iff {error : LexicalError} :
    tokenizeText source filename = .error error ↔
      ∃ offset fault, FirstFault source.toList offset fault ∧
        error = fault.errorAt ⟨filename, faultLine source.toList offset fault⟩ := by
  constructor
  · intro herror
    rcases faultless_or_firstFault source.toList with h | ⟨offset, fault, h⟩
    · rw [tokenizeText_of_faultless filename h] at herror
      cases herror
    · rw [tokenizeText_of_firstFault filename h] at herror
      exact ⟨offset, fault, h, (Except.error.inj herror).symm⟩
  · rintro ⟨offset, fault, h, rfl⟩
    exact tokenizeText_of_firstFault filename h

end TokenizeText

/-! ## What stands behind the error -/

/-- Whatever follows a character that begins no item, it does not reach over that character. -/
theorem Item.extendedBy_append_foreign {item : Item} {c : Char} (hc : CharRole.of c = .foreign)
    {after rest : List Char} (h : item.extendedBy (after ++ c :: rest) = false)
    (other : List Char) : item.extendedBy (after ++ c :: other) = false := by
  -- Two characters decide, and only behind a dot the second one counts.
  rcases after with _ | ⟨d, _ | ⟨e, after⟩⟩
  · have hdot : c ≠ '.' := by
      rintro rfl
      exact absurd hc (by decide)
    unfold extendedBy at h ⊢
    split <;> simp_all
  · exact Item.extendedBy_cons h id
  · rw [← h]
    exact item.extendedBy_congr rfl

theorem items_append_foreign {before : List Item} {c : Char} {rest : List Char}
    (hc : CharRole.of c = .foreign) (h : Fits (c :: rest) before) (other : List Char) :
    items (joined before ++ c :: other) = before ++ ⟨.rejected c, [c]⟩ :: items other := by
  have hfits : Fits (c :: other) before :=
    h.replace fun item _ after hafter => Item.extendedBy_append_foreign hc hafter other
  rw [items_joined_append hfits]
  exact congrArg (before ++ ·) (items_text_append (.rejected hc) rfl)

/-- A rejected character is the first fault of all texts that go the same way up to it. -/
theorem FirstFault.of_take_eq {text other : List Char} {offset : Nat} {c : Char}
    (h : FirstFault text offset (.unexpectedCharacter c))
    (hsame : other.take (offset + 1) = text.take (offset + 1)) :
    FirstFault other offset (.unexpectedCharacter c) := by
  obtain ⟨before, item, after, hsplit, rfl, hbefore, hfault⟩ := firstFault_iff.1 h
  obtain ⟨hrejected, hc⟩ : item = ⟨.rejected c, [c]⟩ ∧ CharRole.of c = .foreign := by
    have hitem : item ∈ items text := by simp [hsplit]
    cases shape_of_mem_items item hitem with
    | form hform =>
      rw [hform.fault?_eq_none] at hfault
      cases hfault
    | unclosed => cases hfault
    | rejected hc =>
      cases hfault
      exact ⟨rfl, hc⟩
  subst hrejected
  have htext : text = joined before ++ c :: joined after := by
    rw [← joined_items text, hsplit, joined_append, joined_cons, List.singleton_append]
  have hfits : Fits (c :: joined after) before := by
    have hall := (fits_append.1 (hsplit ▸ fits_items text)).1
    rwa [List.append_nil] at hall
  have hother : other = joined before ++ c :: other.drop ((joined before).length + 1) := by
    have htake := List.take_append_drop ((joined before).length + 1) other
    rw [hsame, htext, List.take_length_add_append] at htake
    simpa using htake.symm
  have hitems := items_append_foreign hc hfits (other.drop ((joined before).length + 1))
  rw [← hother] at hitems
  exact firstFault_iff.2 ⟨before, _, _, hitems, rfl, hbefore, rfl⟩

/-! ## Tokenizing a text -/

/-- A text is tokenized exactly if no character of it is rejected and no string is left open, and
    its tokens are those that any scan of it finds.  If not, its first fault is given, which a scan
    reports first.  A rejected character is given whatever stands behind it. -/
theorem tokenizeText_first_error (source : String) (filename : Option String) :
    let text := source.toList
    ((∃ tokens, tokenizeText source filename = .ok tokens) ↔
      ∀ item ∈ items text, item.kind ≠ .unclosed ∧ ∀ c, item.kind ≠ .rejected c) ∧
    (∀ tokens, tokenizeText source filename = .ok tokens → ∀ outlet name,
      (scanTo outlet source name).1 = .ok () ∧
        (scanTo outlet source name).2.scanner.tokens.toList = tokens) ∧
    (∀ error, tokenizeText source filename = .error error →
      (∃ offset fault, FirstFault text offset fault ∧
        error = fault.errorAt ⟨filename, faultLine text offset fault⟩) ∧
      ∀ own name, ∃ p errors,
        scanTo (.ofSink (some (.collector own #[]))) source name = (.ok (), p) ∧
          p.state.sink = some (.collector own errors) ∧
          errors[0]? = some (.ofMessage error.message ⟨own, error.line⟩ none none)) ∧
    ∀ offset c, FirstFault text offset (.unexpectedCharacter c) →
      ∃ error, tokenizeText source filename = .error error ∧
        ∀ other : String, other.toList.take (offset + 1) = text.take (offset + 1) →
          tokenizeText other filename = .error error := by
  intro text
  refine ⟨?_, ?_, ?_, ?_⟩
  · simp only [tokenizeText_eq_ok_iff, exists_and_left, exists_eq, and_true,
      Item.fault?_eq_none_iff]
    rfl
  · intro tokens htokens outlet name
    obtain ⟨hnone, rfl⟩ := (tokenizeText_eq_ok_iff filename).1 htokens
    have hended : (scanTo outlet source name).1 = .ok () := by
      obtain ⟨hresult, -⟩ := (Scanner.new source name).tokenize_fst_state Outlet.receive outlet
      obtain ⟨hall, -⟩ := Pass.takeAll_of_fault?_eq_none Outlet.receive hnone
        (Pass.begin (Scanner.new source name) outlet)
      exact hresult.trans hall
    exact ⟨hended, (Scanner.tokenize_spec_of_ok hended).1⟩
  · intro error herror
    obtain ⟨offset, fault, hfirst, rfl⟩ := (tokenizeText_eq_error_iff filename).1 herror
    refine ⟨⟨offset, fault, hfirst, rfl⟩, fun own name => ?_⟩
    refine ⟨_, _, (Scanner.new source name).tokenize_collector own #[], rfl, ?_⟩
    obtain ⟨-, herrors⟩ := scan_spec source name
    obtain ⟨after, hafter⟩ := errorsFrom_of_firstFault hfirst name
    have hhead : (scan source name).errors[0]?
        = some (fault.errorAt ⟨name, faultLine text offset fault⟩) := by
      rw [← Array.getElem?_toList, herrors, hafter]
      rfl
    rw [Array.empty_append, Array.getElem?_map]
    exact congrArg (Option.map _) hhead
  · intro offset c hfirst
    refine ⟨_, tokenizeText_of_firstFault filename hfirst, fun other hsame => ?_⟩
    have hline : faultLine other.toList offset (.unexpectedCharacter c)
        = faultLine text offset (.unexpectedCharacter c) := by
      have htake : other.toList.take offset = text.take offset := by
        have := congrArg (List.take offset) hsame
        rwa [List.take_take, List.take_take, Nat.min_eq_left (Nat.le_succ offset)] at this
      rw [faultLine, faultLine, lineAt, lineAt, htake]
    rw [tokenizeText_of_firstFault filename (hfirst.of_take_eq hsame), hline]

/-- A rejected character behind a number and a dot, where a digit would have made the number
    longer. -/
theorem tokenizeText_first_error_number :
    FirstFault "1.@\"".toList 2 (.unexpectedCharacter '@') ∧
      ∃ error, tokenizeText "1.@\"" none = .error error ∧
        ∀ other : String, other.toList.take 3 = ['1', '.', '@'] →
          tokenizeText other none = .error error := by
  have hfirst : FirstFault "1.@\"".toList 2 (.unexpectedCharacter '@') :=
    firstFault_iff.2 ⟨[⟨.token .number, ['1']⟩, ⟨.token .dot, ['.']⟩], ⟨.rejected '@', ['@']⟩,
      [⟨.unclosed, ['"']⟩], by decide +kernel, rfl, by decide, rfl⟩
  obtain ⟨-, -, -, hsame⟩ := tokenizeText_first_error "1.@\"" none
  exact ⟨hfirst, hsame 2 '@' hfirst⟩

end LoxScan
