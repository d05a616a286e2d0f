import LoxScan.Distribution.Manifest
import LoxScan.Proofs.PatternSearch
import LoxScan.Proofs.Separators

/-! # The version of a distribution

A manifest has the version that is written first in the version file of its tree, or a fixed one if
there is none.

* `VersionAt` says which version is written at an offset of a text, and `FirstVersion` that it is
  the first one.
* `versionIn?_eq_some_iff` and `versionIn?_eq_none_iff`: this is the version that is found.
  `search?_versionPattern`: so is the one that a search for the version pattern keeps.
* `FirstVersion.append`: what is written behind the first version does not matter.
  `versionIn?_append_lineFeed`: neither do lines before it.
* `version_ofTree` is the meaning of the version in a manifest.
-/

namespace LoxScan

/-! ## Versions in a text -/

/-- A text goes on with the mark, a version without quotes, and the quote that ends it. -/
structure BeginsWithVersion (text version : List Char) : Prop where
  ne_nil : version ≠ []
  quote_not_mem : '"' ∉ version
  written : ∃ after, text = versionMark ++ version ++ '"' :: after

/-- A version is written at an offset of a text, where a line has to begin. -/
structure VersionAt (text : List Char) (offset : Nat) (version : List Char) : Prop where
  lineStart : IsLineStart text offset
  begins : BeginsWithVersion (text.drop offset) version

structure FirstVersion (text : List Char) (offset : Nat) (version : List Char) : Prop
    extends VersionAt text offset version where
  least : ∀ other found, VersionAt text other found → offset ≤ other

variable {text version : List Char} {offset : Nat}

theorem versionHere?_eq_some_iff :
    versionHere? text = some version ↔ BeginsWithVersion text version := by
  constructor
  · intro h
    rw [versionHere?] at h
    split at h
    case isFalse => cases h
    case isTrue hmark =>
      obtain ⟨rest, rfl⟩ := List.isPrefixOf_iff_prefix.1 hmark
      simp only [List.drop_left, Option.ite_none_left_eq_some, Bool.or_eq_true, not_or,
        List.isEmpty_iff, Option.some.injEq] at h
      obtain ⟨⟨hne, hclosed⟩, rfl⟩ := h
      obtain ⟨c, after, hafter⟩ := List.exists_cons_of_ne_nil hclosed
      obtain rfl : c = '"' := by
        have hhead := head?_dropWhile_any (· != '"') rest
        rw [hafter] at hhead
        simpa using hhead
      refine ⟨hne, fun hmem => ?_, after, ?_⟩
      · simpa using List.mem_takeWhile_imp hmem
      · rw [List.append_assoc, ← hafter, List.takeWhile_append_dropWhile]
  · rintro ⟨hne, hquote, after, rfl⟩
    have hrun := forall_bne_of_not_mem hquote
    have hend : ('"' :: after).head?.any (· != '"') = false := rfl
    have hmark := List.isPrefixOf_iff_prefix.2 (List.prefix_append versionMark
      (version ++ '"' :: after))
    rw [List.append_assoc, versionHere?, if_pos hmark, List.drop_left]
    simp only [takeWhile_run hrun hend, dropWhile_run hrun hend]
    simp [hne]

theorem BeginsWithVersion.append_iff {after : List Char}
    (h : '"' ∈ text.drop versionMark.length) :
    BeginsWithVersion (text ++ after) version ↔ BeginsWithVersion text version := by
  obtain ⟨front, back, hback, hfront⟩ := List.eq_append_cons_of_mem h
  have htext : text = text.take versionMark.length ++ (front ++ '"' :: back) := by
    rw [← hback, List.take_append_drop]
  have hlength : (text.take versionMark.length).length = versionMark.length := by
    have hlt := congrArg List.length hback
    rw [List.length_append, List.length_cons, List.length_drop] at hlt
    exact List.length_take_of_le (by omega)
  constructor
  · rintro ⟨hne, hquote, rest, hrest⟩
    rw [htext, List.append_assoc, List.append_assoc versionMark, List.append_assoc front,
      List.cons_append] at hrest
    obtain ⟨hmark, hrest⟩ := List.append_inj hrest hlength
    obtain ⟨rfl, -⟩ := (append_cons_inj_of_first hfront hquote).1 hrest
    exact ⟨hne, hquote, back, by rw [List.append_assoc, ← hmark, ← htext]⟩
  · rintro ⟨hne, hquote, rest, rfl⟩
    exact ⟨hne, hquote, rest ++ after, by simp⟩

theorem versionAt_iff : VersionAt text offset version ↔
    IsLineStart text offset ∧ versionHere? (text.drop offset) = some version := by
  rw [versionHere?_eq_some_iff]
  exact ⟨fun h => ⟨h.lineStart, h.begins⟩, fun h => ⟨h.1, h.2⟩⟩

instance (text : List Char) (offset : Nat) (version : List Char) :
    Decidable (VersionAt text offset version) :=
  decidable_of_iff _ versionAt_iff.symm

theorem FirstVersion.not_versionAt (h : FirstVersion text offset version) {other : Nat}
    (hlt : other < offset) (found : List Char) : ¬ VersionAt text other found :=
  fun hother => absurd (h.least other found hother) (Nat.not_le_of_lt hlt)

theorem firstVersion_iff : FirstVersion text offset version ↔ VersionAt text offset version ∧
    ∀ other < offset, IsLineStart text other → versionHere? (text.drop other) = none := by
  constructor
  · intro h
    refine ⟨h.toVersionAt, fun other hlt hstart => ?_⟩
    rw [Option.eq_none_iff_forall_ne_some]
    intro found hfound
    exact h.not_versionAt hlt found (versionAt_iff.2 ⟨hstart, hfound⟩)
  · rintro ⟨h, hnone⟩
    refine ⟨h, fun other found hother => ?_⟩
    by_contra hlt
    obtain ⟨hstart, hfound⟩ := versionAt_iff.1 hother
    rw [hnone other (by omega) hstart] at hfound
    cases hfound

instance (text : List Char) (offset : Nat) (version : List Char) :
    Decidable (FirstVersion text offset version) :=
  decidable_of_iff _ firstVersion_iff.symm

namespace VersionAt

theorem unique {found : List Char} (h : VersionAt text offset version)
    (hfound : VersionAt text offset found) : version = found := by
  have hsame := (versionAt_iff.1 h).2.symm.trans (versionAt_iff.1 hfound).2
  exact Option.some.inj hsame

theorem drop_eq (h : VersionAt text offset version) :
    ∃ after, text.drop (offset + versionMark.length) = version ++ '"' :: after := by
  obtain ⟨after, hafter⟩ := h.begins.written
  refine ⟨after, ?_⟩
  rw [← List.drop_drop, hafter, List.append_assoc, List.drop_left]

theorem lt_length (h : VersionAt text offset version) :
    offset + versionMark.length < text.length := by
  obtain ⟨after, hafter⟩ := h.drop_eq
  by_contra hle
  rw [List.drop_eq_nil_of_le (by omega)] at hafter
  simp at hafter

/-- Behind the mark of an earlier candidate there is a quote, at least the one that ends the
    version. -/
theorem quote_mem (h : VersionAt text offset version) {other : Nat} (hle : other ≤ offset) :
    '"' ∈ text.drop (other + versionMark.length) := by
  obtain ⟨after, hafter⟩ := h.drop_eq
  have hsuffix : text.drop (offset + versionMark.length)
      <:+ text.drop (other + versionMark.length) :=
    List.drop_suffix_drop_left text (by omega)
  exact hsuffix.subset (by simp [hafter])

/-- What is appended to a text does not change the version before its last quote. -/
theorem append_iff {after : List Char} (h : '"' ∈ text.drop (offset + versionMark.length)) :
    VersionAt (text ++ after) offset version ↔ VersionAt text offset version := by
  have hle : offset ≤ text.length := by
    by_contra hlt
    rw [List.drop_eq_nil_of_le (by omega)] at h
    cases h
  rw [← List.drop_drop] at h
  constructor
  · intro ⟨hstart, hbegins⟩
    rw [List.drop_append_of_le_length hle, BeginsWithVersion.append_iff h] at hbegins
    exact ⟨(isLineStart_append hle after).1 hstart, hbegins⟩
  · intro ⟨hstart, hbegins⟩
    refine ⟨(isLineStart_append hle after).2 hstart, ?_⟩
    rwa [List.drop_append_of_le_length hle, BeginsWithVersion.append_iff h]

/-- A line feed separates what is written before it from the versions behind it. -/
theorem append_lineFeed_iff {front later : List Char} :
    VersionAt (front ++ '\n' :: later) (front.length + 1 + offset) version ↔
      VersionAt later offset version := by
  have hdrop : (front ++ '\n' :: later).drop (front.length + 1 + offset) = later.drop offset := by
    rw [← List.drop_drop, ← List.drop_drop, List.drop_left, List.drop_one, List.tail_cons]
  rw [versionAt_iff, versionAt_iff, isLineStart_append_lineFeed, hdrop]

end VersionAt

/-! ## The first version -/

namespace FirstVersion

theorem unique {other : Nat} {found : List Char} (h : FirstVersion text offset version)
    (hother : FirstVersion text other found) : version = found := by
  obtain rfl : offset = other :=
    Nat.le_antisymm (h.least other found hother.toVersionAt)
      (hother.least offset version h.toVersionAt)
  exact h.toVersionAt.unique hother.toVersionAt

theorem append (h : FirstVersion text offset version) (after : List Char) :
    FirstVersion (text ++ after) offset version := by
  refine ⟨(VersionAt.append_iff (h.quote_mem (Nat.le_refl offset))).2 h.toVersionAt, ?_⟩
  intro other found hfound
  by_contra hlt
  exact hlt (h.least other found ((VersionAt.append_iff (h.quote_mem (by omega))).1 hfound))

end FirstVersion

/-- If no version begins before the place that the search has reached, then the search ends with
    the first version of the whole text. -/
theorem versionFrom?_spec (before rest : List Char) {lineStart : Bool}
    (hstart : lineStart = true ↔ IsLineStart (before ++ rest) before.length)
    (hbefore : ∀ offset < before.length, ∀ version, ¬ VersionAt (before ++ rest) offset version) :
    (∀ version, versionFrom? lineStart rest = some version →
      ∃ offset, FirstVersion (before ++ rest) offset version) ∧
    (versionFrom? lineStart rest = none →
      ∀ offset version, ¬ VersionAt (before ++ rest) offset version) := by
  induction rest generalizing before lineStart with
  | nil =>
    refine ⟨nofun, fun _ offset version h => hbefore offset ?_ version h⟩
    have hlt := h.lt_length
    rw [List.append_nil] at hlt
    omega
  | cons c rest ih =>
    have hhere {version : List Char} :
        (if lineStart then versionHere? (c :: rest) else none) = some version ↔
          VersionAt (before ++ c :: rest) before.length version := by
      rw [versionAt_iff, ← hstart, List.drop_left, Option.ite_none_right_eq_some]
    rw [versionFrom?]
    cases hfound : if lineStart then versionHere? (c :: rest) else none with
    | some version =>
      refine ⟨fun _ h => ?_, nofun⟩
      obtain rfl := Option.some.inj h
      refine ⟨before.length, hhere.1 hfound, fun other found hother => ?_⟩
      by_contra hlt
      exact hbefore other (by omega) found hother
    | none =>
      -- No version begins here either, so the search may go on behind this character.
      have htext : before ++ c :: rest = (before ++ [c]) ++ rest := by simp
      rw [htext] at hbefore hhere ⊢
      refine ih (before ++ [c]) ?_ ?_
      · rw [List.length_append, List.length_singleton, isLineStart_succ]
        simp
      · intro offset hoffset version h
        rw [List.length_append, List.length_singleton] at hoffset
        rcases Nat.lt_or_eq_of_le (Nat.le_of_lt_succ hoffset) with hlt | rfl
        · exact hbefore offset hlt version h
        · rw [hhere.2 h] at hfound
          cases hfound

theorem versionIn?_spec (text : List Char) :
    (∀ version, versionIn? text = some version → ∃ offset, FirstVersion text offset version) ∧
    (versionIn? text = none → ∀ offset version, ¬ VersionAt text offset version) :=
  versionFrom?_spec [] text (by simp [isLineStart_zero]) nofun

theorem versionIn?_eq_some_iff :
    versionIn? text = some version ↔ ∃ offset, FirstVersion text offset version := by
  obtain ⟨hsome, hnone⟩ := versionIn?_spec text
  constructor
  · exact hsome version
  · rintro ⟨offset, h⟩
    cases hfound : versionIn? text with
    | none => exact absurd h.toVersionAt (hnone hfound offset version)
    | some found =>
      obtain ⟨other, hother⟩ := hsome found hfound
      rw [hother.unique h]

theorem versionIn?_eq_none_iff :
    versionIn? text = none ↔ ∀ offset version, ¬ VersionAt text offset version := by
  constructor
  · exact (versionIn?_spec text).2
  · intro h
    cases hfound : versionIn? text with
    | none => rfl
    | some version =>
      obtain ⟨offset, hfirst⟩ := versionIn?_eq_some_iff.1 hfound
      exact absurd hfirst.toVersionAt (h offset version)

/-- The version reaches to the next quote, even if it is that of another mark. -/
example : versionIn? "__version__ = \"a\n__version__ = \"b\"".toList
    = some "a\n__version__ = ".toList := by
  decide

theorem VersionAt.exists_first (h : VersionAt text offset version) :
    ∃ first found, FirstVersion text first found := by
  cases hfound : versionIn? text with
  | none => exact absurd h (versionIn?_eq_none_iff.1 hfound offset version)
  | some found =>
    obtain ⟨first, hfirst⟩ := versionIn?_eq_some_iff.1 hfound
    exact ⟨first, found, hfirst⟩

/-! ## Searching for the pattern -/

/-- The mark at the start of a line, a run without quotes, which is kept, and a quote. -/
def versionPattern : Pattern :=
  .lineStart :: (versionMark.map .char ++ [.run (· != '"'), .char '"'])

theorem matchAt?_versionPattern {kept : List (List Char)} :
    versionPattern.matchAt? text offset = some kept ↔
      ∃ version, VersionAt text offset version ∧ kept = [version] := by
  rw [versionPattern, Pattern.matchAt?_lineStart, Pattern.matchAt?_word,
    Pattern.matchAt?_run_char rfl]
  constructor
  · rintro ⟨hstart, ⟨rest, hrest⟩, version, after, hafter, hne, hrun, rfl⟩
    rw [← List.drop_drop, ← hrest, List.drop_left] at hafter
    have hquote : '"' ∉ version := fun hmem => by simpa using hrun _ hmem
    exact ⟨version, ⟨hstart, hne, hquote, after, by rw [← hrest, hafter, List.append_assoc]⟩, rfl⟩
  · rintro ⟨version, h, rfl⟩
    obtain ⟨after, hafter⟩ := h.drop_eq
    obtain ⟨rest, hrest⟩ := h.begins.written
    refine ⟨h.lineStart, ⟨version ++ '"' :: rest, ?_⟩, version, after, hafter, h.begins.ne_nil,
      forall_bne_of_not_mem h.begins.quote_not_mem, rfl⟩
    rw [hrest, List.append_assoc]

theorem matchAt?_versionPattern_eq_none (h : ∀ version, ¬ VersionAt text offset version) :
    versionPattern.matchAt? text offset = none := by
  rw [Option.eq_none_iff_forall_ne_some]
  intro kept hmatch
  obtain ⟨version, hversion, -⟩ := matchAt?_versionPattern.1 hmatch
  exact h version hversion

/-- Looking for the version line is searching for the version pattern. -/
theorem search?_versionPattern (text : List Char) :
    versionPattern.search? text = (versionIn? text).map fun version => [version] := by
  cases hfound : versionIn? text with
  | none =>
    rw [Option.map_none, Pattern.search?_eq_none_iff]
    intro offset _
    exact matchAt?_versionPattern_eq_none (versionIn?_eq_none_iff.1 hfound offset)
  | some version =>
    obtain ⟨offset, hfirst⟩ := versionIn?_eq_some_iff.1 hfound
    have hlt := hfirst.lt_length
    have hmatch := matchAt?_versionPattern.2 ⟨version, hfirst.toVersionAt, rfl⟩
    have hbefore : ∀ other < offset, versionPattern.matchAt? text other = none :=
      fun other hother => matchAt?_versionPattern_eq_none (hfirst.not_versionAt hother)
    exact Pattern.search?_eq_some_iff.2 ⟨offset, by omega, hmatch, hbefore⟩

/-! ## Lines without a version -/

/-- Lines in which no version begins can be left out at the front. -/
theorem versionIn?_append_lineFeed {front later : List Char}
    (h : ∀ offset ≤ front.length, ∀ version, ¬ VersionAt (front ++ '\n' :: later) offset version) :
    versionIn? (front ++ '\n' :: later) = versionIn? later := by
  apply Option.ext
  intro version
  rw [versionIn?_eq_some_iff, versionIn?_eq_some_iff]
  constructor
  · rintro ⟨offset, hfirst⟩
    obtain ⟨offset, rfl⟩ : ∃ place, offset = front.length + 1 + place := by
      refine Nat.exists_eq_add_of_le ?_
      by_contra hlt
      exact h offset (by omega) version hfirst.toVersionAt
    refine ⟨offset, VersionAt.append_lineFeed_iff.1 hfirst.toVersionAt, ?_⟩
    intro other found hother
    have hle := hfirst.least _ found (VersionAt.append_lineFeed_iff.2 hother)
    omega
  · rintro ⟨offset, hfirst⟩
    refine ⟨_, VersionAt.append_lineFeed_iff.2 hfirst.toVersionAt, fun other found hother => ?_⟩
    rcases Nat.lt_or_ge front.length other with hlt | hle
    · obtain ⟨other, rfl⟩ := Nat.exists_eq_add_of_le (Nat.succ_le_of_lt hlt)
      have hle := hfirst.least other found (VersionAt.append_lineFeed_iff.1 hother)
      exact Nat.add_le_add_left hle _
    · exact absurd hother (h other hle found)

/-- No version begins in a line that does not begin with the mark, or begins with an empty version,
    whatever else stands in it. -/
theorem not_versionAt_line {before line later : List Char} (hline : '\n' ∉ line)
    (hmark : versionMark <+: line → versionMark ++ ['"'] <+: line) (hle : before.length ≤ offset)
    (hlt : offset ≤ (before ++ line).length) :
    ¬ VersionAt (before ++ line ++ '\n' :: later) offset version := by
  intro ⟨hstart, hne, hquote, rest, hrest⟩
  rcases Nat.eq_or_lt_of_le hle with rfl | hinside
  · rw [List.append_assoc, List.drop_left, List.append_assoc versionMark] at hrest
    have hprefix : versionMark <+: line :=
      prefix_of_prefix_append_cons (by decide) (hrest ▸ List.prefix_append versionMark _)
    obtain ⟨tail, rfl⟩ := hmark hprefix
    rw [List.append_assoc, List.append_assoc, List.append_cancel_left_eq] at hrest
    have hempty := (append_cons_inj_of_first (a := []) (by simp) hquote).1 hrest
    exact hne hempty.1.symm
  · obtain ⟨place, rfl⟩ := Nat.exists_eq_add_of_lt hinside
    rw [isLineStart_succ, List.append_assoc, List.getElem?_append_right (Nat.le_add_right _ _),
      Nat.add_sub_cancel_left, List.getElem?_append_left (by simp at hlt; omega)] at hstart
    exact hline (List.mem_of_getElem? hstart)

/-! ## Manifests -/

theorem version_ofTree_of_missing {tree : SourceTree} (h : tree.readLines? versionFile = none) :
    (Manifest.ofTree tree).version = "0.1.0" := by
  show tree.version = _
  rw [SourceTree.version, h]
  rfl

theorem version_ofTree_of_readLines {tree : SourceTree}
    (h : tree.readLines? versionFile = some text) :
    (Manifest.ofTree tree).version = ((versionIn? text).map String.ofList).getD "0.1.0" := by
  show tree.version = _
  rw [SourceTree.version, h]
  rfl

def versionTree (stored : String) : SourceTree :=
  .ofPaths [("lox/__init__.py", stored)]

theorem readLines?_versionTree (stored : String) :
    (versionTree stored).readLines? versionFile = some (unifyLineEndings stored.toList) := by
  have hpath : normalParts "lox/__init__.py" = versionFile := by decide +kernel
  simp [versionTree, SourceTree.ofPaths, SourceTree.readLines?, SourceTree.read?, hpath]

/-- The version in the manifest is what a search for the version pattern keeps, which is the first
    version in the version file.  It does not change with what is appended to a file that has one,
    nor if the front of the file is dropped up to the end of a line, as long as no version begins
    there.  None begins in a line that begins with an empty version, or not with the mark. -/
theorem version_ofTree (tree : SourceTree) :
    (tree.readLines? versionFile = none → (Manifest.ofTree tree).version = "0.1.0") ∧
    ∀ text, tree.readLines? versionFile = some text →
      (Manifest.ofTree tree).version
        = (((versionPattern.search? text).bind List.head?).map String.ofList).getD "0.1.0" ∧
      (∀ offset version, FirstVersion text offset version →
        (Manifest.ofTree tree).version = String.ofList version) ∧
      ((∀ offset version, ¬ VersionAt text offset version) →
        (Manifest.ofTree tree).version = "0.1.0") ∧
      (∀ after other, (∃ offset version, VersionAt text offset version) →
        other.readLines? versionFile = some (text ++ after) →
          (Manifest.ofTree other).version = (Manifest.ofTree tree).version) ∧
      (∀ before line later other, text = before ++ line ++ '\n' :: later → '\n' ∉ line →
        (versionMark <+: line → versionMark ++ ['"'] <+: line) →
        (∀ offset < before.length, ∀ version, ¬ VersionAt text offset version) →
        other.readLines? versionFile = some later →
          (Manifest.ofTree other).version = (Manifest.ofTree tree).version) ∧
      ((∀ offset, IsLineStart text offset → ¬ versionMark <+: text.drop offset) →
        (Manifest.ofTree tree).version = "0.1.0") := by
  refine ⟨version_ofTree_of_missing, fun text htext => ?_⟩
  have hversion := version_ofTree_of_readLines htext
  have hnone (h : ∀ offset version, ¬ VersionAt text offset version) :
      (Manifest.ofTree tree).version = "0.1.0" := by
    rw [hversion, versionIn?_eq_none_iff.2 h]
    rfl
  refine ⟨?_, ?_, hnone, ?_, ?_, ?_⟩
  · rw [hversion, search?_versionPattern]
    cases versionIn? text <;> rfl
  · intro offset version hfirst
    rw [hversion, versionIn?_eq_some_iff.2 ⟨offset, hfirst⟩]
    rfl
  · intro after other ⟨offset, version, h⟩ hother
    obtain ⟨first, found, hfirst⟩ := h.exists_first
    rw [hversion, version_ofTree_of_readLines hother, versionIn?_eq_some_iff.2 ⟨first, hfirst⟩,
      versionIn?_eq_some_iff.2 ⟨first, hfirst.append after⟩]
  · rintro before line later other rfl hline hmark hbefore hother
    rw [hversion, version_ofTree_of_readLines hother, versionIn?_append_lineFeed]
    intro offset hle version h
    rcases Nat.lt_or_ge offset before.length with hlt | hge
    · exact hbefore offset hlt version h
    · exact not_versionAt_line hline hmark hge hle h
  · intro h
    refine hnone fun offset version hversion => h offset hversion.lineStart ?_
    obtain ⟨after, hafter⟩ := hversion.begins.written
    rw [hafter, List.append_assoc]
    exact List.prefix_append versionMark _

/-- An empty version and one over two lines; with more text behind them, and without the first line.
    A mark within a line, and no file at all. -/
theorem version_ofTree_second_line :
    let text := "__version__ = \"\"\n__version__ = \"a\nb\"".toList
    let tree := versionTree "__version__ = \"\"\r\n__version__ = \"a\rb\""
    let longer := versionTree "__version__ = \"\"\n__version__ = \"a\nb\"\n__version__ = \"c\""
    let shorter := versionTree "__version__ = \"a\nb\""
    let indented := versionTree " __version__ = \"a\""
    (tree.readLines? versionFile = some text ∧ FirstVersion text 17 "a\nb".toList ∧
      (Manifest.ofTree tree).version = "a\nb") ∧
    (Manifest.ofTree longer).version = (Manifest.ofTree tree).version ∧
    (Manifest.ofTree shorter).version = (Manifest.ofTree tree).version ∧
    (Manifest.ofTree indented).version = "0.1.0" ∧ (Manifest.ofTree ⟨[]⟩).version = "0.1.0" := by
  intro text tree longer shorter indented
  have hread : tree.readLines? versionFile = some text :=
    (readLines?_versionTree _).trans (by decide +kernel)
  have hlonger : longer.readLines? versionFile = some (text ++ "\n__version__ = \"c\"".toList) :=
    (readLines?_versionTree _).trans (by decide +kernel)
  have hshorter : shorter.readLines? versionFile = some "__version__ = \"a\nb\"".toList :=
    (readLines?_versionTree _).trans (by decide +kernel)
  have htext : text = [] ++ "__version__ = \"\"".toList
      ++ '\n' :: "__version__ = \"a\nb\"".toList := by
    decide +kernel
  have hindented : indented.readLines? versionFile = some " __version__ = \"a\"".toList :=
    (readLines?_versionTree _).trans (by decide +kernel)
  have hfirst : FirstVersion text 17 "a\nb".toList := by decide
  obtain ⟨-, hversion, -, happend, hlater, -⟩ := (version_ofTree tree).2 text hread
  obtain ⟨-, -, -, -, -, helsewhere⟩ := (version_ofTree indented).2 _ hindented
  refine ⟨⟨hread, hfirst, hversion 17 _ hfirst⟩, ?_, ?_, ?_, ?_⟩
  · exact happend _ longer ⟨17, _, hfirst.toVersionAt⟩ hlonger
  · exact hlater _ _ _ shorter htext (by decide) (by decide) nofun hshorter
  · refine helsewhere fun offset hstart hmark => ?_
    rcases hstart with rfl | hstart
    · revert hmark
      decide
    · exact absurd (List.mem_of_getElem? hstart) (by decide)
  · exact (version_ofTree ⟨[]⟩).1 rfl

end LoxScan
