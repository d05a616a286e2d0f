import LoxScan.Proofs.Utf8
import LoxScan.SourceFile

/-! # The text of a source file

A file is tokenized like the text that it holds, whichever way its lines end.  Bytes that are no
text are refused, whatever comes before them.

* `LineEnding.write` writes a text with one of the three line endings, and `unifyLineEndings_write`
  reads it back.
* `decodeText_write` puts this together with the bytes of the text.
* `FileSystem.tokenizeFile_write`: the tokens or the error of a file are those of its text, and
  exactly bytes that no text is written with are undecodable.
-/

namespace LoxScan

/-! ## Line endings -/

inductive LineEnding where
  | lineFeed
  | returnAndLineFeed
  | carriageReturn
deriving DecidableEq, Repr

namespace LineEnding

def chars : LineEnding → List Char
  | lineFeed => ['\n']
  | returnAndLineFeed => ['\r', '\n']
  | carriageReturn => ['\r']

def write (ending : LineEnding) (text : List Char) : List Char :=
  text.flatMap fun c => if c = '\n' then ending.chars else [c]

theorem write_cons (ending : LineEnding) (c : Char) (text : List Char) :
    ending.write (c :: text) = (if c = '\n' then ending.chars else [c]) ++ ending.write text :=
  List.flatMap_cons

theorem lineFeed_not_mem_write (text : List Char) : '\n' ∉ carriageReturn.write text := by
  intro hmem
  obtain ⟨c, -, hc⟩ := List.mem_flatMap.1 hmem
  split at hc
  case isTrue => simp [chars] at hc
  case isFalse hne => exact hne (List.mem_singleton.1 hc).symm

end LineEnding

theorem unifyLineEndings_cons {c : Char} (hc : c ≠ '\r') (rest : List Char) :
    unifyLineEndings (c :: rest) = c :: unifyLineEndings rest := by
  rw [unifyLineEndings, if_neg hc]
  simp [hc]

theorem unifyLineEndings_return {rest : List Char} (h : '\n' ∉ rest) :
    unifyLineEndings ('\r' :: rest) = '\n' :: unifyLineEndings rest := by
  rw [unifyLineEndings, if_pos rfl]
  rintro after - rfl
  simp at h

/-- All ways to end a line read alike, in a text without carriage returns of its own. -/
theorem unifyLineEndings_write (ending : LineEnding) {text : List Char} (h : '\r' ∉ text) :
    unifyLineEndings (ending.write text) = text := by
  induction text with
  | nil => rfl
  | cons c text ih =>
    obtain ⟨hc, htext⟩ := not_or.1 (fun hor => h (List.mem_cons.2 hor))
    have ih := ih htext
    rw [LineEnding.write_cons]
    by_cases hline : c = '\n'
    · subst hline
      rw [if_pos rfl]
      cases ending with
      | lineFeed => exact (unifyLineEndings_cons (by decide) _).trans (congrArg _ ih)
      | returnAndLineFeed =>
        show '\n' :: unifyLineEndings (LineEnding.returnAndLineFeed.write text) = _
        rw [ih]
      | carriageReturn =>
        have hrest := LineEnding.lineFeed_not_mem_write text
        exact (unifyLineEndings_return hrest).trans (congrArg _ ih)
    · rw [if_neg hline, List.singleton_append, unifyLineEndings_cons (Ne.symm hc), ih]

/-! ## Bytes -/

theorem decodeText_write (ending : LineEnding) {text : String} (h : '\r' ∉ text.toList) :
    decodeText (encodeUtf8 (ending.write text.toList)) = .ok text := by
  rw [decodeText, decodeUtf8_eq_ok_iff.2 rfl]
  show Except.ok (String.ofList (unifyLineEndings (ending.write text.toList))) = _
  rw [unifyLineEndings_write ending h, String.ofList_toList]

/-! ## Files -/

namespace FileSystem

variable {files : FileSystem} {name : String} {bytes : List UInt8}

theorem tokenizeFile_of_decodeText {source : String} (hread : files.read name = .ok bytes)
    (hdecode : decodeText bytes = .ok source) :
    files.tokenizeFile name = (tokenizeText source (some name)).mapError .lexical := by
  rw [tokenizeFile, hread]
  dsimp only
  rw [hdecode]

/-- A text is tokenized, which gives no failure but lexical errors. -/
theorem tokenizeFile_eq_undecodable_iff (hread : files.read name = .ok bytes) (fault : Utf8Fault) :
    files.tokenizeFile name = .error (.undecodable fault) ↔ decodeUtf8 bytes = .error fault := by
  rw [tokenizeFile, hread]
  dsimp only
  rw [decodeText]
  cases decodeUtf8 bytes with
  | error found => simp
  | ok text =>
    dsimp only
    cases tokenizeText (String.ofList (unifyLineEndings text)) (some name) with
    | error error => simp [Except.mapError]
    | ok tokens => simp [Except.mapError]

/-- A file gives the tokens, or the error, of the text that it holds, whatever its name is and
    whichever way its lines end.  Bytes are undecodable exactly if no text is written with them,
    whatever errors there are in the text before the place where they go wrong. -/
theorem tokenizeFile_write (files : FileSystem) (name : String) :
    (∀ (ending : LineEnding) (text : String), '\r' ∉ text.toList →
      files.read name = .ok (encodeUtf8 (ending.write text.toList)) →
        files.tokenizeFile name = (tokenizeText text (some name)).mapError .lexical) ∧
    ∀ bytes, files.read name = .ok bytes →
      ((∃ fault, files.tokenizeFile name = .error (.undecodable fault)) ↔
        ∀ text, bytes ≠ encodeUtf8 text) := by
  constructor
  · intro ending text h hread
    exact tokenizeFile_of_decodeText hread (decodeText_write ending h)
  · intro bytes hread
    simp only [tokenizeFile_eq_undecodable_iff hread]
    constructor
    · rintro ⟨fault, hfault⟩ text htext
      rw [decodeUtf8_eq_ok_iff.2 htext] at hfault
      cases hfault
    · intro hnone
      cases hdecode : decodeUtf8 bytes with
      | error fault => exact ⟨fault, rfl⟩
      | ok text => exact absurd (decodeUtf8_eq_ok_iff.1 hdecode) (hnone text)

def ofFiles (listed : List (String × List UInt8)) : FileSystem where
  read name :=
    match listed.lookup name with
    | some bytes => .ok bytes
    | none => .error (.missingFile name)

/-- A string over two lines with a character of three bytes, a rejected character on the second of
    two lines, and one before a byte that begins nothing. -/
theorem tokenizeFile_write_lines :
    let hello := [0x22, 0x0D, 0x0A, 0xE2, 0x82, 0xAC, 0x22]
    let files := ofFiles [("/tmp/tests/hello.lox", hello), ("examples/at.lox", [0x31, 0x0D, 0x40]),
      ("../examples/broken.lox", [0x40, 0xFF])]
    files.read "/tmp/tests/hello.lox" = .ok hello ∧
      files.tokenizeFile "/tmp/tests/hello.lox"
        = (tokenizeText "\"\n€\"" (some "/tmp/tests/hello.lox")).mapError .lexical ∧
      files.read "examples/at.lox" = .ok [0x31, 0x0D, 0x40] ∧
      files.tokenizeFile "examples/at.lox"
        = (tokenizeText "1\n@" (some "examples/at.lox")).mapError .lexical ∧
      files.read "../examples/broken.lox" = .ok [0x40, 0xFF] ∧
      ∃ fault, files.tokenizeFile "../examples/broken.lox" = .error (.undecodable fault) := by
  intro hello files
  obtain ⟨hhello, -⟩ := tokenizeFile_write files "/tmp/tests/hello.lox"
  obtain ⟨hat, -⟩ := tokenizeFile_write files "examples/at.lox"
  obtain ⟨-, hbroken⟩ := tokenizeFile_write files "../examples/broken.lox"
  refine ⟨rfl, hhello .returnAndLineFeed "\"\n€\"" (by decide) rfl, rfl,
    hat .carriageReturn "1\n@" (by decide) rfl, rfl, (hbroken _ rfl).2 fun text htext => ?_⟩
  have hdecode := decodeUtf8_eq_ok_iff.2 htext
  cases hdecode

end FileSystem

end LoxScan
