import Mathlib.Data.List.Basic
import LoxScan.Text.Utf8

/-! # Writing and reading UTF-8

Decoding takes exactly the bytes that a text is written with.

* `encodeUtf8` writes a text, character by character.
* `CharBytes` is the table of the byte sequences that stand for one character: those that characters
  are written with (`charBytes_encode`), and no others (`CharBytes.encode_eq`).
* `Spells` says which bytes lead the machine from a state to the end of one character.  From outside
  of a sequence these are the ones of the table (`spells_iff`).
* `decodeUtf8_eq_ok_iff`: what is decoded to a text is what that text is written with.
-/

namespace LoxScan

def encodeUtf8 (text : List Char) : List UInt8 :=
  text.flatMap String.utf8EncodeChar

/-! ## The bytes of one character -/

/-- The well formed sequences with the code points that they stand for.  Behind the lead byte each
    byte adds six bits.  The conditions on `d` keep out longer spellings of short sequences,
    surrogates and code points past the last one. -/
inductive CharBytes : List UInt8 → Nat → Prop
  | one {n : Nat} (hn : n < 0x80) : CharBytes [UInt8.ofNat n] n
  | two {v d : Nat} (hv : 2 ≤ v ∧ v < 0x20) (hd : d < 0x40) :
      CharBytes [UInt8.ofNat (v + 0xC0), UInt8.ofNat (d + 0x80)] (v * 0x40 + d)
  | three {v d e : Nat} (hv : v < 0x10) (hd : d < 0x40) (hlong : v = 0 → 0x20 ≤ d)
      (hsurrogate : v = 0xD → d < 0x20) (he : e < 0x40) :
      CharBytes [UInt8.ofNat (v + 0xE0), UInt8.ofNat (d + 0x80), UInt8.ofNat (e + 0x80)]
        ((v * 0x40 + d) * 0x40 + e)
  | four {v d e f : Nat} (hv : v < 5) (hd : d < 0x40) (hlong : v = 0 → 0x10 ≤ d)
      (hlast : v = 4 → d < 0x10) (he : e < 0x40) (hf : f < 0x40) :
      CharBytes [UInt8.ofNat (v + 0xF0), UInt8.ofNat (d + 0x80), UInt8.ofNat (e + 0x80),
        UInt8.ofNat (f + 0x80)] (((v * 0x40 + d) * 0x40 + e) * 0x40 + f)

theorem CharBytes.isValidChar {bytes : List UInt8} {n : Nat} (h : CharBytes bytes n) :
    n.isValidChar := by
  unfold Nat.isValidChar
  cases h <;> omega

theorem CharBytes.encode_eq {bytes : List UInt8} {n : Nat} (h : CharBytes bytes n) :
    String.utf8EncodeChar (Char.ofNat n) = bytes := by
  have hval : (Char.ofNat n).val.toNat = n := by
    rw [Char.ofNat, dif_pos h.isValidChar]
    rfl
  rw [String.utf8EncodeChar, hval]
  cases h with
  | one hn => rw [if_pos (by omega)]
  | @two v d hv hd =>
    have hhigh : (v * 0x40 + d) / 0x40 % 0x20 = v := by omega
    have hlow : (v * 0x40 + d) % 0x40 = d := by omega
    rw [if_neg (by omega), if_pos (by omega), hhigh, hlow]
  | @three v d e hv hd hlong hsurrogate he =>
    have hhigh : ((v * 0x40 + d) * 0x40 + e) / 0x1000 % 0x10 = v := by omega
    have hmid : ((v * 0x40 + d) * 0x40 + e) / 0x40 % 0x40 = d := by omega
    have hlow : ((v * 0x40 + d) * 0x40 + e) % 0x40 = e := by omega
    rw [if_neg (by omega), if_neg (by omega), if_pos (by omega), hhigh, hmid, hlow]
  | @four v d e f hv hd hlong hlast he hf =>
    have hhigh : (((v * 0x40 + d) * 0x40 + e) * 0x40 + f) / 0x40000 % 8 = v := by omega
    have hmid : (((v * 0x40 + d) * 0x40 + e) * 0x40 + f) / 0x1000 % 0x40 = d := by omega
    have hnext : (((v * 0x40 + d) * 0x40 + e) * 0x40 + f) / 0x40 % 0x40 = e := by omega
    have hlow : (((v * 0x40 + d) * 0x40 + e) * 0x40 + f) % 0x40 = f := by omega
    rw [if_neg (by omega), if_neg (by omega), if_neg (by omega), hhigh, hmid, hnext, hlow]

theorem charBytes_encode (c : Char) : CharBytes (String.utf8EncodeChar c) c.toNat := by
  obtain ⟨n, hn⟩ : ∃ n, c.val.toNat = n := ⟨_, rfl⟩
  have hvalid : n.isValidChar := hn ▸ c.valid
  have hvalue : c.toNat = n := hn
  unfold Nat.isValidChar at hvalid
  rw [hvalue, String.utf8EncodeChar, hn]
  -- The digits of the code point to base `0x40` fill the bytes, as many as are needed.
  by_cases hone : n ≤ 0x7F
  · rw [if_pos hone]
    exact .one (by omega)
  by_cases htwo : n ≤ 0x7FF
  · have hsum : n / 0x40 % 0x20 * 0x40 + n % 0x40 = n := by omega
    have hbytes := CharBytes.two (v := n / 0x40 % 0x20) (d := n % 0x40) (by omega) (by omega)
    rw [if_neg hone, if_pos htwo]
    rwa [hsum] at hbytes
  by_cases hthree : n ≤ 0xFFFF
  · have hsum : (n / 0x1000 % 0x10 * 0x40 + n / 0x40 % 0x40) * 0x40 + n % 0x40 = n := by omega
    have hbytes := CharBytes.three (v := n / 0x1000 % 0x10) (d := n / 0x40 % 0x40) (e := n % 0x40)
      (by omega) (by omega) (by omega) (by omega) (by omega)
    rw [if_neg hone, if_neg htwo, if_pos hthree]
    rwa [hsum] at hbytes
  · have hsum : ((n / 0x40000 % 8 * 0x40 + n / 0x1000 % 0x40) * 0x40 + n / 0x40 % 0x40) * 0x40
        + n % 0x40 = n := by omega
    have hbytes := CharBytes.four (v := n / 0x40000 % 8) (d := n / 0x1000 % 0x40)
      (e := n / 0x40 % 0x40) (f := n % 0x40) (by omega) (by omega) (by omega) (by omega) (by omega)
      (by omega)
    rw [if_neg hone, if_neg htwo, if_neg hthree]
    rwa [hsum] at hbytes

/-! ## The machine on one character -/

theorem leadByte?_two {v : Nat} (h : 2 ≤ v ∧ v < 0x20) :
    leadByte? (UInt8.ofNat (v + 0xC0)) = some (v, 1, 0x80, 0xBF) := by
  have hall : ∀ v < 0x20,
      v < 2 ∨ leadByte? (UInt8.ofNat (v + 0xC0)) = some (v, 1, 0x80, 0xBF) := by
    decide +kernel
  exact (hall v h.2).resolve_left (by omega)

theorem leadByte?_three : ∀ v < 0x10, leadByte? (UInt8.ofNat (v + 0xE0)) =
    some (v, 2, if v = 0 then 0xA0 else 0x80, if v = 0xD then 0x9F else 0xBF) := by
  decide +kernel

theorem leadByte?_four : ∀ v < 5, leadByte? (UInt8.ofNat (v + 0xF0)) =
    some (v, 3, if v = 0 then 0x90 else 0x80, if v = 4 then 0x8F else 0xBF) := by
  decide +kernel

theorem exists_of_leadByte? {b : UInt8} (h : leadByte? b ≠ none) :
    (∃ v, (2 ≤ v ∧ v < 0x20) ∧ b = UInt8.ofNat (v + 0xC0)) ∨
      (∃ v < 0x10, b = UInt8.ofNat (v + 0xE0)) ∨ ∃ v < 5, b = UInt8.ofNat (v + 0xF0) := by
  have hall : ∀ n < 256, leadByte? (UInt8.ofNat n) ≠ none →
      (0xC2 ≤ n ∧ n < 0xE0) ∨ (0xE0 ≤ n ∧ n < 0xF0) ∨ (0xF0 ≤ n ∧ n < 0xF5) := by
    decide +kernel
  have hrange := hall b.toNat b.toNat_lt
  rw [UInt8.ofNat_toNat] at hrange
  have hsub (n : Nat) (hn : n ≤ b.toNat) : b = UInt8.ofNat (b.toNat - n + n) := by
    rw [Nat.sub_add_cancel hn, UInt8.ofNat_toNat]
  obtain hn | hn | hn := hrange h
  · exact .inl ⟨b.toNat - 0xC0, by omega, hsub _ (by omega)⟩
  · exact .inr (.inl ⟨b.toNat - 0xE0, by omega, hsub _ (by omega)⟩)
  · exact .inr (.inr ⟨b.toNat - 0xF0, by omega, hsub _ (by omega)⟩)

/-- The bytes that lead the machine from a state to the end of one character. -/
inductive Spells : Nat → Option Utf8Sequence → List UInt8 → Char → Prop
  | complete {offset : Nat} {state : Option Utf8Sequence} {b : UInt8} {c : Char}
      (h : state.elim (beginSequence offset b) (continueSequence · b) = .complete c) :
      Spells offset state [b] c
  | pending {offset : Nat} {state : Option Utf8Sequence} {b : UInt8} {s : Utf8Sequence}
      {tail : List UInt8} {c : Char}
      (h : state.elim (beginSequence offset b) (continueSequence · b) = .pending s)
      (htail : Spells (offset + 1) (some s) tail c) : Spells offset state (b :: tail) c

section Spells

variable {offset : Nat} {c : Char} {bytes : List UInt8}

theorem Spells.length_pos {state : Option Utf8Sequence} (h : Spells offset state bytes c) :
    0 < bytes.length := by
  cases h <;> simp

theorem spells_cons {state : Option Utf8Sequence} {b : UInt8} {tail : List UInt8} :
    Spells offset state (b :: tail) c ↔
      match state.elim (beginSequence offset b) (continueSequence · b) with
      | .complete d => tail = [] ∧ c = d
      | .pending s => Spells (offset + 1) (some s) tail c
      | .faulty _ => False := by
  constructor
  · intro h
    cases h with
    | complete h =>
      rw [h]
      exact ⟨rfl, rfl⟩
    | pending h htail =>
      rw [h]
      exact htail
  · split
    · rintro ⟨rfl, rfl⟩
      exact .complete ‹_›
    · exact .pending ‹_›
    · exact False.elim

def Utf8Sequence.grown (s : Utf8Sequence) (d : Nat) : Utf8Sequence :=
  ⟨s.offset, s.firstByte, s.size + 1, s.value * 0x40 + d, s.missing - 1, 0x80, 0xBF⟩

/-- The six bits that the next byte may add. -/
def Utf8Sequence.Admits (s : Utf8Sequence) (d : Nat) : Prop :=
  s.low.toNat ≤ d + 0x80 ∧ d + 0x80 ≤ s.high.toNat

theorem continueSequence_of_admits {s : Utf8Sequence} {d : Nat} (h : s.Admits d) :
    continueSequence s (UInt8.ofNat (d + 0x80)) =
      if s.missing ≤ 1 then .complete (Char.ofNat (s.value * 0x40 + d))
      else .pending (s.grown d) := by
  have hhigh := s.high.toNat_lt
  have hd : (UInt8.ofNat (d + 0x80)).toNat = d + 0x80 := by
    rw [UInt8.toNat_ofNat', Nat.mod_eq_of_lt (by have := h.2; omega)]
  rw [continueSequence, if_pos]
  · simp only [hd, Nat.add_sub_cancel]
    rfl
  · simp only [UInt8.le_iff_toNat_le, hd]
    exact h

/-- Inside of a sequence the next byte adds six bits that the sequence admits. -/
theorem exists_admits_of_spells {s : Utf8Sequence} (hlow : 0x80 ≤ s.low)
    (h : Spells offset (some s) bytes c) :
    ∃ d tail, s.Admits d ∧ bytes = UInt8.ofNat (d + 0x80) :: tail := by
  rcases bytes with _ | ⟨b, tail⟩
  · cases h
  · have hmove := spells_cons.1 h
    by_cases hb : s.low ≤ b ∧ b ≤ s.high
    · simp only [UInt8.le_iff_toNat_le] at hb hlow
      have hsub : b.toNat - 0x80 + 0x80 = b.toNat := Nat.sub_add_cancel (Nat.le_trans hlow hb.1)
      refine ⟨b.toNat - 0x80, tail, ?_, ?_⟩
      · rw [Utf8Sequence.Admits, hsub]
        exact hb
      · rw [hsub, UInt8.ofNat_toNat]
    · rw [Option.elim_some, continueSequence, if_neg hb] at hmove
      cases hmove

theorem spells_some_cons {s : Utf8Sequence} {d : Nat} {tail : List UInt8} (hd : s.Admits d) :
    Spells offset (some s) (UInt8.ofNat (d + 0x80) :: tail) c ↔
      if s.missing ≤ 1 then tail = [] ∧ c = Char.ofNat (s.value * 0x40 + d)
      else Spells (offset + 1) (some (s.grown d)) tail c := by
  rw [spells_cons, Option.elim_some, continueSequence_of_admits hd]
  by_cases hmissing : s.missing ≤ 1 <;> simp [hmissing]

theorem admits_grown {s : Utf8Sequence} {d e : Nat} : (s.grown d).Admits e ↔ e < 0x40 := by
  show 0x80 ≤ e + 0x80 ∧ e + 0x80 ≤ 0xBF ↔ e < 0x40
  omega

def tailBytes (digits : List Nat) : List UInt8 :=
  digits.map fun d => UInt8.ofNat (d + 0x80)

def tailValue (v : Nat) (digits : List Nat) : Nat :=
  digits.foldl (fun v d => v * 0x40 + d) v

/-- Inside of a sequence the machine comes to the end of a character with as many bytes as are
    missing.  Only the first of them has bounds of its own. -/
theorem spells_some_iff {s : Utf8Sequence} (hlow : 0x80 ≤ s.low) (hmissing : 1 ≤ s.missing) :
    Spells offset (some s) bytes c ↔ ∃ d digits, s.Admits d ∧ (∀ e ∈ digits, e < 0x40) ∧
      digits.length + 1 = s.missing ∧ bytes = tailBytes (d :: digits) ∧
      c = Char.ofNat (tailValue s.value (d :: digits)) := by
  induction hsize : s.missing generalizing s offset bytes with
  | zero => omega
  | succ missing ih =>
    constructor
    · intro h
      obtain ⟨d, tail, hd, rfl⟩ := exists_admits_of_spells hlow h
      rw [spells_some_cons hd] at h
      split at h
      case isTrue hlast =>
        obtain ⟨rfl, rfl⟩ := h
        exact ⟨d, [], hd, by simp, by simp; omega, rfl, rfl⟩
      case isFalse hmore =>
        have hnext : (s.grown d).missing = missing := by simp [Utf8Sequence.grown, hsize]
        obtain ⟨e, digits, he, hdigits, hlength, rfl, rfl⟩ :=
          (ih (s := s.grown d) (UInt8.le_refl _) (by omega) hnext).1 h
        rw [admits_grown] at he
        exact ⟨d, e :: digits, hd, List.forall_mem_cons.2 ⟨he, hdigits⟩, by simp; omega, rfl, rfl⟩
    · rintro ⟨d, digits, hd, hdigits, hlength, rfl, rfl⟩
      rw [tailBytes, List.map_cons, spells_some_cons hd]
      cases digits with
      | nil =>
        rw [if_pos (by simp at hlength; omega)]
        exact ⟨rfl, rfl⟩
      | cons e digits =>
        have hnext : (s.grown d).missing = missing := by simp [Utf8Sequence.grown, hsize]
        obtain ⟨he, hdigits⟩ := List.forall_mem_cons.1 hdigits
        rw [List.length_cons] at hlength
        rw [if_neg (by omega), ih (s := s.grown d) (UInt8.le_refl _) (by omega) hnext]
        exact ⟨e, digits, admits_grown.2 he, hdigits, by omega, rfl, rfl⟩

/-! ### One character from outside of a sequence -/

theorem spells_ascii {b : UInt8} {tail : List UInt8} (hb : b < 0x80) :
    Spells offset none (b :: tail) c ↔ tail = [] ∧ c = Char.ofNat b.toNat := by
  rw [spells_cons, Option.elim_none, beginSequence, if_pos hb]

theorem spells_lead {b : UInt8} {tail : List UInt8} {v missing : Nat} {low high : UInt8}
    (hb : ¬ b < 0x80) (hlead : leadByte? b = some (v, missing, low, high)) :
    Spells offset none (b :: tail) c ↔
      Spells (offset + 1) (some ⟨offset, b, 1, v, missing, low, high⟩) tail c := by
  rw [spells_cons, Option.elim_none, beginSequence, if_neg hb, hlead]

theorem leadByte?_ne_none_of_spells {b : UInt8} {tail : List UInt8} (hb : ¬ b < 0x80)
    (h : Spells offset none (b :: tail) c) : leadByte? b ≠ none := by
  intro hlead
  rw [spells_cons, Option.elim_none, beginSequence, if_neg hb, hlead] at h
  exact h

theorem not_lt_of_lead {v base : Nat} (hbase : 0x80 ≤ base) (h : v + base < 0x100) :
    ¬ UInt8.ofNat (v + base) < 0x80 := by
  rw [UInt8.lt_iff_toNat_lt, UInt8.toNat_ofNat', Nat.mod_eq_of_lt (by omega)]
  show ¬ v + base < 0x80
  omega

theorem spells_two {v : Nat} {tail : List UInt8} (hv : 2 ≤ v ∧ v < 0x20) :
    Spells offset none (UInt8.ofNat (v + 0xC0) :: tail) c ↔
      ∃ d, d < 0x40 ∧ tail = [UInt8.ofNat (d + 0x80)] ∧ c = Char.ofNat (v * 0x40 + d) := by
  have hadmits (d : Nat) : 0x80 ≤ d + 0x80 ∧ d + 0x80 ≤ 0xBF ↔ d < 0x40 := by omega
  rw [spells_lead (not_lt_of_lead (by omega) (by omega)) (leadByte?_two hv),
    spells_some_iff (UInt8.le_refl _) (Nat.le_refl 1)]
  constructor
  · rintro ⟨d, digits, hd, -, hlength, rfl, rfl⟩
    obtain rfl := List.length_eq_zero_iff.1 (Nat.succ.inj hlength)
    exact ⟨d, (hadmits d).1 hd, rfl, rfl⟩
  · rintro ⟨d, hd, rfl, rfl⟩
    exact ⟨d, [], (hadmits d).2 hd, by simp, rfl, rfl, rfl⟩

theorem spells_three {v : Nat} {tail : List UInt8} (hv : v < 0x10) :
    Spells offset none (UInt8.ofNat (v + 0xE0) :: tail) c ↔
      ∃ d e, (d < 0x40 ∧ (v = 0 → 0x20 ≤ d) ∧ (v = 0xD → d < 0x20)) ∧ e < 0x40 ∧
        tail = [UInt8.ofNat (d + 0x80), UInt8.ofNat (e + 0x80)] ∧
        c = Char.ofNat ((v * 0x40 + d) * 0x40 + e) := by
  have hlow : (0x80 : UInt8) ≤ if v = 0 then 0xA0 else 0x80 := by split <;> decide
  have hadmits (d : Nat) : (if v = 0 then 0xA0 else 0x80 : UInt8).toNat ≤ d + 0x80 ∧
      d + 0x80 ≤ (if v = 0xD then 0x9F else 0xBF : UInt8).toNat ↔
        d < 0x40 ∧ (v = 0 → 0x20 ≤ d) ∧ (v = 0xD → d < 0x20) := by
    by_cases hzero : v = 0 <;> by_cases hlast : v = 0xD <;> simp [hzero, hlast] <;> omega
  rw [spells_lead (not_lt_of_lead (by omega) (by omega)) (leadByte?_three v hv),
    spells_some_iff hlow (by decide : 1 ≤ 2)]
  constructor
  · rintro ⟨d, digits, hd, hdigits, hlength, rfl, rfl⟩
    obtain ⟨e, rfl⟩ := List.length_eq_one_iff.1 (Nat.succ.inj hlength)
    exact ⟨d, e, (hadmits d).1 hd, hdigits e (by simp), rfl, rfl⟩
  · rintro ⟨d, e, hd, he, rfl, rfl⟩
    exact ⟨d, [e], (hadmits d).2 hd, by simpa using he, rfl, rfl, rfl⟩

theorem spells_four {v : Nat} {tail : List UInt8} (hv : v < 5) :
    Spells offset none (UInt8.ofNat (v + 0xF0) :: tail) c ↔
      ∃ d e f, (d < 0x40 ∧ (v = 0 → 0x10 ≤ d) ∧ (v = 4 → d < 0x10)) ∧ e < 0x40 ∧ f < 0x40 ∧
        tail = [UInt8.ofNat (d + 0x80), UInt8.ofNat (e + 0x80), UInt8.ofNat (f + 0x80)] ∧
        c = Char.ofNat (((v * 0x40 + d) * 0x40 + e) * 0x40 + f) := by
  have hlow : (0x80 : UInt8) ≤ if v = 0 then 0x90 else 0x80 := by split <;> decide
  have hadmits (d : Nat) : (if v = 0 then 0x90 else 0x80 : UInt8).toNat ≤ d + 0x80 ∧
      d + 0x80 ≤ (if v = 4 then 0x8F else 0xBF : UInt8).toNat ↔
        d < 0x40 ∧ (v = 0 → 0x10 ≤ d) ∧ (v = 4 → d < 0x10) := by
    by_cases hzero : v = 0 <;> by_cases hlast : v = 4 <;> simp [hzero, hlast] <;> omega
  rw [spells_lead (not_lt_of_lead (by omega) (by omega)) (leadByte?_four v hv),
    spells_some_iff hlow (by decide : 1 ≤ 3)]
  constructor
  · rintro ⟨d, digits, hd, hdigits, hlength, rfl, rfl⟩
    obtain ⟨e, f, rfl⟩ := List.length_eq_two.1 (Nat.succ.inj hlength)
    exact ⟨d, e, f, (hadmits d).1 hd, hdigits e (by simp), hdigits f (by simp), rfl, rfl⟩
  · rintro ⟨d, e, f, hd, he, hf, rfl, rfl⟩
    exact ⟨d, [e, f], (hadmits d).2 hd, by simpa using ⟨he, hf⟩, rfl, rfl, rfl⟩

/-- From outside of a sequence the machine comes to the end of a character exactly with the bytes
    that the table has for it. -/
theorem spells_iff :
    Spells offset none bytes c ↔ ∃ n, CharBytes bytes n ∧ c = Char.ofNat n := by
  constructor
  · intro h
    rcases bytes with _ | ⟨b, tail⟩
    · cases h
    by_cases hb : b < 0x80
    · obtain ⟨rfl, rfl⟩ := (spells_ascii hb).1 h
      have hbytes := CharBytes.one (UInt8.lt_iff_toNat_lt.1 hb)
      rw [UInt8.ofNat_toNat] at hbytes
      exact ⟨_, hbytes, rfl⟩
    obtain ⟨v, hv, rfl⟩ | ⟨v, hv, rfl⟩ | ⟨v, hv, rfl⟩ :=
      exists_of_leadByte? (leadByte?_ne_none_of_spells hb h)
    · obtain ⟨d, hd, rfl, rfl⟩ := (spells_two hv).1 h
      exact ⟨_, .two hv hd, rfl⟩
    · obtain ⟨d, e, ⟨hd, hlong, hsurrogate⟩, he, rfl, rfl⟩ := (spells_three hv).1 h
      exact ⟨_, .three hv hd hlong hsurrogate he, rfl⟩
    · obtain ⟨d, e, f, ⟨hd, hlong, hlast⟩, he, hf, rfl, rfl⟩ := (spells_four hv).1 h
      exact ⟨_, .four hv hd hlong hlast he hf, rfl⟩
  · rintro ⟨n, hbytes, rfl⟩
    cases hbytes with
    | one hn =>
      have hvalue : (UInt8.ofNat n).toNat = n := by
        rw [UInt8.toNat_ofNat', Nat.mod_eq_of_lt (by omega)]
      have hb : UInt8.ofNat n < 0x80 := by
        rw [UInt8.lt_iff_toNat_lt, hvalue]
        exact hn
      exact (spells_ascii hb).2 ⟨rfl, by rw [hvalue]⟩
    | two hv hd => exact (spells_two hv).2 ⟨_, hd, rfl, rfl⟩
    | three hv hd hlong hsurrogate he =>
      exact (spells_three hv).2 ⟨_, _, ⟨hd, hlong, hsurrogate⟩, he, rfl, rfl⟩
    | four hv hd hlong hlast he hf =>
      exact (spells_four hv).2 ⟨_, _, _, ⟨hd, hlong, hlast⟩, he, hf, rfl, rfl⟩

theorem spells_iff_encode : Spells offset none bytes c ↔ bytes = String.utf8EncodeChar c := by
  rw [spells_iff]
  constructor
  · rintro ⟨n, hbytes, rfl⟩
    exact hbytes.encode_eq.symm
  · rintro rfl
    exact ⟨c.toNat, charBytes_encode c, (Char.ofNat_toNat c).symm⟩

end Spells

/-! ## Whole texts -/

/-- The machine goes on behind a character with nothing begun. -/
theorem decodeFrom_append {offset : Nat} {state : Option Utf8Sequence} {bytes : List UInt8}
    {c : Char} (h : Spells offset state bytes c) (read : List Char) (rest : List UInt8) :
    decodeFrom offset state read (bytes ++ rest)
      = decodeFrom (offset + bytes.length) none (c :: read) rest := by
  induction h with
  | complete h => rw [List.singleton_append, decodeFrom, h]; rfl
  | @pending offset _ _ _ tail _ h _ ih =>
    rw [List.cons_append, decodeFrom, h]
    show decodeFrom (offset + 1) _ read (tail ++ rest) = _
    rw [ih, List.length_cons, Nat.add_right_comm, Nat.add_assoc]

/-- Where decoding succeeds the bytes begin with those of a character, if there are any. -/
theorem exists_spells_of_decodeFrom {offset : Nat} {state : Option Utf8Sequence}
    {read text : List Char} {bytes : List UInt8} (hbytes : state ≠ none ∨ bytes ≠ [])
    (h : decodeFrom offset state read bytes = .ok text) :
    ∃ first rest c, bytes = first ++ rest ∧ Spells offset state first c := by
  induction bytes generalizing offset state with
  | nil =>
    obtain ⟨s, rfl⟩ := Option.ne_none_iff_exists'.1 (hbytes.resolve_right (by simp))
    cases h
  | cons b tail ih =>
    rw [decodeFrom] at h
    split at h
    case h_1 c hmove => exact ⟨[b], tail, c, rfl, .complete hmove⟩
    case h_2 s hmove =>
      obtain ⟨first, rest, c, rfl, hspells⟩ := ih (.inl (by simp)) h
      exact ⟨b :: first, rest, c, rfl, .pending hmove hspells⟩
    case h_3 => cases h

theorem decodeFrom_encodeUtf8 (offset : Nat) (read text : List Char) :
    decodeFrom offset none read (encodeUtf8 text) = .ok (read.reverse ++ text) := by
  induction text generalizing offset read with
  | nil => simp [encodeUtf8, decodeFrom]
  | cons c text ih =>
    have hspells : Spells offset none (String.utf8EncodeChar c) c := spells_iff_encode.2 rfl
    rw [encodeUtf8, List.flatMap_cons, ← encodeUtf8, decodeFrom_append hspells, ih]
    simp

theorem eq_encodeUtf8_of_decodeFrom {offset : Nat} {read text : List Char} {bytes : List UInt8}
    (h : decodeFrom offset none read bytes = .ok text) :
    ∃ after, bytes = encodeUtf8 after ∧ text = read.reverse ++ after := by
  -- By the number of bytes: behind a character there are fewer.
  induction hsize : bytes.length using Nat.strongRecOn generalizing offset read bytes with
  | _ size ih =>
    subst hsize
    by_cases hbytes : bytes = []
    · subst hbytes
      cases h
      exact ⟨[], rfl, by simp⟩
    obtain ⟨first, rest, c, rfl, hspells⟩ := exists_spells_of_decodeFrom (.inr hbytes) h
    have hshorter : rest.length < (first ++ rest).length := by
      have hpos := hspells.length_pos
      rw [List.length_append]
      omega
    rw [decodeFrom_append hspells] at h
    obtain ⟨after, rfl, rfl⟩ := ih _ hshorter h rfl
    refine ⟨c :: after, ?_, by simp⟩
    rw [spells_iff_encode.1 hspells]
    rfl

theorem decodeUtf8_eq_ok_iff {bytes : List UInt8} {text : List Char} :
    decodeUtf8 bytes = .ok text ↔ bytes = encodeUtf8 text := by
  constructor
  · intro h
    obtain ⟨after, rfl, rfl⟩ := eq_encodeUtf8_of_decodeFrom h
    rfl
  · rintro rfl
    exact decodeFrom_encodeUtf8 0 [] text

end LoxScan
