import FleetBoard.Text.Utf8
import Mathlib.Tactic.IntervalCases

/-!
# Decoding UTF-8 undoes encoding

The bytes of a character take the reader from between two characters to between two characters, and
it puts out the character. No byte of a character beyond ASCII is a byte of ASCII, so what ASCII
bytes there are in an encoded text are its ASCII characters.
-/

namespace FleetBoard.Text

theorem toNat_toUInt8 {n : Nat} (small : n < 256) : n.toUInt8.toNat = n := by
  rw [Nat.toUInt8, UInt8.toNat_ofNat']
  exact Nat.mod_eq_of_lt small

/-- A code point is below the surrogates or between them and the end. -/
theorem toNat_ranges (c : Char) : c.toNat < 0xd800 ∨ 0xdfff < c.toNat ∧ c.toNat < 0x110000 :=
  c.valid

theorem utf8Lead_two {k : Nat} (least : 2 ≤ k) (most : k < 0x20) :
    utf8Lead (0xc0 + k).toUInt8 = .partly ⟨k, 1, 0x80, 0xbf⟩ := by
  interval_cases k <;> rfl

theorem utf8Lead_three {k : Nat} (most : k < 0x10) : utf8Lead (0xe0 + k).toUInt8 =
    .partly ⟨k, 2, if k = 0 then 0xa0 else 0x80, if k = 0xd then 0x9f else 0xbf⟩ := by
  interval_cases k <;> rfl

theorem utf8Lead_four {k : Nat} (most : k < 5) : utf8Lead (0xf0 + k).toUInt8 =
    .partly ⟨k, 3, if k = 0 then 0x90 else 0x80, if k = 4 then 0x8f else 0xbf⟩ := by
  interval_cases k <;> rfl

/-- A byte in the range of the next one adds its six bits. -/
theorem utf8Reader_step_next {p : Utf8Partial} {n : Nat} (small : n < 0x40)
    (low : p.low.toNat ≤ 0x80 + n) (high : 0x80 + n ≤ p.high.toNat) :
    utf8Reader.step (some p) (0x80 + n).toUInt8 =
      if p.missing ≤ 1 then ([some (Char.ofNat (p.bits * 0x40 + n))], none)
      else ([], some ⟨p.bits * 0x40 + n, p.missing - 1, 0x80, 0xbf⟩) := by
  have value : (0x80 + n).toUInt8.toNat = 0x80 + n := toNat_toUInt8 (by omega)
  have within : p.low ≤ (0x80 + n).toUInt8 ∧ (0x80 + n).toUInt8 ≤ p.high := by
    rw [UInt8.le_iff_toNat_le, UInt8.le_iff_toNat_le, value]
    exact ⟨low, high⟩
  simp only [utf8Reader, if_pos within, value, Nat.add_sub_cancel_left]

/-- The last byte ends the character. -/
theorem utf8Reader_step_last {bits n : Nat} {low high : UInt8} (small : n < 0x40)
    (least : low.toNat ≤ 0x80 + n) (most : 0x80 + n ≤ high.toNat) :
    utf8Reader.step (some ⟨bits, 1, low, high⟩) (0x80 + n).toUInt8 =
      ([some (Char.ofNat (bits * 0x40 + n))], none) :=
  utf8Reader_step_next (p := ⟨bits, 1, low, high⟩) small least most

/-- A byte before the last one is kept. -/
theorem utf8Reader_step_more {bits missing n : Nat} {low high : UInt8} (small : n < 0x40)
    (least : low.toNat ≤ 0x80 + n) (most : 0x80 + n ≤ high.toNat) :
    utf8Reader.step (some ⟨bits, missing + 2, low, high⟩) (0x80 + n).toUInt8 =
      ([], some ⟨bits * 0x40 + n, missing + 1, 0x80, 0xbf⟩) :=
  utf8Reader_step_next (p := ⟨bits, missing + 2, low, high⟩) small least most

theorem feed_two {n : Nat} (least : 0x80 ≤ n) (most : n < 0x800) :
    utf8Reader.feed none [(0xc0 + n / 0x40).toUInt8, (0x80 + n % 0x40).toUInt8] =
      ([some (Char.ofNat n)], none) := by
  have lead : utf8Reader.step none (0xc0 + n / 0x40).toUInt8 =
      ([], some ⟨n / 0x40, 1, 0x80, 0xbf⟩) := by
    simp only [utf8Reader, utf8Lead_two (k := n / 0x40) (by omega) (by omega)]
  have last :=
    @utf8Reader_step_last (n / 0x40) (n % 0x40) 0x80 0xbf (by omega) (Nat.le_add_right ..)
    (by change 0x80 + n % 0x40 ≤ 0xbf; omega)
  have sum : n / 0x40 * 0x40 + n % 0x40 = n := by omega
  rw [Transducer.feed_cons, lead, Transducer.feed_cons, last, sum]
  rfl

theorem feed_three {n : Nat} (least : 0x800 ≤ n) (most : n < 0x10000)
    (noSurrogate : n < 0xd800 ∨ 0xdfff < n) :
    utf8Reader.feed none [(0xe0 + n / 0x1000).toUInt8, (0x80 + n / 0x40 % 0x40).toUInt8,
      (0x80 + n % 0x40).toUInt8] = ([some (Char.ofNat n)], none) := by
  have lead : utf8Reader.step none (0xe0 + n / 0x1000).toUInt8 = ([], some ⟨n / 0x1000, 2,
      if n / 0x1000 = 0 then 0xa0 else 0x80, if n / 0x1000 = 0xd then 0x9f else 0xbf⟩) := by
    simp only [utf8Reader, utf8Lead_three (k := n / 0x1000) (by omega)]
  have low : (if n / 0x1000 = 0 then 0xa0 else 0x80 : UInt8).toNat ≤ 0x80 + n / 0x40 % 0x40 := by
    split
    · change 0xa0 ≤ 0x80 + n / 0x40 % 0x40
      omega
    · exact Nat.le_add_right ..
  have high : 0x80 + n / 0x40 % 0x40 ≤ (if n / 0x1000 = 0xd then 0x9f else 0xbf : UInt8).toNat := by
    split
    · change 0x80 + n / 0x40 % 0x40 ≤ 0x9f
      omega
    · change 0x80 + n / 0x40 % 0x40 ≤ 0xbf
      omega
  have second := @utf8Reader_step_more (n / 0x1000) 0 (n / 0x40 % 0x40) _ _ (by omega) low high
  have last :=
    @utf8Reader_step_last (n / 0x1000 * 0x40 + n / 0x40 % 0x40) (n % 0x40) 0x80 0xbf (by omega)
    (Nat.le_add_right ..) (by change 0x80 + n % 0x40 ≤ 0xbf; omega)
  have sum : (n / 0x1000 * 0x40 + n / 0x40 % 0x40) * 0x40 + n % 0x40 = n := by omega
  rw [Transducer.feed_cons, lead, Transducer.feed_cons, second, Transducer.feed_cons, last, sum]
  rfl

theorem feed_four {n : Nat} (least : 0x10000 ≤ n) (most : n < 0x110000) :
    utf8Reader.feed none [(0xf0 + n / 0x40000).toUInt8, (0x80 + n / 0x1000 % 0x40).toUInt8,
      (0x80 + n / 0x40 % 0x40).toUInt8, (0x80 + n % 0x40).toUInt8] =
      ([some (Char.ofNat n)], none) := by
  have lead : utf8Reader.step none (0xf0 + n / 0x40000).toUInt8 = ([], some ⟨n / 0x40000, 3,
      if n / 0x40000 = 0 then 0x90 else 0x80, if n / 0x40000 = 4 then 0x8f else 0xbf⟩) := by
    simp only [utf8Reader, utf8Lead_four (k := n / 0x40000) (by omega)]
  have low : (if n / 0x40000 = 0 then 0x90 else 0x80 : UInt8).toNat ≤ 0x80 + n / 0x1000 % 0x40 := by
    split
    · change 0x90 ≤ 0x80 + n / 0x1000 % 0x40
      omega
    · exact Nat.le_add_right ..
  have high : 0x80 + n / 0x1000 % 0x40 ≤
      (if n / 0x40000 = 4 then 0x8f else 0xbf : UInt8).toNat := by
    split
    · change 0x80 + n / 0x1000 % 0x40 ≤ 0x8f
      omega
    · change 0x80 + n / 0x1000 % 0x40 ≤ 0xbf
      omega
  have second := @utf8Reader_step_more (n / 0x40000) 1 (n / 0x1000 % 0x40) _ _ (by omega) low high
  have third :=
    @utf8Reader_step_more (n / 0x40000 * 0x40 + n / 0x1000 % 0x40) 0 (n / 0x40 % 0x40) 0x80 0xbf
    (by omega) (Nat.le_add_right ..) (by change 0x80 + n / 0x40 % 0x40 ≤ 0xbf; omega)
  have last :=
    @utf8Reader_step_last ((n / 0x40000 * 0x40 + n / 0x1000 % 0x40) * 0x40 + n / 0x40 % 0x40)
    (n % 0x40) 0x80 0xbf (by omega) (Nat.le_add_right ..) (by change 0x80 + n % 0x40 ≤ 0xbf; omega)
  have sum : ((n / 0x40000 * 0x40 + n / 0x1000 % 0x40) * 0x40 + n / 0x40 % 0x40) * 0x40 +
      n % 0x40 = n := by
    omega
  rw [Transducer.feed_cons, lead, Transducer.feed_cons, second, Transducer.feed_cons, third,
    Transducer.feed_cons, last, sum]
  rfl

/-- The bytes of a character put it out, and leave nothing begun. -/
theorem feed_utf8Char (c : Char) : utf8Reader.feed none (utf8Char c) = ([some c], none) := by
  have ranges := toNat_ranges c
  have whole : Char.ofNat c.toNat = c := Char.ofNat_toNat c
  rw [utf8Char]
  generalize c.toNat = n at ranges whole
  subst whole
  split
  · next one =>
      have alone : utf8Reader.step none n.toUInt8 = ([some (Char.ofNat n)], none) := by
        simp only [utf8Reader, utf8Lead, toNat_toUInt8 (Nat.lt_trans one (by decide)), if_pos one]
      rw [Transducer.feed_cons, alone]
      rfl
  split
  · exact feed_two (by omega) (by omega)
  split
  · exact feed_three (by omega) (by omega) (by omega)
  · exact feed_four (by omega) (by omega)

theorem utf8_cons (c : Char) (s : List Char) : utf8 (c :: s) = utf8Char c ++ utf8 s :=
  List.flatMap_cons

/-- The bytes of a text put out its characters. -/
theorem feed_utf8 (s : List Char) : utf8Reader.feed none (utf8 s) = (s.map some, none) := by
  induction s with
  | nil => rfl
  | cons c s ih =>
      rw [utf8_cons, Transducer.feed_append, feed_utf8Char, ih]
      rfl

/-- Decoding gives back what was encoded. -/
@[simp] theorem utf8Strict?_utf8 (s : List Char) : utf8Strict? (utf8 s) = some s := by
  have whole : (s.map some).mapM id = some s := by
    induction s with
    | nil => rfl
    | cons c s ih =>
        rw [List.map_cons, List.mapM_cons, ih]
        rfl
  rw [utf8Strict?, Transducer.run_eq, feed_utf8]
  exact (congrArg _ (List.append_nil _)).trans whole

/-! ### ASCII -/

theorem utf8Char_of_ascii {c : Char} (ascii : c.toNat < 0x80) : utf8Char c = [c.toNat.toUInt8] :=
  if_pos ascii

/-- The bytes of other characters are no bytes of ASCII. -/
theorem le_of_mem_utf8Char {b : UInt8} {c : Char} (other : ¬ c.toNat < 0x80)
    (inside : b ∈ utf8Char c) :
    0x80 ≤ b.toNat := by
  have ranges := toNat_ranges c
  have large {k n : Nat} (least : 0x80 ≤ k) (most : k + n < 256) (same : b = (k + n).toUInt8) :
      0x80 ≤ b.toNat := by
    rw [same, toNat_toUInt8 most]
    omega
  rw [utf8Char] at inside
  rw [if_neg other] at inside
  split at inside
  · rcases List.mem_cons.mp inside with same | inside
    · exact large (by decide) (by omega) same
    · exact large (by decide) (by omega) (List.mem_singleton.mp inside)
  split at inside
  · rcases List.mem_cons.mp inside with same | inside
    · exact large (by decide) (by omega) same
    rcases List.mem_cons.mp inside with same | inside
    · exact large (by decide) (by omega) same
    · exact large (by decide) (by omega) (List.mem_singleton.mp inside)
  · rcases List.mem_cons.mp inside with same | inside
    · exact large (by decide) (by omega) same
    rcases List.mem_cons.mp inside with same | inside
    · exact large (by decide) (by omega) same
    rcases List.mem_cons.mp inside with same | inside
    · exact large (by decide) (by omega) same
    · exact large (by decide) (by omega) (List.mem_singleton.mp inside)

/-- A byte of ASCII is in an encoded text only as the character that it is. -/
theorem mem_of_mem_utf8 {b : UInt8} (ascii : b.toNat < 0x80) {s : List Char} (inside : b ∈ utf8 s) :
    ∃ c ∈ s, c.toNat = b.toNat := by
  obtain ⟨c, there, byte⟩ := List.mem_flatMap.mp inside
  by_cases one : c.toNat < 0x80
  · rw [utf8Char_of_ascii one, List.mem_singleton] at byte
    exact ⟨c, there, by rw [byte, toNat_toUInt8 (Nat.lt_trans one (by decide))]⟩
  · have large := le_of_mem_utf8Char one byte
    omega

end FleetBoard.Text
