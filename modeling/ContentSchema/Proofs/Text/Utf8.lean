import ContentSchema.Text.Utf8

/-!
# Texts written and read as bytes

What is written as bytes is read as the same text (`decode_toUTF8`), one character at a time; and
where no carriage return is written, the lines stay as they are (`withLineFeeds_eq_self`).
-/

namespace ContentSchema.Text

variable {cs before : List Char} {rest : List UInt8}

/-! ### Characters as bytes -/

/-- A byte that continues a character. -/
def tailByte (n : Nat) : UInt8 := UInt8.ofNat (n % 64 + 0x80)

theorem toNat_tailByte (n : Nat) : (tailByte n).toNat = n % 64 + 0x80 := by
  rw [tailByte, UInt8.toNat_ofNat_of_lt']
  show n % 64 + 0x80 < 256
  omega

/-- Bytes that continue a character add six bits each; the first one lies between bounds. -/
theorem continueChar_tailByte {n read more low high m : Nat} (hlow : low ≤ m % 64 + 0x80)
    (hhigh : m % 64 + 0x80 < high) (bytes : List UInt8) :
    continueChar n read (more + 1) low high (tailByte m :: bytes) =
      continueChar (n * 64 + m % 64) (read + 1) more 0x80 0xC0 bytes := by
  rw [continueChar, toNat_tailByte, if_pos ⟨hlow, hhigh⟩, Nat.add_sub_cancel]

/-- Reading goes on behind a character of more than one byte. -/
theorem decodeFrom_long {position n more low high : Nat} {c : Char} {lead : UInt8}
    (bytes : List UInt8) (hlead : leadByte? lead.toNat = some (n, more, low, high))
    (hlong : 0x80 ≤ lead.toNat) (hlength : bytes.length = more)
    (hread : continueChar n 1 more low high (bytes ++ rest) = .ok c.toNat) :
    decodeFrom position before (lead :: bytes ++ rest) =
      decodeFrom (position + 1 + more) (c :: before) rest := by
  rw [List.cons_append, decodeFrom, if_neg (by omega), hlead]
  dsimp only
  rw [hread]
  dsimp only
  rw [Char.ofNat_toNat, ← hlength, List.drop_left]

/-- The byte that begins a character, which the upper bits of the character's number make up. -/
theorem toNat_lead (n mark width : Nat) (hn : n < width) (hmark : mark + width ≤ 256) :
    (UInt8.ofNat (n % width + mark)).toNat = n + mark := by
  rw [Nat.mod_eq_of_lt hn, UInt8.toNat_ofNat_of_lt' (by show n + mark < 256; omega)]

theorem leadByte?_two {n : Nat} (hlow : 0x80 ≤ n) (hhigh : n < 0x800) :
    leadByte? (n / 64 + 0xC0) = some (n / 64, 1, 0x80, 0xC0) := by
  rw [leadByte?, if_pos (by omega), Nat.add_sub_cancel]

/-- No surrogate is a character, and no character has a longer form than it needs. -/
theorem leadByte?_three {n : Nat} (hlow : 0x800 ≤ n) (hhigh : n < 0x10000)
    (hscalar : n < 0xD800 ∨ 0xE000 ≤ n) :
    ∃ low high, leadByte? (n / 4096 + 0xE0) = some (n / 4096, 2, low, high) ∧
      low ≤ n / 64 % 64 + 0x80 ∧ n / 64 % 64 + 0x80 < high := by
  rw [leadByte?, if_neg (by omega)]
  by_cases hfirst : n / 4096 = 0
  · rw [if_pos (by omega), hfirst]
    exact ⟨_, _, rfl, by omega, by omega⟩
  · rw [if_neg (by omega)]
    by_cases hsurrogate : n / 4096 = 0xD
    · rw [if_pos (by omega), hsurrogate]
      exact ⟨_, _, rfl, by omega, by omega⟩
    · rw [if_neg (by omega), if_pos (by omega), Nat.add_sub_cancel]
      exact ⟨_, _, rfl, by omega, by omega⟩

theorem leadByte?_four {n : Nat} (hlow : 0x10000 ≤ n) (hhigh : n < 0x110000) :
    ∃ low high, leadByte? (n / 262144 + 0xF0) = some (n / 262144, 3, low, high) ∧
      low ≤ n / 4096 % 64 + 0x80 ∧ n / 4096 % 64 + 0x80 < high := by
  rw [leadByte?, if_neg (by omega), if_neg (by omega), if_neg (by omega), if_neg (by omega)]
  by_cases hfirst : n / 262144 = 0
  · rw [if_pos (by omega), hfirst]
    exact ⟨_, _, rfl, by omega, by omega⟩
  · rw [if_neg (by omega)]
    by_cases hlast : n / 262144 = 4
    · rw [if_neg (by omega), if_pos (by omega), hlast]
      exact ⟨_, _, rfl, by omega, by omega⟩
    · rw [if_pos (by omega), Nat.add_sub_cancel]
      exact ⟨_, _, rfl, by omega, by omega⟩

/-- A character that is written as bytes is read again. -/
theorem exists_decodeFrom_utf8EncodeChar (c : Char) (position : Nat) (before : List Char)
    (rest : List UInt8) :
    ∃ position', decodeFrom position before (String.utf8EncodeChar c ++ rest) =
      decodeFrom position' (c :: before) rest := by
  have hscalar : c.toNat < 0xD800 ∨ 0xE000 ≤ c.toNat ∧ c.toNat < 0x110000 :=
    c.valid.imp_right fun h => ⟨h.1, h.2⟩
  have hval : c.val.toNat = c.toNat := rfl
  rw [String.utf8EncodeChar, hval]
  generalize hn : c.toNat = n at hscalar
  split
  · have hbyte : (UInt8.ofNat n).toNat = n := UInt8.toNat_ofNat_of_lt' (by show n < 256; omega)
    refine ⟨position + 1, ?_⟩
    rw [List.singleton_append, decodeFrom, hbyte, if_pos (by omega), ← hn, Char.ofNat_toNat]
  split
  · have hbyte := toNat_lead (n / 64) 0xc0 0x20 (by omega) (by omega)
    have hlead := leadByte?_two (n := n) (by omega) (by omega)
    rw [← hbyte] at hlead
    refine ⟨_, decodeFrom_long [tailByte n] hlead (by omega) rfl ?_⟩
    rw [List.singleton_append, continueChar_tailByte (by omega) (by omega), continueChar, hn]
    congr 1
    omega
  split
  · have hbyte := toNat_lead (n / 4096) 0xe0 0x10 (by omega) (by omega)
    obtain ⟨low, high, hlead, hlow, hhigh⟩ :=
      leadByte?_three (n := n) (by omega) (by omega) (by omega)
    rw [← hbyte] at hlead
    refine ⟨_, decodeFrom_long [tailByte (n / 64), tailByte n] hlead (by omega) rfl ?_⟩
    rw [List.cons_append, List.singleton_append, continueChar_tailByte hlow hhigh,
      continueChar_tailByte (by omega) (by omega), continueChar, hn]
    congr 1
    omega
  · have hbyte := toNat_lead (n / 262144) 0xf0 0x08 (by omega) (by omega)
    obtain ⟨low, high, hlead, hlow, hhigh⟩ := leadByte?_four (n := n) (by omega) (by omega)
    rw [← hbyte] at hlead
    refine ⟨_, decodeFrom_long [tailByte (n / 4096), tailByte (n / 64), tailByte n] hlead
      (by omega) rfl ?_⟩
    rw [List.cons_append, List.cons_append, List.singleton_append,
      continueChar_tailByte hlow hhigh, continueChar_tailByte (by omega) (by omega),
      continueChar_tailByte (by omega) (by omega), continueChar, hn]
    congr 1
    omega

/-! ### Texts as bytes -/

theorem decodeFrom_flatMap (cs : List Char) (position : Nat) (before : List Char) :
    decodeFrom position before (cs.flatMap String.utf8EncodeChar) = .ok (before.reverse ++ cs) := by
  induction cs generalizing position before with
  | nil => rw [List.flatMap_nil, decodeFrom, List.append_nil]
  | cons c cs ih =>
    obtain ⟨position', h⟩ := exists_decodeFrom_utf8EncodeChar c position before
      (cs.flatMap String.utf8EncodeChar)
    rw [List.flatMap_cons, h, ih, List.reverse_cons, List.append_assoc]
    rfl

/-- A text that is written as bytes is read again. -/
theorem decode_toUTF8 (cs : List Char) : decode (String.ofList cs).toUTF8.data.toList = .ok cs := by
  have hbytes : (String.ofList cs).toUTF8.data.toList = cs.flatMap String.utf8EncodeChar := by
    show (String.ofList cs).toByteArray.data.toList = _
    rw [String.toByteArray_ofList, List.utf8Encode, List.data_toByteArray]
  rw [hbytes, decode, decodeFrom_flatMap]
  rfl

/-- Without carriage returns the ends of lines are line feeds already. -/
theorem withLineFeeds_eq_self (h : '\r' ∉ cs) : withLineFeeds cs = cs := by
  fun_induction withLineFeeds cs with
  | case1 => simp at h
  | case2 => simp at h
  | case3 c cs _ _ ih => rw [ih (by simp_all)]
  | case4 => rfl

end ContentSchema.Text
