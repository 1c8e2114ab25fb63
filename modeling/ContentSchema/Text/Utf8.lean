import ContentSchema.Text.Quoted

/-!
# Text as bytes

The encoding of characters as one to four bytes, read strictly: each character has one encoding,
and a text that is none is refused with the place where it goes wrong.
-/

namespace ContentSchema.Text

/-- Why bytes are no text. -/
inductive ByteCause where
  /-- No character starts with this byte. -/
  | badStart
  /-- A character breaks off before a byte that does not continue it. -/
  | badContinuation
  /-- The bytes end inside a character. -/
  | truncated
deriving DecidableEq, Repr

/-- The words for a cause. -/
def ByteCause.message : ByteCause → String
  | badStart => "invalid start byte"
  | badContinuation => "invalid continuation byte"
  | truncated => "unexpected end of data"

/-- Bytes that are no text: the first of the bad ones, their number and position. -/
structure ByteFault where
  /-- What is wrong. -/
  cause : ByteCause
  /-- The first bad byte. -/
  byte : UInt8
  /-- How many bytes come before it. -/
  position : Nat
  /-- How many bytes are bad. -/
  count : Nat
deriving DecidableEq, Repr

/-- The message about bytes that are no text. -/
def ByteFault.message (f : ByteFault) : String :=
  let place :=
    if f.count = 1 then
      "byte 0x" ++ String.ofList (hexDigits 2 f.byte.toNat) ++ " in position " ++
        toString f.position
    else "bytes in position " ++ toString f.position ++ "-" ++ toString (f.position + f.count - 1)
  "'utf-8' codec can't decode " ++ place ++ ": " ++ f.cause.message

/-- What a byte that starts a longer character announces: its own part of the number, how many
bytes follow, and the bounds of the first of them. -/
def leadByte? (b : Nat) : Option (Nat × Nat × Nat × Nat) :=
  if 0xC2 ≤ b ∧ b < 0xE0 then some (b - 0xC0, 1, 0x80, 0xC0)
  else if b = 0xE0 then some (0, 2, 0xA0, 0xC0)
  else if b = 0xED then some (0xD, 2, 0x80, 0xA0)
  else if 0xE1 ≤ b ∧ b < 0xF0 then some (b - 0xE0, 2, 0x80, 0xC0)
  else if b = 0xF0 then some (0, 3, 0x90, 0xC0)
  else if 0xF1 ≤ b ∧ b < 0xF4 then some (b - 0xF0, 3, 0x80, 0xC0)
  else if b = 0xF4 then some (4, 3, 0x80, 0x90)
  else none

/-- Reads the bytes that continue a character whose number so far is `n`; `read` counts its bytes
so far.  The first of the rest lies between the bounds, the others between the general ones. -/
def continueChar (n : Nat) (read : Nat) : Nat → Nat → Nat → List UInt8 → Except (ByteCause × Nat) Nat
  | 0, _, _, _ => .ok n
  | _ + 1, _, _, [] => .error (.truncated, read)
  | more + 1, low, high, b :: bs =>
    if low ≤ b.toNat ∧ b.toNat < high then
      continueChar (n * 64 + (b.toNat - 0x80)) (read + 1) more 0x80 0xC0 bs
    else .error (.badContinuation, read)

/-- Reads bytes behind `position` others, whose characters are given last one first. -/
def decodeFrom (position : Nat) (before : List Char) (bytes : List UInt8) :
    Except ByteFault (List Char) :=
  match bytes with
  | [] => .ok before.reverse
  | b :: bs =>
    if b.toNat < 0x80 then decodeFrom (position + 1) (Char.ofNat b.toNat :: before) bs
    else
      match leadByte? b.toNat with
      | none => .error ⟨.badStart, b, position, 1⟩
      | some (n, more, low, high) =>
        match continueChar n 1 more low high bs with
        | .error (cause, count) => .error ⟨cause, b, position, count⟩
        | .ok n => decodeFrom (position + 1 + more) (Char.ofNat n :: before) (bs.drop more)
termination_by bytes.length
decreasing_by
  · simp
  · simp only [List.length_drop, List.length_cons]; omega

/-- Reads bytes as characters. -/
def decode (bytes : List UInt8) : Except ByteFault (List Char) := decodeFrom 0 [] bytes

/-- A text in which each line ends in a line feed: a carriage return, with a line feed behind it or
without, becomes one. -/
def withLineFeeds : List Char → List Char
  | '\r' :: '\n' :: cs => '\n' :: withLineFeeds cs
  | '\r' :: cs => '\n' :: withLineFeeds cs
  | c :: cs => c :: withLineFeeds cs
  | [] => []

end ContentSchema.Text
