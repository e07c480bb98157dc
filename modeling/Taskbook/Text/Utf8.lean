/-
The UTF-8 form of a text. `encode` writes every character in one to four octets; `decode` reads
octets back and refuses the first place where they are no UTF-8, naming the octets at fault and
the reason.
-/
import Taskbook.Text.Basic

namespace Taskbook

/-- The content of a file. -/
abbrev Octets := List UInt8

namespace Utf8

/-! ## Writing -/

/-- The octets of the character with code point `n`. -/
def encodeNat (n : Nat) : Octets :=
  if n < 0x80 then [UInt8.ofNat n]
  else if n < 0x800 then [UInt8.ofNat (0xC0 + n / 0x40), UInt8.ofNat (0x80 + n % 0x40)]
  else if n < 0x10000 then
    [UInt8.ofNat (0xE0 + n / 0x1000), UInt8.ofNat (0x80 + n / 0x40 % 0x40),
      UInt8.ofNat (0x80 + n % 0x40)]
  else
    [UInt8.ofNat (0xF0 + n / 0x40000), UInt8.ofNat (0x80 + n / 0x1000 % 0x40),
      UInt8.ofNat (0x80 + n / 0x40 % 0x40), UInt8.ofNat (0x80 + n % 0x40)]

/-- The octets of a text. -/
def encode (t : Text) : Octets := t.flatMap fun c => encodeNat c.toNat

/-! ## Reading -/

/-- Why octets are not UTF-8. -/
inductive Reason
  /-- No character begins with this octet. -/
  | start
  /-- A character is broken off by an octet that cannot continue it. -/
  | continuation
  /-- The octets end within a character. -/
  | truncated
  deriving DecidableEq, Repr

/-- The octets at fault: the first of them, their position and their number. -/
structure Fault where
  first : UInt8
  position : Nat
  count : Nat
  reason : Reason
  deriving DecidableEq, Repr

/-- What the first octet of a character promises: how many octets follow, the least and the
greatest of the octets that may come next, and the value that it contributes. -/
structure Lead where
  following : Nat
  least : Nat
  greatest : Nat
  value : Nat

/-- The promise of a first octet, if a character can begin with it. -/
def lead? (octet : UInt8) : Option Lead :=
  let n := octet.toNat
  if n < 0x80 then some ⟨0, 0x80, 0xBF, n⟩
  else if n < 0xC2 then none
  else if n < 0xE0 then some ⟨1, 0x80, 0xBF, n - 0xC0⟩
  else if n < 0xF0 then
    some ⟨2, if n = 0xE0 then 0xA0 else 0x80, if n = 0xED then 0x9F else 0xBF, n - 0xE0⟩
  else if n < 0xF5 then
    some ⟨3, if n = 0xF0 then 0x90 else 0x80, if n = 0xF4 then 0x8F else 0xBF, n - 0xF0⟩
  else none

/-- Reads the octets that follow the first one. `taken` counts the octets read so far; an error
gives the number of octets at fault. -/
def following : (owed : Nat) → (least greatest taken value : Nat) → Octets →
    Except (Nat × Reason) (Nat × Octets)
  | 0, _, _, _, value, rest => .ok (value, rest)
  | _ + 1, _, _, taken, _, [] => .error (taken, .truncated)
  | owed + 1, least, greatest, taken, value, octet :: rest =>
    if least ≤ octet.toNat && octet.toNat ≤ greatest then
      following owed 0x80 0xBF (taken + 1) (value * 0x40 + (octet.toNat - 0x80)) rest
    else .error (taken, .continuation)

theorem following_length {owed least greatest taken value : Nat} {octets : Octets}
    {r : Nat × Octets} (h : following owed least greatest taken value octets = .ok r) :
    r.2.length ≤ octets.length := by
  induction owed generalizing least greatest taken value octets with
  | zero => cases h; exact Nat.le_refl _
  | succ owed ih =>
    cases octets with
    | nil => cases h
    | cons octet rest =>
      rw [following] at h
      split at h
      · exact Nat.le_succ_of_le (ih h)
      · cases h

/-- Reads octets from position `position` on. -/
def decodeFrom (position : Nat) : Octets → Except Fault Text
  | [] => .ok []
  | octet :: rest =>
    match lead? octet with
    | none => .error ⟨octet, position, 1, .start⟩
    | some l =>
      match h : following l.following l.least l.greatest 1 l.value rest with
      | .error (count, reason) => .error ⟨octet, position, count, reason⟩
      | .ok (value, tail) =>
        have : tail.length < rest.length + 1 := Nat.lt_succ_of_le (following_length h)
        (decodeFrom (position + 1 + l.following) tail).map (Char.ofNat value :: ·)
termination_by octets => octets.length

/-- The text that the octets write. -/
def decode (octets : Octets) : Except Fault Text := decodeFrom 0 octets

/-! ## The wording of faults -/

/-- The reason in words. -/
def Reason.message : Reason → Text
  | .start => "invalid start byte".toList
  | .continuation => "invalid continuation byte".toList
  | .truncated => "unexpected end of data".toList

/-- The fault in words. -/
def Fault.message (f : Fault) : Text :=
  "'utf-8' codec can't decode byte".toList ++
    (if f.count = 1 then
      " 0x".toList ++ Text.hex 2 f.first.toNat ++ " in position ".toList ++ Text.digits f.position
    else
      "s in position ".toList ++ Text.digits f.position ++ '-' ::
        Text.digits (f.position + f.count - 1)) ++
    ": ".toList ++ f.reason.message

end Utf8

end Taskbook
