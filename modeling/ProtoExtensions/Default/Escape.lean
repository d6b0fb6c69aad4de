import ProtoExtensions.Default.Integer
import ProtoExtensions.Text.Utf8

/-!
Escapes in the text of bytes defaults, read over the text's UTF-8 bytes. A backslash starts an
escape: a letter for a control, a character that stands for itself, one to three octal digits whose
value fits a byte, or `x` with one or two hexadecimal digits. Every other byte stands for itself.

The bytes are gone through by positions. No position is looked at that the text does not have: the
byte at a position and the bytes between two are taken only with a proof that they are there.
-/

namespace ProtoExtensions

/-- What is wrong with an escape. -/
inductive EscapeFault where
  | trailingBackslash
  | octalTooLarge (value : Nat)
  | missingHexDigits
  | undecodedHexDigits
  | invalidHexDigits (digits : String)
  | unknown (byte : UInt8)
  deriving DecidableEq, Repr

/-- The text that reports a wrong escape. -/
def EscapeFault.message : EscapeFault → String
  | trailingBackslash => "trailing backslash in bytes default"
  | octalTooLarge value =>
    "octal escape \\" ++ String.ofList (Nat.toDigits 8 value) ++ " does not fit in a byte"
  | missingHexDigits => "\\x escape without hex digits"
  | undecodedHexDigits => "invalid hex escape"
  | invalidHexDigits digits => "invalid hex escape \\x" ++ digits
  | unknown byte => "unknown escape sequence \\" ++ (Char.ofNat byte.toNat).toString

namespace Escape

/-- The byte of a backslash. -/
def backslash : UInt8 := 0x5C

/-- What a backslash and one more byte stand for, where these two are the whole escape. -/
def single? (byte : UInt8) : Option UInt8 :=
  match Char.ofNat byte.toNat with
  | 'n' => some 0x0A
  | 'r' => some 0x0D
  | 't' => some 0x09
  | 'a' => some 0x07
  | 'b' => some 0x08
  | 'f' => some 0x0C
  | 'v' => some 0x0B
  | '\\' | '\'' | '"' | '?' => some byte
  | _ => none

/-- The value of an octal digit. -/
def octalDigit? (byte : UInt8) : Option Nat :=
  if 0x30 ≤ byte ∧ byte ≤ 0x37 then some (byte.toNat - 0x30) else none

/-- The value of a hexadecimal digit. -/
def hexDigit? (byte : UInt8) : Option Nat :=
  if 0x30 ≤ byte ∧ byte ≤ 0x39 then some (byte.toNat - 0x30)
  else if 0x61 ≤ byte ∧ byte ≤ 0x66 then some (byte.toNat - 0x61 + 10)
  else if 0x41 ≤ byte ∧ byte ≤ 0x46 then some (byte.toNat - 0x41 + 10)
  else none

/-- The number that the digits from a position on make out of one in front of them, and the position
behind them. At most `count` digits are taken, and as many as there are. -/
def digitsAt (base : Nat) (digit? : UInt8 → Option Nat) (bytes : Array UInt8) :
    Nat → Nat → Nat → Nat × Nat
  | 0, value, position => (value, position)
  | count + 1, value, position =>
    match bytes[position]?.bind digit? with
    | some digit => digitsAt base digit? bytes count (base * value + digit) (position + 1)
    | none => (value, position)

/-- The position behind the hexadecimal digits from a position on, at most `count` of them. -/
def hexEnd (bytes : Array UInt8) : Nat → Nat → Nat
  | 0, position => position
  | count + 1, position =>
    if h : position < bytes.size then
      if (hexDigit? bytes[position]).isSome then hexEnd bytes count (position + 1) else position
    else position

/-- The bytes from one position up to another one. -/
def slice (bytes : Array UInt8) (start stop : Nat) (_h : start ≤ stop ∧ stop ≤ bytes.size) :
    List UInt8 :=
  (bytes.extract start stop).toList

/-- The byte that some hexadecimal digits write. -/
def hexByte (digits : List UInt8) : Except EscapeFault UInt8 :=
  match utf8Text? digits with
  | none => .error .undecodedHexDigits
  | some text =>
    match (digitsFrom? 16 0 text.toList).filter (· < 256) with
    | none => .error (.invalidHexDigits text)
    | some value => .ok value.toUInt8

theorem le_digitsAt (base : Nat) (digit? : UInt8 → Option Nat) (bytes : Array UInt8)
    (count value position : Nat) :
    position ≤ (digitsAt base digit? bytes count value position).2 := by
  induction count generalizing value position with
  | zero => exact Nat.le_refl position
  | succ count ih =>
    rw [digitsAt]
    split
    · exact Nat.le_of_succ_le (ih _ (position + 1))
    · exact Nat.le_refl position

theorem hexEnd_bounds {bytes : Array UInt8} (count : Nat) {position : Nat}
    (h : position ≤ bytes.size) :
    position ≤ hexEnd bytes count position ∧ hexEnd bytes count position ≤ bytes.size := by
  induction count generalizing position with
  | zero => exact ⟨Nat.le_refl position, h⟩
  | succ count ih =>
    rw [hexEnd]
    split
    · next hlt =>
      split
      · exact ⟨Nat.le_of_succ_le (ih hlt).1, (ih hlt).2⟩
      · exact ⟨Nat.le_refl position, h⟩
    · exact ⟨Nat.le_refl position, h⟩

/-- The byte that the hexadecimal digits from a position on stand for, with the position behind
them. -/
def readHexAt (bytes : Array UInt8) (position : Nat) (h : position ≤ bytes.size) :
    Except EscapeFault (UInt8 × Nat) :=
  let stop := hexEnd bytes 2 position
  if stop = position then .error .missingHexDigits
  else (hexByte (slice bytes position stop (hexEnd_bounds 2 h))).map (·, stop)

theorem le_of_readHexAt {bytes : Array UInt8} {position stop : Nat} {h : position ≤ bytes.size}
    {value : UInt8} (hread : readHexAt bytes position h = .ok (value, stop)) : position ≤ stop := by
  rw [readHexAt] at hread
  split at hread
  · cases hread
  · cases hbyte : hexByte (slice bytes position _ (hexEnd_bounds 2 h)) with
    | error fault =>
      rw [hbyte] at hread
      cases hread
    | ok byte =>
      rw [hbyte] at hread
      cases hread
      exact (hexEnd_bounds 2 h).1

/-- The byte that an escape stands for, read from the position behind its backslash, with the
position behind the escape. -/
def readAt (bytes : Array UInt8) (position : Nat) : Except EscapeFault (UInt8 × Nat) :=
  if h : position < bytes.size then
    match single? bytes[position] with
    | some value => .ok (value, position + 1)
    | none =>
      match octalDigit? bytes[position] with
      | some digit =>
        let (value, stop) := digitsAt 8 octalDigit? bytes 2 digit (position + 1)
        if value < 256 then .ok (value.toUInt8, stop) else .error (.octalTooLarge value)
      | none =>
        if bytes[position] = 0x78 ∨ bytes[position] = 0x58 then readHexAt bytes (position + 1) h
        else .error (.unknown bytes[position])
  else .error .trailingBackslash

/-- An escape takes at least one byte after its backslash. -/
theorem lt_of_readAt {bytes : Array UInt8} {position stop : Nat} {value : UInt8}
    (h : readAt bytes position = .ok (value, stop)) : position < stop := by
  rw [readAt] at h
  split at h
  · next hlt =>
    split at h
    · cases h
      exact Nat.lt_succ_self position
    · split at h
      · next digit _ =>
        have hle := le_digitsAt 8 octalDigit? bytes 2 digit (position + 1)
        dsimp only at h
        split at h
        · cases h
          exact hle
        · cases h
      · split at h
        · exact le_of_readHexAt h
        · cases h
  · cases h

end Escape

/-- The bytes that an escaped text stands for from a position on, behind those that it stands for
before it. -/
def unescapeFrom (bytes : Array UInt8) (position : Nat) (out : Array UInt8) :
    Except EscapeFault (Array UInt8) :=
  if h : position < bytes.size then
    if bytes[position] = Escape.backslash then
      match _hread : Escape.readAt bytes (position + 1) with
      | .ok (value, stop) => unescapeFrom bytes stop (out.push value)
      | .error fault => .error fault
    else unescapeFrom bytes (position + 1) (out.push bytes[position])
  else .ok out
termination_by bytes.size - position
decreasing_by
  · have := Escape.lt_of_readAt _hread
    omega
  · omega

/-- The bytes that the text of a bytes default stands for. -/
def unescape (text : String) : Except EscapeFault (List UInt8) :=
  (unescapeFrom (utf8Bytes text.toList).toArray 0 #[]).map Array.toList

end ProtoExtensions
