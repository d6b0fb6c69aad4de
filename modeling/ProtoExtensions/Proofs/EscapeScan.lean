import ProtoExtensions.Default.Escape

/-!
What the scanner of escapes makes of the bytes in front of it. It goes from position to position,
but what it does depends only on the bytes that are ahead (`Escape.ahead`): an escape is read from
them (`Escape.read_ahead`), and so is the whole text (`unescape_eq`). Hexadecimal digits are first
counted and then read as a number, which always succeeds, since what has been counted are digits and
two of them fit into a byte (`Escape.hexByte_of_digits`).
-/

namespace ProtoExtensions

namespace Escape

/-! ## Reading what is ahead -/

/-- At most `count` digits that continue a number in a given base, as many as there are, with what
follows them. -/
def digits (base : Nat) (digit? : UInt8 → Option Nat) : Nat → Nat → List UInt8 → Nat × List UInt8
  | 0, value, rest => (value, rest)
  | _ + 1, value, [] => (value, [])
  | count + 1, value, byte :: rest =>
    match digit? byte with
    | some digit => digits base digit? count (base * value + digit) rest
    | none => (value, byte :: rest)

/-- The byte that hexadecimal digits stand for, with what follows them. -/
def readHex : List UInt8 → Except EscapeFault (UInt8 × List UInt8)
  | [] => .error .missingHexDigits
  | first :: rest =>
    match hexDigit? first with
    | none => .error .missingHexDigits
    | some digit =>
      let (value, rest) := digits 16 hexDigit? 1 digit rest
      .ok (value.toUInt8, rest)

/-- The byte that an escape stands for, read after its backslash, with what follows the escape. -/
def read : List UInt8 → Except EscapeFault (UInt8 × List UInt8)
  | [] => .error .trailingBackslash
  | byte :: rest =>
    match single? byte with
    | some value => .ok (value, rest)
    | none =>
      match octalDigit? byte with
      | some digit =>
        let (value, rest) := digits 8 octalDigit? 2 digit rest
        if value < 256 then .ok (value.toUInt8, rest) else .error (.octalTooLarge value)
      | none =>
        if byte = 0x78 ∨ byte = 0x58 then readHex rest else .error (.unknown byte)

theorem digits_length_le (base : Nat) (digit? : UInt8 → Option Nat) (count value : Nat)
    (bytes : List UInt8) : (digits base digit? count value bytes).2.length ≤ bytes.length := by
  induction count generalizing value bytes with
  | zero => simp [digits]
  | succ count ih =>
    cases bytes with
    | nil => simp [digits]
    | cons byte rest =>
      rw [digits]
      split
      · exact Nat.le_succ_of_le (ih _ rest)
      · simp

theorem readHex_length_le {bytes rest : List UInt8} {value : UInt8}
    (h : readHex bytes = .ok (value, rest)) : rest.length ≤ bytes.length := by
  cases bytes with
  | nil => cases h
  | cons first more =>
    rw [readHex] at h
    split at h
    · cases h
    · next digit _ =>
      cases h
      exact Nat.le_succ_of_le (digits_length_le 16 hexDigit? 1 digit more)

theorem read_length_lt {bytes rest : List UInt8} {value : UInt8}
    (h : read bytes = .ok (value, rest)) : rest.length < bytes.length := by
  cases bytes with
  | nil => cases h
  | cons byte more =>
    refine Nat.lt_succ_of_le ?_
    rw [read.eq_def] at h
    dsimp only at h
    split at h
    · cases h
      exact Nat.le_refl _
    · split at h
      · next digit _ =>
        have hle := digits_length_le 8 octalDigit? 2 digit more
        split at h
        · cases h
          exact hle
        · cases h
      · split at h
        · exact readHex_length_le h
        · cases h

end Escape

/-- The bytes that an escaped text stands for, read from the text's bytes one after the other. -/
def unescapeBytes : List UInt8 → Except EscapeFault (List UInt8)
  | [] => .ok []
  | byte :: rest =>
    if byte = Escape.backslash then
      match _h : Escape.read rest with
      | .ok (value, more) => (unescapeBytes more).map (value :: ·)
      | .error fault => .error fault
    else (unescapeBytes rest).map (byte :: ·)
termination_by bytes => bytes.length
decreasing_by
  · have := Escape.read_length_lt _h
    simp only [List.length_cons]
    omega
  · simp

theorem unescapeBytes_escape {bytes rest : List UInt8} {value : UInt8}
    (h : Escape.read bytes = .ok (value, rest)) :
    unescapeBytes (Escape.backslash :: bytes) = (unescapeBytes rest).map (value :: ·) := by
  rw [unescapeBytes, if_pos rfl]
  split
  · next value' rest' h' =>
    rw [h] at h'
    cases h'
    rfl
  · next fault h' =>
    rw [h] at h'
    cases h'

theorem unescapeBytes_of_read_error {bytes : List UInt8} {fault : EscapeFault}
    (h : Escape.read bytes = .error fault) :
    unescapeBytes (Escape.backslash :: bytes) = .error fault := by
  rw [unescapeBytes, if_pos rfl]
  split
  · next h' =>
    rw [h] at h'
    cases h'
  · next h' =>
    rw [h] at h'
    cases h'
    rfl

namespace Escape

/-! ## The bytes ahead -/

/-- The bytes from a position on. -/
def ahead (bytes : Array UInt8) (position : Nat) : List UInt8 :=
  bytes.toList.drop position

variable {bytes : Array UInt8} {position : Nat}

theorem ahead_of_lt (h : position < bytes.size) :
    ahead bytes position = bytes[position] :: ahead bytes (position + 1) := by
  rw [ahead, List.drop_eq_getElem_cons (by simpa using h)]
  rfl

theorem ahead_of_le (h : bytes.size ≤ position) : ahead bytes position = [] :=
  List.drop_eq_nil_of_le (by simpa using h)

theorem digits_ahead (base : Nat) (digit? : UInt8 → Option Nat) (bytes : Array UInt8)
    (count value position : Nat) :
    digits base digit? count value (ahead bytes position) =
      ((digitsAt base digit? bytes count value position).1,
        ahead bytes (digitsAt base digit? bytes count value position).2) := by
  induction count generalizing value position with
  | zero => rfl
  | succ count ih =>
    rcases Nat.lt_or_ge position bytes.size with h | h
    · rw [ahead_of_lt h, digits, digitsAt, Array.getElem?_eq_getElem h, Option.bind_some]
      cases digit? bytes[position] with
      | none => rw [← ahead_of_lt h]
      | some digit => exact ih _ (position + 1)
    · simp [ahead_of_le h, digits, digitsAt, h]

/-! ## Hexadecimal digits -/

/-- What holds of all numbers below 256 holds of all bytes. -/
theorem forall_byte {P : UInt8 → Prop} (h : ∀ n < 256, P (UInt8.ofNat n)) (byte : UInt8) :
    P byte := by
  have hbyte := h byte.toNat byte.toNat_lt
  rwa [UInt8.ofNat_toNat] at hbyte

/-- The number that hexadecimal digits make out of one in front of them. -/
def hexNumber (value : Nat) (digits : List UInt8) : Nat :=
  (digits.filterMap hexDigit?).foldl (16 * · + ·) value

/-- The scanner counts the digits that reading takes. -/
theorem exists_digits_hexEnd (bytes : Array UInt8) (count position : Nat) :
    ∃ run, ahead bytes position = run ++ ahead bytes (hexEnd bytes count position) ∧
      hexEnd bytes count position = position + run.length ∧ run.length ≤ count ∧
      (∀ byte ∈ run, (hexDigit? byte).isSome) ∧
      ∀ value, digits 16 hexDigit? count value (ahead bytes position) =
        (hexNumber value run, ahead bytes (hexEnd bytes count position)) := by
  induction count generalizing position with
  | zero => exact ⟨[], rfl, rfl, Nat.le_refl 0, nofun, fun value => rfl⟩
  | succ count ih =>
    rw [hexEnd]
    split
    · next h =>
      cases hdigit : hexDigit? bytes[position] with
      | none =>
        simp only [Option.isSome_none, Bool.false_eq_true, if_false]
        refine ⟨[], rfl, rfl, Nat.zero_le _, nofun, fun value => ?_⟩
        rw [ahead_of_lt h, digits, hdigit]
        rfl
      | some digit =>
        obtain ⟨run, hahead, hend, hlength, hdigits, hread⟩ := ih (position + 1)
        simp only [Option.isSome_some, if_true]
        refine ⟨bytes[position] :: run, ?_, ?_, Nat.succ_le_succ hlength, ?_, fun value => ?_⟩
        · rw [ahead_of_lt h, List.cons_append, ← hahead]
        · rw [hend, List.length_cons]
          omega
        · exact List.forall_mem_cons.2 ⟨by simp [hdigit], hdigits⟩
        · rw [ahead_of_lt h, digits, hdigit, hexNumber, List.filterMap_cons_some hdigit]
          exact hread _
    · next h =>
      rw [ahead_of_le (Nat.le_of_not_lt h)]
      exact ⟨[], rfl, rfl, Nat.zero_le _, nofun, fun value => rfl⟩

/-- A hexadecimal digit is the character of its byte, with the same value. -/
theorem character_of_hexDigit? {byte : UInt8} {digit : Nat} (h : hexDigit? byte = some digit) :
    digit < 16 ∧ digitValue? (Char.ofNat byte.toNat) = some digit ∧
      String.utf8EncodeChar (Char.ofNat byte.toNat) = [byte] := by
  have hall : ∀ byte : UInt8, ∀ digit ∈ hexDigit? byte, digit < 16 ∧
      digitValue? (Char.ofNat byte.toNat) = some digit ∧
        String.utf8EncodeChar (Char.ofNat byte.toNat) = [byte] :=
    forall_byte (by decide +kernel)
  exact hall byte digit h

theorem hexNumber_lt_of_length {run : List UInt8} (h : run.length ≤ 2) : hexNumber 0 run < 256 := by
  have hlt : ∀ digit ∈ run.filterMap hexDigit?, digit < 16 := by
    intro digit hdigit
    obtain ⟨byte, -, hbyte⟩ := List.mem_filterMap.1 hdigit
    exact (character_of_hexDigit? hbyte).1
  have hcount : (run.filterMap hexDigit?).length ≤ 2 :=
    Nat.le_trans (List.length_filterMap_le ..) h
  rw [hexNumber]
  match run.filterMap hexDigit?, hcount, hlt with
  | [], _, _ => decide
  | [digit], _, hlt =>
    have hdigit := hlt digit (by simp)
    simp only [List.foldl_cons, List.foldl_nil]
    omega
  | [first, second], _, hlt =>
    have hfirst := hlt first (by simp)
    have hsecond := hlt second (by simp)
    simp only [List.foldl_cons, List.foldl_nil]
    omega

/-- The characters of some digits. -/
def characters (digits : List UInt8) : List Char :=
  digits.map fun byte => Char.ofNat byte.toNat

theorem utf8Bytes_characters {run : List UInt8} (h : ∀ byte ∈ run, (hexDigit? byte).isSome) :
    utf8Bytes (characters run) = run := by
  induction run with
  | nil => rfl
  | cons byte run ih =>
    obtain ⟨hbyte, hmore⟩ := List.forall_mem_cons.1 h
    obtain ⟨digit, hdigit⟩ := Option.isSome_iff_exists.1 hbyte
    rw [characters, List.map_cons, utf8Bytes_cons, (character_of_hexDigit? hdigit).2.2]
    exact congrArg (byte :: ·) (ih hmore)

theorem digitsFrom?_characters {run : List UInt8} (h : ∀ byte ∈ run, (hexDigit? byte).isSome)
    (value : Nat) : digitsFrom? 16 value (characters run) = some (hexNumber value run) := by
  induction run generalizing value with
  | nil => rfl
  | cons byte run ih =>
    obtain ⟨hbyte, hmore⟩ := List.forall_mem_cons.1 h
    obtain ⟨digit, hdigit⟩ := Option.isSome_iff_exists.1 hbyte
    obtain ⟨hlt, hvalue, -⟩ := character_of_hexDigit? hdigit
    rw [characters, List.map_cons, digitsFrom?, appendDigit?, hvalue]
    simp only [hlt, if_true, Option.bind_some, hexNumber, List.filterMap_cons_some hdigit,
      List.foldl_cons]
    exact ih hmore _

/-- Two hexadecimal digits always give a byte. -/
theorem hexByte_of_digits {run : List UInt8} (hdigits : ∀ byte ∈ run, (hexDigit? byte).isSome)
    (hlength : run.length ≤ 2) : hexByte run = .ok (hexNumber 0 run).toUInt8 := by
  have hencoded : utf8Text? run = some (String.ofList (characters run)) := by
    rw [utf8Text?_eq_some_iff, String.toList_ofList, utf8Bytes_characters hdigits]
  rw [hexByte, hencoded]
  simp only [String.toList_ofList, digitsFrom?_characters hdigits, Option.filter_some,
    hexNumber_lt_of_length hlength, decide_true, if_true]

theorem hexEnd_eq_self_iff {count : Nat} :
    hexEnd bytes (count + 1) position = position ↔
      (ahead bytes position).head?.bind hexDigit? = none := by
  rw [hexEnd]
  split
  · next h =>
    rw [ahead_of_lt h, List.head?_cons, Option.bind_some]
    cases hexDigit? bytes[position] with
    | none => simp
    | some digit =>
      -- the digit has been counted
      have hle : position + 1 ≤ hexEnd bytes count (position + 1) := (hexEnd_bounds count h).1
      simp only [Option.isSome_some, if_true, reduceCtorEq, iff_false]
      omega
  · next h => simp [ahead_of_le (Nat.le_of_not_lt h)]

theorem slice_eq_take {start stop : Nat} (h : start ≤ stop ∧ stop ≤ bytes.size) :
    slice bytes start stop h = (ahead bytes start).take (stop - start) := by
  rw [slice, Array.toList_extract, List.extract_eq_take_drop, ahead]

/-! ## One escape, and all of them -/

theorem readHex_ahead (h : position ≤ bytes.size) :
    readHex (ahead bytes position) =
      (readHexAt bytes position h).map fun found => (found.1, ahead bytes found.2) := by
  obtain ⟨run, hrun, hstop, hlength, hdigits, hread⟩ := exists_digits_hexEnd bytes 2 position
  have hslice : slice bytes position (hexEnd bytes 2 position) (hexEnd_bounds 2 h) = run := by
    rw [slice_eq_take, hrun, hstop, Nat.add_sub_cancel_left, List.take_left]
  have hnone : hexEnd bytes 2 position = position ↔
      (ahead bytes position).head?.bind hexDigit? = none := hexEnd_eq_self_iff
  have hfirst := hread 0
  rw [readHexAt, hslice, hexByte_of_digits hdigits hlength]
  cases hahead : ahead bytes position with
  | nil =>
    rw [if_pos (hnone.2 (by rw [hahead]; rfl))]
    rfl
  | cons first rest =>
    rw [hahead] at hnone hfirst
    cases hdigit : hexDigit? first with
    | none =>
      rw [if_pos (hnone.2 hdigit), readHex, hdigit]
      rfl
    | some digit =>
      rw [digits, hdigit] at hfirst
      rw [if_neg (mt hnone.1 (by simp [hdigit])), readHex, hdigit]
      simp only [Nat.mul_zero, Nat.zero_add] at hfirst
      dsimp only
      rw [hfirst]
      rfl

/-- What is read at a position depends on the bytes ahead alone. -/
theorem read_ahead (bytes : Array UInt8) (position : Nat) :
    read (ahead bytes position) =
      (readAt bytes position).map fun found => (found.1, ahead bytes found.2) := by
  rw [readAt]
  split
  · next h =>
    rw [ahead_of_lt h, read.eq_def]
    dsimp only
    cases single? bytes[position] with
    | some value => rfl
    | none =>
      cases octalDigit? bytes[position] with
      | some digit =>
        dsimp only
        rw [digits_ahead]
        dsimp only
        split <;> rfl
      | none =>
        dsimp only
        split
        · exact readHex_ahead h
        · rfl
  · next h =>
    rw [ahead_of_le (Nat.le_of_not_lt h)]
    rfl

end Escape

/-- At every position, what has been read stands in front of what the bytes ahead stand for. -/
theorem unescapeFrom_eq (bytes : Array UInt8) (position : Nat) (out : Array UInt8) :
    (unescapeFrom bytes position out).map Array.toList =
      (unescapeBytes (Escape.ahead bytes position)).map (out.toList ++ ·) := by
  fun_induction unescapeFrom bytes position out with
  | case1 position out h hbyte value stop hread ih =>
    have hahead := Escape.read_ahead bytes (position + 1)
    rw [hread] at hahead
    rw [ih, Escape.ahead_of_lt h, hbyte, unescapeBytes_escape hahead, Array.toList_push]
    cases unescapeBytes (Escape.ahead bytes stop) <;> simp [Except.map]
  | case2 position out h hbyte fault hread =>
    have hahead := Escape.read_ahead bytes (position + 1)
    rw [hread] at hahead
    rw [Escape.ahead_of_lt h, hbyte, unescapeBytes_of_read_error hahead]
    rfl
  | case3 position out h hbyte ih =>
    rw [ih, Escape.ahead_of_lt h, unescapeBytes, if_neg hbyte, Array.toList_push]
    cases unescapeBytes (Escape.ahead bytes (position + 1)) <;> simp [Except.map]
  | case4 position out h =>
    rw [Escape.ahead_of_le (Nat.le_of_not_lt h), unescapeBytes]
    simp [Except.map]

/-- **A text is read from position to position as its bytes are read one after the other.** -/
theorem unescape_eq (text : String) : unescape text = unescapeBytes (utf8Bytes text.toList) := by
  rw [unescape, unescapeFrom_eq, Escape.ahead]
  cases h : unescapeBytes (utf8Bytes text.toList) <;> simp [h, Except.map]

end ProtoExtensions
