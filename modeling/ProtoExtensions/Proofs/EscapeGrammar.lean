import ProtoExtensions.Proofs.EscapedText

/-!
The grammar of escapes. The bytes of a text are cut into tokens from left to right (`Tokenizes`):
a token is a plain byte or an escape, and each is as long as the text allows (`Munches`). Reading
gives one byte for each token. Where the next token does not fit into a byte, or there is none, the
text is stuck (`Stuck`) in one of four ways, and this is what reading reports. Every text either is
cut up to its end or gets stuck, so these rules say all there is about reading
(`unescape_tokenizes`); no other fault comes up, and the positions that reading looks at are all in
the text, since it is defined by looking at no others.
-/

namespace ProtoExtensions

namespace Escape

/-! ## Tokens -/

/-- The characters that are an escape on their own behind a backslash, and what they stand for. -/
def letters : List (Char × UInt8) :=
  [('n', 0x0A), ('r', 0x0D), ('t', 0x09), ('a', 0x07), ('b', 0x08), ('f', 0x0C), ('v', 0x0B),
   ('\\', 0x5C), ('\'', 0x27), ('"', 0x22), ('?', 0x3F)]

/-- Whether a byte announces hexadecimal digits behind a backslash. -/
def IsHexMark (byte : UInt8) : Prop :=
  byte = 'x'.toNat.toUInt8 ∨ byte = 'X'.toNat.toUInt8

/-- Whether bytes are digits, at least one and no more than allowed. -/
def IsRun (digit? : UInt8 → Option Nat) (count : Nat) (run : List UInt8) : Prop :=
  run ≠ [] ∧ run.length ≤ count ∧ ∀ byte ∈ run, (digit? byte).isSome

/-- The number that digits in a base stand for. -/
def numeral (base : Nat) (digit? : UInt8 → Option Nat) (run : List UInt8) : Nat :=
  (run.filterMap digit?).foldl (base * · + ·) 0

/-- A byte that stands for itself, or an escape. -/
inductive Token where
  | plain (byte : UInt8)
  | letter (c : Char) (value : UInt8)
  | octal (run : List UInt8)
  | hex (mark : UInt8) (run : List UInt8)
  deriving DecidableEq, Repr

namespace Token

/-- The bytes that a token is written with. -/
def bytes : Token → List UInt8
  | plain byte => [byte]
  | letter c _ => [backslash, c.toNat.toUInt8]
  | octal run => backslash :: run
  | hex mark run => backslash :: mark :: run

/-- The number that a token stands for. -/
def number : Token → Nat
  | plain byte => byte.toNat
  | letter _ value => value.toNat
  | octal run => numeral 8 octalDigit? run
  | hex _ run => numeral 16 hexDigit? run

/-- The byte that a token stands for, if its number fits into one. -/
def value (token : Token) : UInt8 :=
  token.number.toUInt8

/-- Whether a token has one of the forms of the grammar. Its number may be too large for a byte. -/
def IsFormed : Token → Prop
  | plain byte => byte ≠ backslash
  | letter c value => (c, value) ∈ letters
  | octal run => IsRun octalDigit? 3 run
  | hex mark run => IsHexMark mark ∧ IsRun hexDigit? 2 run

end Token

/-- Whether a token is the longest one that an input starts with; what follows it is the rest. -/
structure Munches (input : List UInt8) (token : Token) (rest : List UInt8) : Prop where
  formed : token.IsFormed
  input_eq : input = token.bytes ++ rest
  longest : ∀ other : Token, other.IsFormed → other.bytes <+: input →
    other.bytes.length ≤ token.bytes.length

/-- Whether an input is cut into tokens that fit into a byte each, up to some rest. The longest
token is cut first and checked then: three octal digits are one token also where only the first two
of them would fit. -/
inductive Tokenizes : List UInt8 → List Token → List UInt8 → Prop where
  | nil {rest : List UInt8} : Tokenizes rest [] rest
  | cons {input more rest : List UInt8} {token : Token} {tokens : List Token}
      (hmunches : Munches input token more) (hfits : token.number < 256)
      (hmore : Tokenizes more tokens rest) : Tokenizes input (token :: tokens) rest

/-- Why no token that fits into a byte can be cut off an input. -/
inductive Stuck : List UInt8 → EscapeFault → Prop where
  | trailingBackslash : Stuck [backslash] .trailingBackslash
  | octalTooLarge {input run rest : List UInt8} (hmunches : Munches input (.octal run) rest)
      (hlarge : 256 ≤ (Token.octal run).number) :
      Stuck input (.octalTooLarge (Token.octal run).number)
  | missingHexDigits {mark : UInt8} {rest : List UInt8} (hmark : IsHexMark mark)
      (hnone : ∀ byte ∈ rest.head?, hexDigit? byte = none) :
      Stuck (backslash :: mark :: rest) .missingHexDigits
  | unknown {byte : UInt8} {rest : List UInt8}
      (hletter : ∀ entry ∈ letters, byte ≠ entry.1.toNat.toUInt8)
      (hoctal : octalDigit? byte = none) (hmark : ¬IsHexMark byte) :
      Stuck (backslash :: byte :: rest) (.unknown byte)

/-! ## Kinds of bytes -/

theorem single?_of_mem : ∀ entry ∈ letters, single? entry.1.toNat.toUInt8 = some entry.2 := by
  decide

theorem mem_letters_of_single? : ∀ byte : UInt8, ∀ value ∈ single? byte,
    ∃ entry ∈ letters, byte = entry.1.toNat.toUInt8 ∧ value = entry.2 := by
  have hall : ∀ byte : UInt8, (single? byte).all (fun value =>
      letters.any fun entry => byte = entry.1.toNat.toUInt8 ∧ value = entry.2) = true :=
    forall_byte (by decide +kernel)
  intro byte value hvalue
  have hany := (Option.all_eq_true _ _).1 (hall byte) value hvalue
  obtain ⟨entry, hentry, heq⟩ := List.any_eq_true.1 hany
  exact ⟨entry, hentry, of_decide_eq_true heq⟩

theorem octalDigit?_of_mem : ∀ entry ∈ letters, octalDigit? entry.1.toNat.toUInt8 = none := by
  decide

theorem not_isHexMark_of_mem : ∀ entry ∈ letters, ¬IsHexMark entry.1.toNat.toUInt8 := by
  unfold IsHexMark
  decide

theorem octalDigit?_of_isHexMark {mark : UInt8} (h : IsHexMark mark) : octalDigit? mark = none := by
  rcases h with rfl | rfl <;> decide

theorem single?_of_isHexMark {mark : UInt8} (h : IsHexMark mark) : single? mark = none := by
  rcases h with rfl | rfl <;> decide

theorem single?_of_octalDigit? {byte : UInt8} (h : (octalDigit? byte).isSome) :
    single? byte = none := by
  cases hsingle : single? byte with
  | none => rfl
  | some value =>
    obtain ⟨entry, hentry, rfl, -⟩ := mem_letters_of_single? byte value hsingle
    rw [octalDigit?_of_mem entry hentry] at h
    cases h

/-! ## Runs of digits -/

/-- Whether a run of digits ends before a rest: it is as long as allowed, or no digit follows. -/
def EndsRun (digit? : UInt8 → Option Nat) (count : Nat) (run rest : List UInt8) : Prop :=
  run.length = count ∨ ∀ byte ∈ rest.head?, digit? byte = none

section

variable {digit? : UInt8 → Option Nat} {base count : Nat} {run rest other : List UInt8}

theorem IsRun.exists_cons (h : IsRun digit? count run) :
    ∃ first more, run = first :: more ∧ (digit? first).isSome := by
  obtain ⟨hne, -, hdigits⟩ := h
  cases run with
  | nil => exact absurd rfl hne
  | cons first more => exact ⟨first, more, rfl, hdigits first List.mem_cons_self⟩

/-- Reading digits takes a run up to where it ends. -/
theorem digits_append (base : Nat) (hdigits : ∀ byte ∈ run, (digit? byte).isSome)
    (hcount : run.length ≤ count) (hend : EndsRun digit? count run rest) (value : Nat) :
    digits base digit? count value (run ++ rest) =
      ((run.filterMap digit?).foldl (base * · + ·) value, rest) := by
  induction run generalizing count value with
  | nil =>
    cases count with
    | zero => rfl
    | succ count =>
      cases rest with
      | nil => rfl
      | cons byte rest =>
        have hbyte : digit? byte = none := by simpa [EndsRun] using hend
        simp [digits, hbyte]
  | cons byte run ih =>
    cases count with
    | zero => simp at hcount
    | succ count =>
      obtain ⟨hbyte, hmore⟩ := List.forall_mem_cons.1 hdigits
      obtain ⟨digit, hdigit⟩ := Option.isSome_iff_exists.1 hbyte
      have hrest := ih hmore (Nat.le_of_succ_le_succ hcount)
        (hend.imp_left Nat.succ.inj) (base * value + digit)
      simpa [digits, hdigit] using hrest

/-- Behind a digit, the other digits of a run are read in the same base. -/
theorem digits_eq_numeral {first : UInt8} {more : List UInt8} {digit : Nat}
    (hrun : IsRun digit? (count + 1) (first :: more))
    (hend : EndsRun digit? (count + 1) (first :: more) rest) (hdigit : digit? first = some digit) :
    digits base digit? count digit (more ++ rest) =
      (numeral base digit? (first :: more), rest) := by
  obtain ⟨-, hlength, hdigits⟩ := hrun
  have hread := digits_append base (List.forall_mem_cons.1 hdigits).2
    (Nat.le_of_succ_le_succ hlength) (hend.imp_left Nat.succ.inj) digit
  simpa [numeral, hdigit] using hread

theorem exists_run (count : Nat) {first : UInt8} (hfirst : (digit? first).isSome)
    (more : List UInt8) :
    ∃ run rest, first :: more = run ++ rest ∧ IsRun digit? (count + 1) run ∧
      EndsRun digit? (count + 1) run rest := by
  induction count generalizing first more with
  | zero => exact ⟨[first], more, rfl, ⟨by simp, Nat.le_refl 1, by simpa using hfirst⟩, .inl rfl⟩
  | succ count ih =>
    cases more with
    | nil =>
      exact ⟨[first], [], rfl, ⟨by simp, Nat.le_add_left 1 _, by simpa using hfirst⟩,
        .inr (by simp)⟩
    | cons second more =>
      by_cases hsecond : (digit? second).isSome
      · obtain ⟨run, rest, hinput, ⟨-, hlength, hdigits⟩, hend⟩ := ih hsecond more
        refine ⟨first :: run, rest, by rw [hinput, List.cons_append], ⟨by simp, ?_, ?_⟩, ?_⟩
        · exact Nat.succ_le_succ hlength
        · exact List.forall_mem_cons.2 ⟨hfirst, hdigits⟩
        · exact hend.imp_left (congrArg Nat.succ)
      · exact ⟨[first], second :: more, rfl,
          ⟨by simp, Nat.le_add_left 1 _, by simpa using hfirst⟩, .inr (by simpa using hsecond)⟩

theorem length_le_of_digits (hother : ∀ byte ∈ other, (digit? byte).isSome)
    (hstarts : other <+: run ++ rest) (hend : ∀ byte ∈ rest.head?, digit? byte = none) :
    other.length ≤ run.length := by
  induction run generalizing other with
  | nil =>
    cases other with
    | nil => exact Nat.le_refl 0
    | cons byte other =>
      obtain ⟨more, rfl⟩ := hstarts
      have hbyte := hother byte List.mem_cons_self
      rw [hend byte rfl] at hbyte
      cases hbyte
  | cons byte run ih =>
    cases other with
    | nil => exact Nat.zero_le _
    | cons first other =>
      obtain ⟨-, hmore⟩ := List.cons_prefix_cons.1 hstarts
      exact Nat.succ_le_succ (ih (List.forall_mem_cons.1 hother).2 hmore)

/-- No run is longer than one that ends. -/
theorem EndsRun.length_le (hend : EndsRun digit? count run rest) (hother : IsRun digit? count other)
    (hstarts : other <+: run ++ rest) : other.length ≤ run.length := by
  rcases hend with hfull | hend
  · exact hfull ▸ hother.2.1
  · exact length_le_of_digits hother.2.2 hstarts hend

/-- A run that no other one exceeds ends: a digit behind it would give a longer one. -/
theorem IsRun.endsRun (hrun : IsRun digit? count run)
    (hlongest : ∀ other, IsRun digit? count other → other <+: run ++ rest →
      other.length ≤ run.length) : EndsRun digit? count run rest := by
  obtain ⟨-, hlength, hdigits⟩ := hrun
  refine (Nat.eq_or_lt_of_le hlength).imp_right fun hlt byte hbyte => ?_
  obtain ⟨more, rfl⟩ := List.head?_eq_some_iff.1 hbyte
  refine Option.not_isSome_iff_eq_none.1 fun hdigit => ?_
  have hlonger : IsRun digit? count (run ++ [byte]) := by
    refine ⟨by simp, by rw [List.length_append]; exact hlt, fun other hother => ?_⟩
    rcases List.mem_append.1 hother with hother | hother
    · exact hdigits other hother
    · rwa [List.mem_singleton.1 hother]
  have hle := hlongest _ hlonger ⟨more, by simp⟩
  rw [List.length_append] at hle
  exact absurd hle (Nat.not_succ_le_self _)

end

/-! ## The longest token -/

/-- Whether what follows a token cannot make it longer. -/
def Token.EndsBefore : Token → List UInt8 → Prop
  | plain _, _ | letter _ _, _ => True
  | octal run, rest => EndsRun octalDigit? 3 run rest
  | hex _ run, rest => EndsRun hexDigit? 2 run rest

theorem eq_and_starts_of_escape {first first' : UInt8} {more more' : List UInt8}
    (h : backslash :: first :: more <+: backslash :: first' :: more') :
    first = first' ∧ more <+: more' :=
  List.cons_prefix_cons.1 (List.cons_prefix_cons.1 h).2

/-- No token of the grammar is longer than one that cannot be made longer: an escape is of one kind
only, by the byte behind its backslash. -/
theorem length_bytes_le {token other : Token} {rest : List UInt8} (htoken : token.IsFormed)
    (hend : token.EndsBefore rest) (hother : other.IsFormed)
    (hstarts : other.bytes <+: token.bytes ++ rest) :
    other.bytes.length ≤ token.bytes.length := by
  cases token with
  | plain byte =>
    cases other with
    | plain => exact Nat.le_refl 1
    | letter | octal | hex => exact absurd (List.cons_prefix_cons.1 hstarts).1.symm htoken
  | letter c value =>
    cases other with
    | plain => exact Nat.le_succ 1
    | letter => exact Nat.le_refl 2
    | octal run =>
      obtain ⟨first, more, rfl, hfirst⟩ := IsRun.exists_cons hother
      obtain ⟨rfl, -⟩ := eq_and_starts_of_escape hstarts
      rw [octalDigit?_of_mem _ htoken] at hfirst
      cases hfirst
    | hex mark run =>
      obtain ⟨rfl, -⟩ := eq_and_starts_of_escape hstarts
      exact absurd hother.1 (not_isHexMark_of_mem _ htoken)
  | octal run =>
    -- An octal digit is no mark, and a letter is as long as one digit.
    obtain ⟨first, more, rfl, hfirst⟩ := IsRun.exists_cons htoken
    cases other with
    | plain => exact Nat.le_add_left 1 _
    | letter => exact Nat.le_add_left 2 _
    | octal others =>
      exact Nat.succ_le_succ (EndsRun.length_le hend hother (List.cons_prefix_cons.1 hstarts).2)
    | hex mark others =>
      obtain ⟨rfl, -⟩ := eq_and_starts_of_escape hstarts
      rw [octalDigit?_of_isHexMark hother.1] at hfirst
      cases hfirst
  | hex mark run =>
    cases other with
    | plain => exact Nat.le_add_left 1 _
    | letter => exact Nat.le_add_left 2 _
    | octal others =>
      obtain ⟨first, more, rfl, hfirst⟩ := IsRun.exists_cons hother
      obtain ⟨rfl, -⟩ := eq_and_starts_of_escape hstarts
      rw [octalDigit?_of_isHexMark htoken.1] at hfirst
      cases hfirst
    | hex mark' others =>
      obtain ⟨-, hdigits⟩ := eq_and_starts_of_escape hstarts
      exact Nat.succ_le_succ (Nat.succ_le_succ (EndsRun.length_le hend hother.2 hdigits))

theorem Munches.endsBefore {input rest : List UInt8} {token : Token}
    (h : Munches input token rest) : token.EndsBefore rest := by
  obtain ⟨hformed, rfl, hlongest⟩ := h
  cases token with
  | plain | letter => trivial
  | octal run =>
    refine IsRun.endsRun hformed fun other hother hstarts => ?_
    exact Nat.le_of_succ_le_succ
      (hlongest (.octal other) hother (List.cons_prefix_cons.2 ⟨rfl, hstarts⟩))
  | hex mark run =>
    refine IsRun.endsRun hformed.2 fun other hother hstarts => ?_
    have hmarked : (Token.hex mark other).bytes <+: (Token.hex mark run).bytes ++ rest :=
      List.cons_prefix_cons.2 ⟨rfl, List.cons_prefix_cons.2 ⟨rfl, hstarts⟩⟩
    exact Nat.le_of_succ_le_succ
      (Nat.le_of_succ_le_succ (hlongest (.hex mark other) ⟨hformed.1, hother⟩ hmarked))

/-- A token of the grammar is the longest one exactly if nothing behind it makes it longer. -/
theorem munches_iff {input rest : List UInt8} {token : Token} :
    Munches input token rest ↔
      token.IsFormed ∧ input = token.bytes ++ rest ∧ token.EndsBefore rest := by
  constructor
  · intro h
    exact ⟨h.formed, h.input_eq, h.endsBefore⟩
  · rintro ⟨hformed, rfl, hend⟩
    exact ⟨hformed, rfl, fun other hother hstarts => length_bytes_le hformed hend hother hstarts⟩

/-! ## Reading one token -/

theorem read_octalRun {run rest : List UInt8} (hrun : IsRun octalDigit? 3 run)
    (hend : EndsRun octalDigit? 3 run rest) :
    read (run ++ rest) =
      if (Token.octal run).number < 256 then .ok ((Token.octal run).value, rest)
      else .error (.octalTooLarge (Token.octal run).number) := by
  obtain ⟨first, more, rfl, hfirst⟩ := hrun.exists_cons
  obtain ⟨digit, hdigit⟩ := Option.isSome_iff_exists.1 hfirst
  rw [List.cons_append, read.eq_def]
  simp only [single?_of_octalDigit? hfirst, hdigit, digits_eq_numeral hrun hend hdigit]
  rfl

-- The text is not cut into a smaller number and a digit behind it.
example : read [0x34, 0x30, 0x30] = .error (.octalTooLarge 256) := rfl

theorem read_of_isHexMark {mark : UInt8} (hmark : IsHexMark mark) (rest : List UInt8) :
    read (mark :: rest) = readHex rest := by
  rw [read.eq_def]
  simp only [single?_of_isHexMark hmark, octalDigit?_of_isHexMark hmark]
  exact if_pos hmark

theorem read_hexRun {mark : UInt8} {run rest : List UInt8} (hmark : IsHexMark mark)
    (hrun : IsRun hexDigit? 2 run) (hend : EndsRun hexDigit? 2 run rest) :
    read (mark :: (run ++ rest)) = .ok ((Token.hex mark run).value, rest) := by
  obtain ⟨first, more, rfl, hfirst⟩ := hrun.exists_cons
  obtain ⟨digit, hdigit⟩ := Option.isSome_iff_exists.1 hfirst
  rw [read_of_isHexMark hmark, List.cons_append, readHex]
  simp only [hdigit, digits_eq_numeral hrun hend hdigit]
  rfl

/-- **One token, one byte**: where the longest token fits into a byte, reading goes on behind it. -/
theorem unescapeBytes_of_munches {input rest : List UInt8} {token : Token}
    (h : Munches input token rest) (hfits : token.number < 256) :
    unescapeBytes input = (unescapeBytes rest).map (token.value :: ·) := by
  obtain ⟨hformed, rfl, hend⟩ := munches_iff.1 h
  cases token with
  | plain byte =>
    have hvalue : (Token.plain byte).value = byte := UInt8.ofNat_toNat
    rw [hvalue, Token.bytes, List.singleton_append, unescapeBytes, if_neg hformed]
  | letter c value =>
    have hvalue : (Token.letter c value).value = value := UInt8.ofNat_toNat
    rw [hvalue]
    exact unescapeBytes_escape (read_single (single?_of_mem _ hformed) rest)
  | octal run =>
    have hread := read_octalRun hformed hend
    rw [if_pos hfits] at hread
    exact unescapeBytes_escape hread
  | hex mark run => exact unescapeBytes_escape (read_hexRun hformed.1 hformed.2 hend)

theorem unescapeBytes_of_stuck {input : List UInt8} {fault : EscapeFault}
    (h : Stuck input fault) : unescapeBytes input = .error fault := by
  cases h with
  | trailingBackslash => exact unescapeBytes_of_read_error rfl
  | @octalTooLarge _ run rest hmunches hlarge =>
    obtain ⟨hformed, rfl, hend⟩ := munches_iff.1 hmunches
    have hread := read_octalRun hformed hend
    rw [if_neg (Nat.not_lt.2 hlarge)] at hread
    exact unescapeBytes_of_read_error hread
  | @missingHexDigits mark rest hmark hnone =>
    refine unescapeBytes_of_read_error ((read_of_isHexMark hmark rest).trans ?_)
    cases rest with
    | nil => rfl
    | cons first rest => simp only [readHex, hnone first rfl]
  | @unknown byte rest hletter hoctal hmark =>
    refine unescapeBytes_of_read_error ?_
    have hsingle : single? byte = none := by
      refine Option.eq_none_iff_forall_not_mem.2 fun value hvalue => ?_
      obtain ⟨entry, hentry, hbyte, -⟩ := mem_letters_of_single? byte value hvalue
      exact hletter entry hentry hbyte
    rw [read.eq_def]
    simp only [hsingle, hoctal]
    exact if_neg hmark

/-! ## The whole text -/

theorem number_hex_lt {mark : UInt8} {run : List UInt8} (hrun : IsRun hexDigit? 2 run) :
    (Token.hex mark run).number < 256 :=
  hexNumber_lt_of_length hrun.2.1

theorem exists_munches_or_stuck {input : List UInt8} (hne : input ≠ []) :
    (∃ token rest, Munches input token rest ∧ token.number < 256) ∨
      ∃ fault, Stuck input fault := by
  obtain ⟨byte, more, rfl⟩ := List.exists_cons_of_ne_nil hne
  by_cases hslash : byte = backslash
  · subst hslash
    cases more with
    | nil => exact .inr ⟨_, .trailingBackslash⟩
    | cons byte more =>
      by_cases hletter : ∃ entry ∈ letters, byte = entry.1.toNat.toUInt8
      · obtain ⟨⟨c, value⟩, hentry, rfl⟩ := hletter
        exact .inl ⟨.letter c value, more, munches_iff.2 ⟨hentry, rfl, trivial⟩, value.toNat_lt⟩
      by_cases hoctal : (octalDigit? byte).isSome
      · obtain ⟨run, rest, hinput, hrun, hend⟩ := exists_run 2 hoctal more
        have hmunches : Munches (backslash :: byte :: more) (.octal run) rest :=
          munches_iff.2 ⟨hrun, congrArg (backslash :: ·) hinput, hend⟩
        rcases Nat.lt_or_ge (Token.octal run).number 256 with hfits | hlarge
        · exact .inl ⟨_, _, hmunches, hfits⟩
        · exact .inr ⟨_, .octalTooLarge hmunches hlarge⟩
      by_cases hmark : IsHexMark byte
      · by_cases hnone : ∀ first ∈ more.head?, hexDigit? first = none
        · exact .inr ⟨_, .missingHexDigits hmark hnone⟩
        · cases more with
          | nil => simp at hnone
          | cons first more =>
            have hfirst : (hexDigit? first).isSome := by
              simpa [Option.isSome_iff_ne_none] using hnone
            obtain ⟨run, rest, hinput, hrun, hend⟩ := exists_run 1 hfirst more
            refine .inl ⟨.hex byte run, rest, munches_iff.2 ⟨⟨hmark, hrun⟩, ?_, hend⟩,
              number_hex_lt hrun⟩
            exact congrArg (backslash :: byte :: ·) hinput
      · refine .inr ⟨_, .unknown (fun entry hentry h => hletter ⟨entry, hentry, h⟩) ?_ hmark⟩
        simpa using hoctal
  · exact .inl ⟨.plain byte, more, munches_iff.2 ⟨hslash, rfl, trivial⟩, byte.toNat_lt⟩

theorem Munches.length_lt {input rest : List UInt8} {token : Token}
    (h : Munches input token rest) : rest.length < input.length := by
  rw [h.input_eq, List.length_append]
  have hpos : 0 < token.bytes.length := by cases token <;> exact Nat.succ_pos _
  omega

/-- Every input is cut into tokens up to its end, or up to where it is stuck. -/
theorem exists_tokenizes (input : List UInt8) :
    ∃ tokens rest, Tokenizes input tokens rest ∧ (rest = [] ∨ ∃ fault, Stuck rest fault) := by
  -- A token takes more than one byte if it is an escape.
  induction hlength : input.length using Nat.strongRecOn generalizing input with
  | ind n ih =>
    by_cases hne : input = []
    · exact ⟨[], input, .nil, .inl hne⟩
    · rcases exists_munches_or_stuck hne with ⟨token, more, hmunches, hfits⟩ | hstuck
      · obtain ⟨tokens, rest, hmore, hend⟩ := ih more.length (hlength ▸ hmunches.length_lt) more rfl
        exact ⟨token :: tokens, rest, .cons hmunches hfits hmore, hend⟩
      · exact ⟨[], input, .nil, .inr hstuck⟩

theorem Tokenizes.unescapeBytes_eq {input rest : List UInt8} {tokens : List Token}
    (h : Tokenizes input tokens rest) :
    unescapeBytes input = (unescapeBytes rest).map (tokens.map Token.value ++ ·) := by
  induction h with
  | @nil rest => cases hrest : unescapeBytes rest <;> simp [Except.map]
  | @cons input more rest token tokens hmunches hfits _ ih =>
    rw [unescapeBytes_of_munches hmunches hfits, ih]
    cases unescapeBytes rest <;> simp [Except.map]

theorem Tokenizes.unescapeBytes_eq_ok {input : List UInt8} {tokens : List Token}
    (h : Tokenizes input tokens []) : unescapeBytes input = .ok (tokens.map Token.value) := by
  rw [h.unescapeBytes_eq, unescapeBytes]
  exact congrArg Except.ok (List.append_nil _)

theorem Tokenizes.unescapeBytes_eq_error {input rest : List UInt8} {tokens : List Token}
    {fault : EscapeFault} (h : Tokenizes input tokens rest) (hstuck : Stuck rest fault) :
    unescapeBytes input = .error fault := by
  rw [h.unescapeBytes_eq, unescapeBytes_of_stuck hstuck]
  rfl

theorem unescapeBytes_eq_ok_iff {input values : List UInt8} :
    unescapeBytes input = .ok values ↔
      ∃ tokens, Tokenizes input tokens [] ∧ values = tokens.map Token.value := by
  constructor
  · intro h
    obtain ⟨tokens, rest, htokenizes, rfl | ⟨fault, hstuck⟩⟩ := exists_tokenizes input
    · exact ⟨tokens, htokenizes, Except.ok.inj (h.symm.trans htokenizes.unescapeBytes_eq_ok)⟩
    · cases h.symm.trans (htokenizes.unescapeBytes_eq_error hstuck)
  · rintro ⟨tokens, htokenizes, rfl⟩
    exact htokenizes.unescapeBytes_eq_ok

theorem unescapeBytes_eq_error_iff {input : List UInt8} {fault : EscapeFault} :
    unescapeBytes input = .error fault ↔
      ∃ tokens rest, Tokenizes input tokens rest ∧ Stuck rest fault := by
  constructor
  · intro h
    obtain ⟨tokens, rest, htokenizes, rfl | ⟨other, hstuck⟩⟩ := exists_tokenizes input
    · cases h.symm.trans htokenizes.unescapeBytes_eq_ok
    · obtain rfl : fault = other :=
        Except.error.inj (h.symm.trans (htokenizes.unescapeBytes_eq_error hstuck))
      exact ⟨tokens, rest, htokenizes, hstuck⟩
  · rintro ⟨tokens, rest, htokenizes, hstuck⟩
    exact htokenizes.unescapeBytes_eq_error hstuck

end Escape

open Escape in
/-- **Reading accepts exactly what the grammar of escapes cuts into tokens**, and gives one byte for
each token. Of any other text it reports why it is stuck behind the tokens that can be cut off. -/
theorem unescape_tokenizes (text : String) :
    (∀ values, unescape text = .ok values ↔
      ∃ tokens, Tokenizes (utf8Bytes text.toList) tokens [] ∧ values = tokens.map Token.value) ∧
    ∀ fault, unescape text = .error fault ↔
      ∃ tokens rest, Tokenizes (utf8Bytes text.toList) tokens rest ∧ Stuck rest fault := by
  rw [unescape_eq]
  exact ⟨fun _ => unescapeBytes_eq_ok_iff, fun _ => unescapeBytes_eq_error_iff⟩

end ProtoExtensions
