import ScanCircuit.Proofs.Related
import ScanCircuit.Text.Utf8

/-!
# Decoding is the inverse of encoding

The bytes of a text are well-formed, and no other bytes are: strict decoding accepts
exactly what encoding gives, and returns the text that was encoded. The replacing decoder
agrees with the strict one on every sequence that the strict one accepts.
-/

namespace ScanCircuit.Text.Utf8

variable {byte : UInt8} {bytes rest : List UInt8} {started : Unfinished} {found : Char}
  {tail : List Piece}

/-! ## Single bytes -/

theorem piecesFrom_ascii (ascii : byte.toNat < 0x80) :
    piecesFrom none (byte :: rest) =
      .char (Char.ofNat byte.toNat) :: piecesFrom none rest := by
  simp [piecesFrom, first, ascii]

/-- The first byte of several. -/
theorem piecesFrom_lead (lead : first byte = ([], some started)) :
    piecesFrom none (byte :: rest) = piecesFrom (some started) rest := by
  simp [piecesFrom, lead]

theorem piecesFrom_two (low : 0xC2 ≤ byte.toNat) (high : byte.toNat < 0xE0) :
    piecesFrom none (byte :: rest) =
      piecesFrom (some ⟨1, 0x80, 0xBF, byte.toNat - 0xC0⟩) rest := by
  apply piecesFrom_lead
  unfold first
  grind

/-- What follows `0xE0` is not too small for three bytes, and what follows `0xED` is no
surrogate. -/
theorem piecesFrom_three (low : 0xE0 ≤ byte.toNat) (high : byte.toNat < 0xF0) :
    piecesFrom none (byte :: rest) =
      piecesFrom (some ⟨2, if byte.toNat = 0xE0 then 0xA0 else 0x80,
        if byte.toNat = 0xED then 0x9F else 0xBF, byte.toNat - 0xE0⟩) rest := by
  apply piecesFrom_lead
  unfold first
  grind

/-- What follows `0xF0` is not too small for four bytes, and what follows `0xF4` is not too large
for a character. -/
theorem piecesFrom_four (low : 0xF0 ≤ byte.toNat) (high : byte.toNat ≤ 0xF4) :
    piecesFrom none (byte :: rest) =
      piecesFrom (some ⟨3, if byte.toNat = 0xF0 then 0x90 else 0x80,
        if byte.toNat = 0xF4 then 0x8F else 0xBF, byte.toNat - 0xF0⟩) rest := by
  apply piecesFrom_lead
  unfold first
  grind

/-- No character starts with any other byte. -/
theorem piecesFrom_stray (stray : 0x80 ≤ byte.toNat ∧ byte.toNat < 0xC2 ∨ 0xF4 < byte.toNat) :
    piecesFrom none (byte :: rest) = .illFormed :: piecesFrom none rest := by
  have lead : first byte = ([.illFormed], none) := by
    unfold first
    grind
  simp [piecesFrom, lead]

/-- A byte in the range is part of the character. -/
theorem piecesFrom_within (low : started.low ≤ byte.toNat) (high : byte.toNat ≤ started.high) :
    piecesFrom (some started) (byte :: rest) =
      if started.missing ≤ 1 then
        .char (Char.ofNat (started.bits * 64 + (byte.toNat - 0x80))) :: piecesFrom none rest
      else
        piecesFrom (some ⟨started.missing - 1, 0x80, 0xBF,
          started.bits * 64 + (byte.toNat - 0x80)⟩) rest := by
  by_cases last : started.missing ≤ 1 <;> simp [piecesFrom, next, low, high, last]

/-- A byte outside the range ends the character before it is complete, and is read afresh. -/
theorem piecesFrom_outside (outside : ¬ (started.low ≤ byte.toNat ∧ byte.toNat ≤ started.high)) :
    piecesFrom (some started) (byte :: rest) = .illFormed :: piecesFrom none (byte :: rest) := by
  simp [piecesFrom, next, outside]

/-- A character that is found is completed by a byte in the range. -/
theorem within_of_char (read : piecesFrom (some started) bytes = .char found :: tail) :
    ∃ byte rest, bytes = byte :: rest ∧ started.low ≤ byte.toNat ∧ byte.toNat ≤ started.high := by
  cases bytes with
  | nil => simp [piecesFrom] at read
  | cons byte rest =>
      by_cases within : started.low ≤ byte.toNat ∧ byte.toNat ≤ started.high
      · exact ⟨byte, rest, rfl, within⟩
      · rw [piecesFrom_outside within] at read
        cases read

/-! ## Single characters -/

/-- The bytes of the character with a value, by their number. They are as few as the value allows,
and the value is no surrogate and not too large. -/
inductive Spells : List UInt8 → Nat → Prop where
  | one {a : UInt8} (lead : a.toNat < 0x80) : Spells [a] a.toNat
  | two {a b : UInt8} (low : 0xC2 ≤ a.toNat) (high : a.toNat < 0xE0)
      (tail : 0x80 ≤ b.toNat ∧ b.toNat ≤ 0xBF) :
      Spells [a, b] ((a.toNat - 0xC0) * 64 + (b.toNat - 0x80))
  | three {a b c : UInt8} (low : 0xE0 ≤ a.toNat) (high : a.toNat < 0xF0)
      (second : 0x80 ≤ b.toNat ∧ b.toNat ≤ 0xBF) (large : a.toNat = 0xE0 → 0xA0 ≤ b.toNat)
      (scalar : a.toNat = 0xED → b.toNat ≤ 0x9F) (tail : 0x80 ≤ c.toNat ∧ c.toNat ≤ 0xBF) :
      Spells [a, b, c] (((a.toNat - 0xE0) * 64 + (b.toNat - 0x80)) * 64 + (c.toNat - 0x80))
  | four {a b c d : UInt8} (low : 0xF0 ≤ a.toNat) (high : a.toNat ≤ 0xF4)
      (second : 0x80 ≤ b.toNat ∧ b.toNat ≤ 0xBF) (large : a.toNat = 0xF0 → 0x90 ≤ b.toNat)
      (scalar : a.toNat = 0xF4 → b.toNat ≤ 0x8F)
      (third : 0x80 ≤ c.toNat ∧ c.toNat ≤ 0xBF) (tail : 0x80 ≤ d.toNat ∧ d.toNat ≤ 0xBF) :
      Spells [a, b, c, d] ((((a.toNat - 0xF0) * 64 + (b.toNat - 0x80)) * 64 +
        (c.toNat - 0x80)) * 64 + (d.toNat - 0x80))

variable {spelled : List UInt8} {value : Nat}

theorem Spells.isValidChar (spells : Spells spelled value) : value.isValidChar := by
  unfold Nat.isValidChar
  cases spells <;> omega

/-- The bytes of a character are read as that character. -/
theorem Spells.piecesFrom (spells : Spells spelled value) :
    piecesFrom none (spelled ++ rest) =
      .char (Char.ofNat value) :: Utf8.piecesFrom none rest := by
  cases spells with
  | one lead => exact piecesFrom_ascii lead
  | two low high tail =>
      simp only [List.cons_append, List.nil_append]
      rw [piecesFrom_two low high, piecesFrom_within tail.1 tail.2, if_pos (by simp)]
  | three low high second large scalar tail =>
      simp only [List.cons_append, List.nil_append]
      rw [piecesFrom_three low high, piecesFrom_within (by grind) (by grind), if_neg (by simp),
        piecesFrom_within tail.1 tail.2, if_pos (by simp)]
  | four low high second large scalar third tail =>
      simp only [List.cons_append, List.nil_append]
      rw [piecesFrom_four low high, piecesFrom_within (by grind) (by grind), if_neg (by simp),
        piecesFrom_within third.1 third.2, if_neg (by simp),
        piecesFrom_within tail.1 tail.2, if_pos (by simp)]

/-- A character is only read from the bytes of one. -/
theorem spells_of_char (read : piecesFrom none bytes = .char found :: tail) :
    ∃ spelled value rest, Spells spelled value ∧ bytes = spelled ++ rest := by
  cases bytes with
  | nil => simp [piecesFrom] at read
  | cons a bytes =>
      by_cases ascii : a.toNat < 0x80
      · exact ⟨[a], _, bytes, .one ascii, rfl⟩
      by_cases stray : a.toNat < 0xC2 ∨ 0xF4 < a.toNat
      · rw [piecesFrom_stray (by omega)] at read
        cases read
      by_cases two : a.toNat < 0xE0
      · rw [piecesFrom_two (by omega) two] at read
        obtain ⟨b, rest, rfl, tail⟩ := within_of_char read
        exact ⟨[a, b], _, rest, .two (by omega) two tail, rfl⟩
      by_cases three : a.toNat < 0xF0
      · rw [piecesFrom_three (by omega) three] at read
        obtain ⟨b, bytes, rfl, second⟩ := within_of_char read
        rw [piecesFrom_within second.1 second.2, if_neg (by simp)] at read
        obtain ⟨c, rest, rfl, tail⟩ := within_of_char read
        exact ⟨[a, b, c], _, rest,
          .three (by omega) three (by grind) (by grind) (by grind) tail, rfl⟩
      · rw [piecesFrom_four (by omega) (by omega)] at read
        obtain ⟨b, bytes, rfl, second⟩ := within_of_char read
        rw [piecesFrom_within second.1 second.2, if_neg (by simp)] at read
        obtain ⟨c, bytes, rfl, third⟩ := within_of_char read
        rw [piecesFrom_within third.1 third.2, if_neg (by simp)] at read
        obtain ⟨d, rest, rfl, tail⟩ := within_of_char read
        exact ⟨[a, b, c, d], _, rest,
          .four (by omega) (by omega) (by grind) (by grind) (by grind) third tail, rfl⟩

theorem ofNat_of_toNat (equal : value = byte.toNat) : UInt8.ofNat value = byte := by
  rw [equal, UInt8.ofNat_toNat]

theorem Spells.utf8EncodeChar (spells : Spells spelled value) :
    String.utf8EncodeChar (Char.ofNat value) = spelled := by
  have val : (Char.ofNat value).val.toNat = value := by
    rw [Char.ofNat, dif_pos spells.isValidChar]
    rfl
  rw [String.utf8EncodeChar, val]
  cases spells with
  | one lead => rw [if_pos (by omega), UInt8.ofNat_toNat]
  | two low high tail =>
      rw [if_neg (by omega), if_pos (by omega)]
      simp only [List.cons.injEq, and_true]
      exact ⟨ofNat_of_toNat (by omega), ofNat_of_toNat (by omega)⟩
  | three low high second large scalar tail =>
      rw [if_neg (by omega), if_neg (by omega), if_pos (by omega)]
      simp only [List.cons.injEq, and_true]
      exact ⟨ofNat_of_toNat (by omega), ofNat_of_toNat (by omega), ofNat_of_toNat (by omega)⟩
  | four low high second large scalar third tail =>
      rw [if_neg (by omega), if_neg (by omega), if_neg (by omega)]
      simp only [List.cons.injEq, and_true]
      exact ⟨ofNat_of_toNat (by omega), ofNat_of_toNat (by omega), ofNat_of_toNat (by omega),
        ofNat_of_toNat (by omega)⟩

theorem exists_byte (value : Nat) (small : value < 256) : ∃ byte : UInt8, byte.toNat = value :=
  ⟨UInt8.ofNat value, UInt8.toNat_ofNat_of_lt' small⟩

/-- Every character has its bytes. -/
theorem exists_spells (valid : value.isValidChar) : ∃ spelled, Spells spelled value := by
  unfold Nat.isValidChar at valid
  by_cases one : value < 0x80
  · obtain ⟨a, rfl⟩ := exists_byte value (by omega)
    exact ⟨[a], .one one⟩
  by_cases two : value < 0x800
  · obtain ⟨a, first⟩ := exists_byte (value / 64 + 0xC0) (by omega)
    obtain ⟨b, last⟩ := exists_byte (value % 64 + 0x80) (by omega)
    have split : value = (a.toNat - 0xC0) * 64 + (b.toNat - 0x80) := by omega
    rw [split]
    exact ⟨[a, b], .two (by omega) (by omega) (by omega)⟩
  by_cases three : value < 0x10000
  · obtain ⟨a, first⟩ := exists_byte (value / 4096 + 0xE0) (by omega)
    obtain ⟨b, second⟩ := exists_byte (value / 64 % 64 + 0x80) (by omega)
    obtain ⟨c, last⟩ := exists_byte (value % 64 + 0x80) (by omega)
    have split : value =
        ((a.toNat - 0xE0) * 64 + (b.toNat - 0x80)) * 64 + (c.toNat - 0x80) := by omega
    rw [split]
    exact ⟨[a, b, c], .three (by omega) (by omega) (by omega) (by omega) (by omega) (by omega)⟩
  · obtain ⟨a, first⟩ := exists_byte (value / 262144 + 0xF0) (by omega)
    obtain ⟨b, second⟩ := exists_byte (value / 4096 % 64 + 0x80) (by omega)
    obtain ⟨c, third⟩ := exists_byte (value / 64 % 64 + 0x80) (by omega)
    obtain ⟨d, last⟩ := exists_byte (value % 64 + 0x80) (by omega)
    have split : value = (((a.toNat - 0xF0) * 64 + (b.toNat - 0x80)) * 64 +
        (c.toNat - 0x80)) * 64 + (d.toNat - 0x80) := by omega
    rw [split]
    exact ⟨[a, b, c, d], .four (by omega) (by omega) (by omega) (by omega) (by omega) (by omega)
      (by omega)⟩

theorem spells_utf8EncodeChar (found : Char) :
    Spells (String.utf8EncodeChar found) found.toNat := by
  have valid : found.toNat.isValidChar := found.valid
  obtain ⟨spelled, spells⟩ := exists_spells valid
  have encoded := spells.utf8EncodeChar
  rw [Char.ofNat_toNat] at encoded
  rw [encoded]
  exact spells

/-- The next piece is a character exactly if the bytes of that character come next. -/
theorem piecesFrom_eq_char_cons :
    piecesFrom none bytes = .char found :: tail ↔
      ∃ rest, bytes = String.utf8EncodeChar found ++ rest ∧ piecesFrom none rest = tail := by
  constructor
  · intro read
    obtain ⟨spelled, value, rest, spells, rfl⟩ := spells_of_char read
    rw [spells.piecesFrom] at read
    cases read
    exact ⟨rest, by rw [spells.utf8EncodeChar], rfl⟩
  · rintro ⟨rest, rfl, rfl⟩
    rw [(spells_utf8EncodeChar found).piecesFrom, Char.ofNat_toNat]

/-! ## Texts -/

theorem piecesFrom_some_ne_nil : piecesFrom (some started) bytes ≠ [] := by
  induction bytes generalizing started with
  | nil => simp [piecesFrom]
  | cons byte rest ih =>
      by_cases within : started.low ≤ byte.toNat ∧ byte.toNat ≤ started.high
      · rw [piecesFrom_within within.1 within.2]
        split
        · simp
        · exact ih
      · rw [piecesFrom_outside within]
        simp

theorem first_starts (nothing : (first byte).1 = []) : (first byte).2.isSome := by
  unfold first at nothing ⊢
  grind

/-- Only where there are no bytes nothing is read. -/
theorem piecesFrom_eq_nil : piecesFrom none bytes = [] ↔ bytes = [] := by
  cases bytes with
  | nil => simp [piecesFrom]
  | cons byte rest =>
      simp only [piecesFrom, Option.elim_none, List.append_eq_nil_iff, reduceCtorEq, iff_false,
        not_and]
      intro nothing
      obtain ⟨started, starts⟩ := Option.isSome_iff_exists.1 (first_starts nothing)
      rw [starts]
      exact piecesFrom_some_ne_nil

/-- The pieces are characters throughout exactly if the bytes are those of the characters. -/
theorem pieces_eq_map_char {chars : List Char} :
    pieces bytes = chars.map .char ↔ bytes = chars.flatMap String.utf8EncodeChar := by
  induction chars generalizing bytes with
  | nil => exact piecesFrom_eq_nil
  | cons found chars ih =>
      unfold pieces at ih ⊢
      simp only [List.map_cons, List.flatMap_cons, piecesFrom_eq_char_cons, ih]
      constructor
      · rintro ⟨rest, rfl, rfl⟩
        rfl
      · rintro rfl
        exact ⟨_, rfl, rfl⟩

theorem Piece.char?_eq_some {piece : Piece} : piece.char? = some found ↔ piece = .char found := by
  cases piece <;> simp [Piece.char?]

/-- Strict decoding accepts the bytes of texts only, and gives the text back. -/
theorem decode?_eq_some_iff {text : String} : decode? bytes = some text ↔ encode text = bytes := by
  have chars : (pieces bytes).mapM Piece.char? = some text.toList ↔
      pieces bytes = text.toList.map .char := by
    rw [mapM_eq_some, ← List.forall₂_eq_eq_eq, List.forall₂_map_right_iff]
    simp only [Piece.char?_eq_some]
  unfold decode? encode
  rw [Option.map_eq_some_iff, eq_comm, ← pieces_eq_map_char, ← chars]
  constructor
  · rintro ⟨found, read, rfl⟩
    rwa [String.toList_ofList]
  · intro read
    exact ⟨_, read, String.ofList_toList⟩

/-- The replacing decoder has nothing to replace in the bytes of a text. -/
theorem decodeLossy_encode (text : String) : decodeLossy (encode text) = text := by
  have read : pieces (encode text) = text.toList.map .char := pieces_eq_map_char.2 rfl
  have shown : Piece.shown ∘ Piece.char = id := rfl
  rw [decodeLossy, read, List.map_map, shown, List.map_id, String.ofList_toList]

end ScanCircuit.Text.Utf8
