import Antenna.Library.Text

/-! UTF-8 bytes to text, strictly and with replacement characters, and that both undo encoding. -/

namespace Utf8

def encode (text : Text) : List UInt8 := text.flatMap String.utf8EncodeChar

/-- The ranges of the bytes that must follow a first byte; none if it starts no character. -/
def continuation (first : Nat) : Option (List (Nat × Nat)) :=
  if first ≤ 0x7F then some []
  else if 0xC2 ≤ first ∧ first ≤ 0xDF then some [(0x80, 0xBF)]
  else if first = 0xE0 then some [(0xA0, 0xBF), (0x80, 0xBF)]
  else if first = 0xED then some [(0x80, 0x9F), (0x80, 0xBF)]
  else if 0xE1 ≤ first ∧ first ≤ 0xEF then some [(0x80, 0xBF), (0x80, 0xBF)]
  else if first = 0xF0 then some [(0x90, 0xBF), (0x80, 0xBF), (0x80, 0xBF)]
  else if 0xF1 ≤ first ∧ first ≤ 0xF3 then some [(0x80, 0xBF), (0x80, 0xBF), (0x80, 0xBF)]
  else if first = 0xF4 then some [(0x80, 0x8F), (0x80, 0xBF), (0x80, 0xBF)]
  else none

/-- How many of the following bytes fit their ranges. -/
def fitting : List (Nat × Nat) → List UInt8 → Nat
  | (low, high) :: ranges, byte :: rest =>
      if low ≤ byte.toNat ∧ byte.toNat ≤ high then fitting ranges rest + 1 else 0
  | _, _ => 0

def mark (count : Nat) : Nat := [0, 0xC0, 0xE0, 0xF0].getD count 0

def codePoint (first : UInt8) (others : List UInt8) : Nat :=
  others.foldl (fun value byte => 64 * value + (byte.toNat - 0x80))
    (first.toNat - mark others.length)

/-- The character that starts at `first`, if one does, and how many more bytes belong to it or to
the piece that cannot be continued. -/
def decodeHead (first : UInt8) (rest : List UInt8) : Option Char × Nat :=
  match continuation first.toNat with
  | none => (none, 0)
  | some ranges =>
      let count := fitting ranges rest
      if count = ranges.length then (some (Char.ofNat (codePoint first (rest.take count))), count)
      else (none, count)

/-- `String::from_utf8_lossy`: the bytes still to be skipped belong to the last character. -/
def lossyFrom : Nat → List UInt8 → Text
  | _, [] => []
  | skip + 1, _ :: rest => lossyFrom skip rest
  | 0, first :: rest =>
      (decodeHead first rest).1.getD (Char.ofNat 0xFFFD) :: lossyFrom (decodeHead first rest).2 rest

def lossy (bytes : List UInt8) : Text := lossyFrom 0 bytes

def decodeFrom : Nat → List UInt8 → Option Text
  | _, [] => some []
  | skip + 1, _ :: rest => decodeFrom skip rest
  | 0, first :: rest =>
      (decodeHead first rest).1.bind fun char =>
        (decodeFrom (decodeHead first rest).2 rest).map (char :: ·)

/-- `str::from_utf8` -/
def decode (bytes : List UInt8) : Option Text := decodeFrom 0 bytes

theorem lossy_eq_nil {bytes : List UInt8} : lossy bytes = [] ↔ bytes = [] := by
  cases bytes <;> simp [lossy, lossyFrom]

theorem scalar_bounds (c : Char) : c.toNat < 0xD800 ∨ (0xDFFF < c.toNat ∧ c.toNat < 0x110000) :=
  c.valid

theorem decodeHead_of_fits {first : UInt8} {others rest : List UInt8} {ranges : List (Nat × Nat)}
    (known : continuation first.toNat = some ranges)
    (fits : fitting ranges (others ++ rest) = ranges.length)
    (same : others.length = ranges.length) :
    decodeHead first (others ++ rest) =
      (some (Char.ofNat (codePoint first others)), others.length) := by
  simp [decodeHead, known, fits, ← same]

theorem toNat_ofNat_small (value : Nat) (small : value < 256) : (UInt8.ofNat value).toNat = value := by
  rw [UInt8.toNat_ofNat']
  omega

/-- A first byte with its continuation bytes is decoded to the character with their code point. -/
theorem decodeHead_of_values {c : Char} {first : UInt8} {others rest : List UInt8}
    (ranges : List (Nat × Nat)) (known : continuation first.toNat = some ranges)
    (fits : fitting ranges (others ++ rest) = ranges.length)
    (same : others.length = ranges.length) (code : codePoint first others = c.toNat) :
    decodeHead first (others ++ rest) = (some c, others.length) := by
  rw [decodeHead_of_fits known fits same, code, Char.ofNat_toNat]

/-- Decoding at an encoded character gives the character and its length. -/
theorem decodeHead_encode (c : Char) (rest : List UInt8) :
    ∃ first others, String.utf8EncodeChar c = first :: others ∧
      decodeHead first (others ++ rest) = (some c, others.length) := by
  have scalar := scalar_bounds c
  have code : c.val.toNat = c.toNat := rfl
  unfold String.utf8EncodeChar
  simp only [code]
  by_cases one : c.toNat ≤ 0x7F
  · have b₀ := toNat_ofNat_small c.toNat (by omega)
    rw [if_pos one]
    refine ⟨_, _, rfl, decodeHead_of_values [] ?_ rfl rfl ?_⟩
    · simp [continuation, b₀, one]
    · simp [codePoint, mark, b₀]
  by_cases two : c.toNat ≤ 0x7FF
  · have b₀ := toNat_ofNat_small (c.toNat / 64 % 0x20 + 0xC0) (by omega)
    have b₁ := toNat_ofNat_small (c.toNat % 0x40 + 0x80) (by omega)
    rw [if_neg one, if_pos two]
    refine ⟨_, _, rfl, decodeHead_of_values [(0x80, 0xBF)] ?_ ?_ rfl ?_⟩
    · rw [b₀, continuation, if_neg (by omega), if_pos (by omega)]
    · simp only [List.cons_append, List.nil_append, fitting, b₁]
      rw [if_pos (by omega)]
      rfl
    · simp only [codePoint, List.foldl_cons, List.foldl_nil, b₀, b₁, List.length_cons,
        List.length_nil, mark, List.getD_cons_succ, List.getD_cons_zero]
      omega
  by_cases three : c.toNat ≤ 0xFFFF
  · have b₀ := toNat_ofNat_small (c.toNat / 4096 % 0x10 + 0xE0) (by omega)
    have b₁ := toNat_ofNat_small (c.toNat / 64 % 0x40 + 0x80) (by omega)
    have b₂ := toNat_ofNat_small (c.toNat % 0x40 + 0x80) (by omega)
    have known : ∃ low high, continuation (c.toNat / 4096 % 0x10 + 0xE0) =
        some [(low, high), (0x80, 0xBF)] ∧ low ≤ c.toNat / 64 % 0x40 + 0x80 ∧
          c.toNat / 64 % 0x40 + 0x80 ≤ high := by
      unfold continuation
      rw [if_neg (by omega), if_neg (by omega)]
      split
      · exact ⟨0xA0, 0xBF, rfl, by omega, by omega⟩
      · split
        · exact ⟨0x80, 0x9F, rfl, by omega, by omega⟩
        · rw [if_pos (by omega)]
          exact ⟨0x80, 0xBF, rfl, by omega, by omega⟩
    obtain ⟨low, high, known, least, most⟩ := known
    rw [if_neg one, if_neg two, if_pos three]
    refine ⟨_, _, rfl, decodeHead_of_values [(low, high), (0x80, 0xBF)] ?_ ?_ rfl ?_⟩
    · rw [b₀, known]
    · simp only [List.cons_append, List.nil_append, fitting, b₁, b₂]
      rw [if_pos ⟨least, most⟩, if_pos (by omega)]
      rfl
    · simp only [codePoint, List.foldl_cons, List.foldl_nil, b₀, b₁, b₂, List.length_cons,
        List.length_nil, mark, List.getD_cons_succ, List.getD_cons_zero]
      omega
  · have b₀ := toNat_ofNat_small (c.toNat / 262144 % 0x08 + 0xF0) (by omega)
    have b₁ := toNat_ofNat_small (c.toNat / 4096 % 0x40 + 0x80) (by omega)
    have b₂ := toNat_ofNat_small (c.toNat / 64 % 0x40 + 0x80) (by omega)
    have b₃ := toNat_ofNat_small (c.toNat % 0x40 + 0x80) (by omega)
    have known : ∃ low high, continuation (c.toNat / 262144 % 0x08 + 0xF0) =
        some [(low, high), (0x80, 0xBF), (0x80, 0xBF)] ∧ low ≤ c.toNat / 4096 % 0x40 + 0x80 ∧
          c.toNat / 4096 % 0x40 + 0x80 ≤ high := by
      unfold continuation
      rw [if_neg (by omega), if_neg (by omega), if_neg (by omega), if_neg (by omega),
        if_neg (by omega)]
      split
      · exact ⟨0x90, 0xBF, rfl, by omega, by omega⟩
      · split
        · exact ⟨0x80, 0xBF, rfl, by omega, by omega⟩
        · rw [if_pos (by omega)]
          exact ⟨0x80, 0x8F, rfl, by omega, by omega⟩
    obtain ⟨low, high, known, least, most⟩ := known
    rw [if_neg one, if_neg two, if_neg three]
    refine ⟨_, _, rfl,
      decodeHead_of_values [(low, high), (0x80, 0xBF), (0x80, 0xBF)] ?_ ?_ rfl ?_⟩
    · rw [b₀, known]
    · simp only [List.cons_append, List.nil_append, fitting, b₁, b₂, b₃]
      rw [if_pos ⟨least, most⟩, if_pos (by omega), if_pos (by omega)]
      rfl
    · simp only [codePoint, List.foldl_cons, List.foldl_nil, b₀, b₁, b₂, b₃, List.length_cons,
        List.length_nil, mark, List.getD_cons_succ, List.getD_cons_zero]
      omega

theorem lossyFrom_skip (others rest : List UInt8) :
    lossyFrom others.length (others ++ rest) = lossyFrom 0 rest := by
  induction others with
  | nil => rfl
  | cons byte others ih => simpa [lossyFrom] using ih

theorem decodeFrom_skip (others rest : List UInt8) :
    decodeFrom others.length (others ++ rest) = decodeFrom 0 rest := by
  induction others with
  | nil => rfl
  | cons byte others ih => simpa [decodeFrom] using ih

theorem lossy_encode (text : Text) : lossy (encode text) = text := by
  induction text with
  | nil => rfl
  | cons c text ih =>
      obtain ⟨first, others, split, decoded⟩ := decodeHead_encode c (encode text)
      have whole : encode (c :: text) = first :: (others ++ encode text) := by
        simp [encode, split]
      rw [whole, lossy, lossyFrom, decoded, lossyFrom_skip]
      exact congrArg (c :: ·) ih

theorem decode_encode (text : Text) : decode (encode text) = some text := by
  induction text with
  | nil => rfl
  | cons c text ih =>
      obtain ⟨first, others, split, decoded⟩ := decodeHead_encode c (encode text)
      have whole : encode (c :: text) = first :: (others ++ encode text) := by
        simp [encode, split]
      rw [whole, decode, decodeFrom, decoded, decodeFrom_skip, Option.bind_some]
      exact congrArg (Option.map (c :: ·)) ih

end Utf8
