import Mathlib.Tactic.Linarith
import Antenna.Library.Wraparound
import Antenna.RingCore

/-!
The circular bytes of a ring buffer as a function of unbounded counters: which messages lie
between `tail` and `head`, and what `push` and `pop` do to them when they run alone.
-/

namespace LeanAntenna

theorem fromLeBytes_toLeBytes (value : UInt32) : fromLeBytes (toLeBytes value) = value := by
  have bound := value.toNat_lt
  have digits : value.toNat % 256 + 256 * (value.toNat / 256 % 256 +
      256 * (value.toNat / 65536 % 256 + 256 * (value.toNat / 16777216 % 256))) = value.toNat := by
    omega
  simp only [fromLeBytes, toLeBytes, List.foldr_cons, List.foldr_nil, UInt8.toNat_ofNat',
    Nat.reducePow, Nat.mul_zero, Nat.add_zero]
  rw [digits, UInt32.ofNat_toNat]

@[simp] theorem toLeBytes_length (value : UInt32) : (toLeBytes value).length = 4 := rfl

@[simp] theorem encode_length (data : List UInt8) : (encode data).length = encodedSize data := by
  simp [encode, encodedSize]

@[simp] theorem encodeAll_nil : encodeAll [] = [] := rfl

@[simp] theorem encodeAll_cons (data : List UInt8) (rest : List (List UInt8)) :
    encodeAll (data :: rest) = encode data ++ encodeAll rest := rfl

@[simp] theorem encodeAll_append (first second : List (List UInt8)) :
    encodeAll (first ++ second) = encodeAll first ++ encodeAll second := by
  simp [encodeAll]

theorem encodeAll_length (messages : List (List UInt8)) :
    (encodeAll messages).length = (messages.map encodedSize).sum := by
  induction messages with
  | nil => rfl
  | cons data rest ih => simp [ih]

/-- Messages the ring can tell apart from longer ones: the prefix and the data fit a `u32`. -/
def Short (data : List UInt8) : Prop := data.length < 2 ^ 32 - 4

theorem Short.length_toNat {data : List UInt8} (short : Short data) :
    (UInt32.ofNat data.length).toNat = data.length := by
  simp only [Short] at short
  rw [UInt32.toNat_ofNat', Nat.mod_eq_of_lt (by omega)]

theorem Short.total_toNat {data : List UInt8} (short : Short data) :
    (4 + UInt32.ofNat data.length).toNat = encodedSize data := by
  have length := short.length_toNat
  simp only [Short] at short
  rw [UInt32.toNat_add, length, encodedSize]
  change (4 + data.length) % 2 ^ 32 = 4 + data.length
  rw [Nat.mod_eq_of_lt (by omega)]

theorem Short.total_eq {data : List UInt8} (short : Short data) :
    4 + UInt32.ofNat data.length = UInt32.ofNat (encodedSize data) := by
  rw [← short.total_toNat, UInt32.ofNat_toNat]

/-- The admission test of `push`, free of wrapping while no more than the capacity is used. -/
theorem Short.full_iff {data : List UInt8} (short : Short data) (capacity used : UInt32)
    (bound : used.toNat ≤ capacity.toNat) :
    4 + UInt32.ofNat data.length > capacity - used ↔
      capacity.toNat - used.toNat < encodedSize data := by
  rw [gt_iff_lt, UInt32.lt_iff_toNat_lt, short.total_toNat,
    UInt32.toNat_sub_of_le _ _ (UInt32.le_iff_toNat_le.mpr bound)]

theorem toNat_ofNat_sub {low high : Nat} (ordered : low ≤ high) (near : high - low < 2 ^ 32) :
    (UInt32.ofNat high - UInt32.ofNat low).toNat = high - low := by
  rw [← UInt32.ofNat_sub ordered, UInt32.toNat_ofNat', Nat.mod_eq_of_lt near]

theorem ofNat_inj_near {low high : Nat} (ordered : low ≤ high) (near : high - low < 2 ^ 32)
    (same : UInt32.ofNat low = UInt32.ofNat high) : low = high := by
  have distance := toNat_ofNat_sub ordered near
  rw [same, UInt32.sub_self] at distance
  simp only [UInt32.toNat_zero] at distance
  omega

namespace RingBuffer

/-- The capacity field divides the counters' range and is backed by the buffer. It is zero when
the requested capacity is a multiple of 2^32, and then no byte is ever addressed. -/
def Aligned (ring : RingBuffer) : Prop :=
  0 < ring.capacity.toNat → ring.capacity.toNat ∣ 2 ^ 32 ∧ ring.capacity.toNat ≤ ring.buf.size

theorem new_aligned {capacity : Nat} (divides : capacity ∣ 2 ^ 32) : (new capacity).Aligned := by
  intro positive
  simp only [new, UInt32.toNat_ofNat', Array.size_replicate] at positive ⊢
  have bound := Nat.le_of_dvd (by decide) divides
  rcases Nat.lt_or_ge capacity (2 ^ 32) with below | above
  · rw [Nat.mod_eq_of_lt below]
    exact ⟨divides, Nat.le_refl _⟩
  · have whole : capacity = 2 ^ 32 := by omega
    rw [whole] at positive
    simp at positive

/-- The indices of the `count` counter values from `base` on differ. -/
def Separate (ring : RingBuffer) (base count : Nat) : Prop :=
  Wraparound.Apart (2 ^ 32) ring.capacity.toNat base count

/-- Every index lies in the buffer. -/
def Backed (ring : RingBuffer) : Prop := ring.capacity.toNat ≤ ring.buf.size

theorem new_backed (capacity : Nat) : (new capacity).Backed := by
  simp only [Backed, new, UInt32.toNat_ofNat', Array.size_replicate]
  exact Nat.mod_le _ _

theorem Aligned.backed {ring : RingBuffer} (aligned : ring.Aligned) : ring.Backed := by
  rcases Nat.eq_zero_or_pos ring.capacity.toNat with zero | positive
  · rw [Backed, zero]
    exact Nat.zero_le _
  · exact (aligned positive).2

theorem Aligned.separate {ring : RingBuffer} (aligned : ring.Aligned) {count : Nat}
    (bound : count ≤ ring.capacity.toNat) (base : Nat) : ring.Separate base count := by
  rcases Nat.eq_zero_or_pos ring.capacity.toNat with zero | positive
  · intro low high before inside
    omega
  · exact Wraparound.apart_of_dvd (aligned positive).1 bound

theorem slot_ofNat (ring : RingBuffer) (position : Nat) :
    ring.slot (UInt32.ofNat position) = position % 2 ^ 32 % ring.capacity.toNat := by
  rw [slot, UInt32.toNat_mod, UInt32.toNat_ofNat']

/-- Counter values of a separate window address different bytes. -/
theorem Separate.slot_ne {ring : RingBuffer} {base count low high : Nat}
    (separate : ring.Separate base count) (before : low < high) (inside : high < count) :
    ring.slot (UInt32.ofNat (base + low)) ≠ ring.slot (UInt32.ofNat (base + high)) := by
  rw [slot_ofNat, slot_ofNat]
  exact separate low high before inside

theorem byteAt_writeByte_ne {ring : RingBuffer} {position other : UInt32} (byte : UInt8)
    (different : ring.slot other ≠ ring.slot position) :
    (ring.writeByte position byte).byteAt other = ring.byteAt other := by
  simp only [byteAt, writeByte, slot, Array.getD_eq_getD_getElem?] at different ⊢
  rw [Array.getElem?_setIfInBounds_ne (Ne.symm different)]

theorem byteAt_writeByte_self {ring : RingBuffer} (backed : ring.Backed)
    (positive : 0 < ring.capacity.toNat) (position : Nat) (byte : UInt8) :
    (ring.writeByte (UInt32.ofNat position) byte).byteAt (UInt32.ofNat position) = byte := by
  have inside : ring.slot (UInt32.ofNat position) < ring.buf.size := by
    rw [slot_ofNat]
    exact Nat.lt_of_lt_of_le (Nat.mod_lt _ positive) backed
  simp only [byteAt, writeByte, slot, Array.getD_eq_getD_getElem?] at inside ⊢
  rw [Array.getElem?_setIfInBounds_self_of_lt inside]
  rfl

/-- The counters from `start` on address exactly `bytes`. -/
def Holds (ring : RingBuffer) (start : Nat) (bytes : List UInt8) : Prop :=
  ∀ i (bound : i < bytes.length), ring.byteAt (UInt32.ofNat (start + i)) = bytes[i]

theorem holds_nil (ring : RingBuffer) (start : Nat) : ring.Holds start [] := by
  intro i bound
  simp at bound

theorem holds_append {ring : RingBuffer} {start : Nat} {first second : List UInt8} :
    ring.Holds start (first ++ second) ↔
      ring.Holds start first ∧ ring.Holds (start + first.length) second := by
  constructor
  · intro holds
    constructor
    · intro i bound
      rw [holds i (by simp; omega), List.getElem_append_left bound]
    · intro i bound
      rw [Nat.add_assoc, holds (first.length + i) (by simp; omega)]
      simp
  · rintro ⟨holdsFirst, holdsSecond⟩ i bound
    by_cases inside : i < first.length
    · rw [holdsFirst i inside, List.getElem_append_left inside]
    · have offset := holdsSecond (i - first.length) (by simp at bound; omega)
      rw [show start + first.length + (i - first.length) = start + i by omega] at offset
      rw [offset, List.getElem_append_right (by omega)]

theorem Holds.take {ring : RingBuffer} {start : Nat} {bytes : List UInt8}
    (holds : ring.Holds start bytes) (count : Nat) : ring.Holds start (bytes.take count) := by
  rw [← List.take_append_drop count bytes] at holds
  exact (holds_append.mp holds).1

/-- A write ahead of the held bytes, at an index apart from theirs, keeps them. -/
theorem Holds.writeByte {ring : RingBuffer} {start offset : Nat} {bytes : List UInt8}
    (holds : ring.Holds start bytes) (separate : ring.Separate start (offset + 1)) (byte : UInt8)
    (ahead : bytes.length ≤ offset) :
    (ring.writeByte (UInt32.ofNat (start + offset)) byte).Holds start bytes := by
  intro i bound
  rw [byteAt_writeByte_ne byte (separate.slot_ne (by omega) (by omega))]
  exact holds i bound

theorem Holds.snoc {ring : RingBuffer} (backed : ring.Backed) {start : Nat} {bytes : List UInt8}
    (holds : ring.Holds start bytes) (separate : ring.Separate start (bytes.length + 1))
    (byte : UInt8) (positive : 0 < ring.capacity.toNat) :
    (ring.writeByte (UInt32.ofNat (start + bytes.length)) byte).Holds start (bytes ++ [byte]) := by
  rw [holds_append]
  refine ⟨holds.writeByte separate byte (Nat.le_refl _), ?_⟩
  intro i bound
  have first : i = 0 := by simpa using bound
  subst first
  exact byteAt_writeByte_self backed positive _ byte

theorem readFrom_eq {ring : RingBuffer} {start : Nat} {bytes : List UInt8} (offset : Nat)
    (holds : ring.Holds (start + offset) bytes) :
    ring.readFrom (UInt32.ofNat start) offset bytes.length = bytes := by
  induction bytes generalizing offset with
  | nil => rfl
  | cons byte rest ih =>
      have first := holds 0 (by simp)
      have later : ring.Holds (start + (offset + 1)) rest := by
        have parts := holds_append.mp (show ring.Holds (start + offset) ([byte] ++ rest) from holds)
        simpa [Nat.add_assoc] using parts.2
      simp only [List.length_cons, readFrom]
      rw [← UInt32.ofNat_add, ih (offset + 1) later]
      simpa using first

/-- Writing a list of bytes past the held ones appends it to them. -/
theorem writeFrom_holds {ring : RingBuffer} (backed : ring.Backed) {base start : Nat}
    {kept : List UInt8} (bytes : List UInt8) (offset : Nat) (here : start + offset = base + kept.length)
    (holds : ring.Holds base kept) (separate : ring.Separate base (kept.length + bytes.length))
    (room : kept.length + bytes.length ≤ ring.capacity.toNat) :
    (writeFrom (UInt32.ofNat start) offset bytes ring).Holds base (kept ++ bytes) := by
  induction bytes generalizing offset kept ring with
  | nil => simpa [writeFrom] using holds
  | cons byte rest ih =>
      simp only [List.length_cons] at room separate
      simp only [writeFrom, ← UInt32.ofNat_add, here]
      have extended := holds.snoc backed (separate.mono (by omega)) byte (by omega)
      have still : (ring.writeByte (UInt32.ofNat (base + kept.length)) byte).Backed := by
        simpa [Backed, RingBuffer.writeByte] using backed
      have sized : (kept ++ [byte]).length + rest.length = kept.length + (rest.length + 1) := by
        simp
        omega
      have result := ih still (offset + 1) (by simp; omega) extended
        (by rw [sized]; exact separate) (by rw [sized]; exact room)
      simpa using result

theorem writeFrom_fields (start : UInt32) (offset : Nat) (bytes : List UInt8) (ring : RingBuffer) :
    (writeFrom start offset bytes ring).head = ring.head ∧
    (writeFrom start offset bytes ring).tail = ring.tail ∧
    (writeFrom start offset bytes ring).capacity = ring.capacity ∧
    (writeFrom start offset bytes ring).buf.size = ring.buf.size := by
  induction bytes generalizing offset ring with
  | nil => simp [writeFrom]
  | cons byte rest ih =>
      have later := ih (offset + 1) (ring.writeByte (start + UInt32.ofNat offset) byte)
      simpa [writeFrom, writeByte] using later

/-- The unread part of the ring is the encoding of `pending`; `base` counts every byte read so
far and is the unbounded value behind the wrapped `tail`. -/
structure Held (ring : RingBuffer) (base : Nat) (pending : List (List UInt8)) : Prop where
  backed : ring.Backed
  tail : ring.tail = UInt32.ofNat base
  head : ring.head = UInt32.ofNat (base + (encodeAll pending).length)
  fits : (encodeAll pending).length ≤ ring.capacity.toNat
  holds : ring.Holds base (encodeAll pending)
  short : ∀ data ∈ pending, Short data

theorem new_held (capacity : Nat) : (new capacity).Held 0 [] where
  backed := new_backed capacity
  tail := rfl
  head := rfl
  fits := by simp
  holds := holds_nil _ _
  short := by simp

namespace Held

variable {ring : RingBuffer} {base : Nat} {pending : List (List UInt8)}

theorem used_toNat (held : ring.Held base pending) :
    (ring.head - ring.tail).toNat = (encodeAll pending).length := by
  have below := ring.capacity.toNat_lt
  have fits := held.fits
  rw [held.head, held.tail, toNat_ofNat_sub (by omega) (by omega)]
  omega

theorem unread_eq (held : ring.Held base pending) : ring.unread = encodeAll pending := by
  rw [unread, held.used_toNat, held.tail]
  exact readFrom_eq 0 (by simpa using held.holds)

theorem empty_iff (held : ring.Held base pending) : ring.tail = ring.head ↔ pending = [] := by
  constructor
  · intro same
    have below := ring.capacity.toNat_lt
    have fits := held.fits
    rw [held.tail, held.head] at same
    have lengths := ofNat_inj_near (by omega) (by omega) same
    cases pending with
    | nil => rfl
    | cons data rest =>
        simp only [encodeAll_cons, List.length_append, encode_length, encodedSize] at lengths
        omega
  · rintro rfl
    simpa [held.tail] using held.head.symm

/-- `push` accepts exactly what fits beside the unread bytes. -/
theorem push_result (held : ring.Held base pending) {data : List UInt8} (short : Short data) :
    (ring.push data).2 = true ↔
      encodedSize data ≤ ring.capacity.toNat - (encodeAll pending).length := by
  have full := short.full_iff ring.capacity (ring.head - ring.tail)
    (by rw [held.used_toNat]; exact held.fits)
  rw [held.used_toNat] at full
  simp only [push]
  split
  · rename_i refused
    have := full.mp refused
    simp only [Bool.false_eq_true, false_iff]
    omega
  · rename_i accepted
    have := full.not.mp accepted
    simp only [true_iff]
    omega

theorem push_full (held : ring.Held base pending) {data : List UInt8} (short : Short data)
    (full : ring.capacity.toNat - (encodeAll pending).length < encodedSize data) :
    ring.push data = (ring, false) := by
  have refused : ¬(ring.push data).2 = true := by
    rw [held.push_result short]
    omega
  simp only [push] at refused ⊢
  split
  · rfl
  · rename_i accepted
    simp [accepted] at refused

/-- A message pushed onto indices apart from the unread ones is appended to them. -/
theorem push_accept (held : ring.Held base pending) {data : List UInt8} (short : Short data)
    (room : encodedSize data ≤ ring.capacity.toNat - (encodeAll pending).length)
    (separate : ring.Separate base ((encodeAll pending).length + encodedSize data)) :
    (ring.push data).1.Held base (pending ++ [data]) := by
  have accepted := (held.push_result short).mpr room
  have fits := held.fits
  have positive : 4 ≤ encodedSize data := by simp [encodedSize]
  simp only [push] at accepted ⊢
  split at accepted
  · cases accepted
  rename_i notFull
  rw [if_neg notFull]
  have prefixFields := writeFrom_fields ring.head 0 (toLeBytes (UInt32.ofNat data.length)) ring
  have dataFields := writeFrom_fields (ring.head + 4) 0 data
    (writeFrom ring.head 0 (toLeBytes (UInt32.ofNat data.length)) ring)
  have prefixHolds := writeFrom_holds held.backed (toLeBytes (UInt32.ofNat data.length)) 0
    (show base + (encodeAll pending).length + 0 = base + (encodeAll pending).length by omega)
    held.holds (separate.mono (by simp; omega)) (by simp; omega)
  rw [← held.head] at prefixHolds
  have dataBacked :
      (writeFrom ring.head 0 (toLeBytes (UInt32.ofNat data.length)) ring).Backed := by
    simpa [Backed, prefixFields] using held.backed
  have dataSeparate :
      (writeFrom ring.head 0 (toLeBytes (UInt32.ofNat data.length)) ring).Separate base
        ((encodeAll pending).length + encodedSize data) := by
    simpa [Separate, prefixFields] using separate
  have dataHolds := writeFrom_holds dataBacked data 0
    (show base + (encodeAll pending).length + 4 + 0 =
      base + (encodeAll pending ++ toLeBytes (UInt32.ofNat data.length)).length by simp; omega)
    prefixHolds (dataSeparate.mono (by simp [encodedSize]; omega))
    (by simp [prefixFields, encodedSize] at room ⊢; omega)
  have dataStart : ring.head + 4 = UInt32.ofNat (base + (encodeAll pending).length + 4) := by
    rw [held.head, UInt32.ofNat_add _ 4]
    rfl
  rw [← dataStart] at dataHolds
  constructor
  · simpa [Backed, prefixFields, dataFields] using held.backed
  · simpa [prefixFields, dataFields] using held.tail
  · change ring.head + (4 + UInt32.ofNat data.length) = _
    rw [held.head, short.total_eq, ← UInt32.ofNat_add]
    simp [Nat.add_assoc]
  · simp [prefixFields, dataFields]
    omega
  · rw [encodeAll_append, encodeAll_cons, encodeAll_nil, List.append_nil, encode,
      ← List.append_assoc]
    exact dataHolds
  · intro message member
    rcases List.mem_append.mp member with old | new
    · exact held.short message old
    · rw [List.mem_singleton.mp new]
      exact short

theorem pop_empty (held : ring.Held base []) : ring.pop = (ring, none) := by
  have same := held.empty_iff.mpr rfl
  simp [pop, same]

/-- The four bytes `pop` reads first are the length of the oldest message. -/
theorem read_length {data : List UInt8} {rest : List (List UInt8)}
    (held : ring.Held base (data :: rest)) :
    fromLeBytes (ring.readFrom ring.tail 0 4) = UInt32.ofNat data.length := by
  have frame := held.holds
  rw [encodeAll_cons, encode, List.append_assoc] at frame
  have length : ring.readFrom ring.tail 0 4 = toLeBytes (UInt32.ofNat data.length) := by
    rw [held.tail]
    exact readFrom_eq 0 (by simpa using (holds_append.mp frame).1)
  rw [length, fromLeBytes_toLeBytes]

theorem pop_message {data : List UInt8} {rest : List (List UInt8)}
    (held : ring.Held base (data :: rest)) :
    ring.pop.2 = some data ∧ ring.pop.1.Held (base + encodedSize data) rest := by
  have notEmpty : ring.tail ≠ ring.head := by
    rw [Ne, held.empty_iff]
    simp
  have short := held.short data (by simp)
  have fits := held.fits
  have parts := holds_append.mp (show ring.Holds base (encode data ++ encodeAll rest) from
    held.holds)
  have frame := holds_append.mp (show ring.Holds base
    (toLeBytes (UInt32.ofNat data.length) ++ data) from parts.1)
  have dataStart : ring.tail + 4 = UInt32.ofNat (base + 4) := by
    rw [held.tail, UInt32.ofNat_add _ 4]
    rfl
  have payload : ring.readFrom (ring.tail + 4) 0 data.length = data := by
    rw [dataStart]
    exact readFrom_eq 0 (by simpa using frame.2)
  simp only [pop, if_neg notEmpty, held.read_length, short.length_toNat, payload, true_and]
  constructor
  · exact held.backed
  · change ring.tail + (4 + UInt32.ofNat data.length) = _
    rw [held.tail, short.total_eq, ← UInt32.ofNat_add]
  · change ring.head = _
    rw [held.head]
    simp [Nat.add_assoc]
  · simp only [encodeAll_cons, List.length_append, encode_length] at fits
    change (encodeAll rest).length ≤ ring.capacity.toNat
    omega
  · have later := parts.2
    rw [encode_length] at later
    exact later
  · exact fun message member => held.short message (by simp [member])

end Held

theorem push_shape (ring : RingBuffer) (data : List UInt8) :
    (ring.push data).1.tail = ring.tail ∧ (ring.push data).1.capacity = ring.capacity ∧
      (ring.push data).1.buf.size = ring.buf.size := by
  simp only [push]
  split
  · exact ⟨rfl, rfl, rfl⟩
  · simp [writeFrom_fields]

theorem pop_shape (ring : RingBuffer) :
    ring.pop.1.head = ring.head ∧ ring.pop.1.capacity = ring.capacity ∧
      ring.pop.1.buf = ring.buf := by
  simp only [pop]
  split <;> exact ⟨rfl, rfl, rfl⟩

/-- As `Held`, in a ring whose indices are always apart. -/
structure Represents (ring : RingBuffer) (base : Nat) (pending : List (List UInt8)) : Prop where
  aligned : ring.Aligned
  tail : ring.tail = UInt32.ofNat base
  head : ring.head = UInt32.ofNat (base + (encodeAll pending).length)
  fits : (encodeAll pending).length ≤ ring.capacity.toNat
  holds : ring.Holds base (encodeAll pending)
  short : ∀ data ∈ pending, Short data

theorem represents_iff {ring : RingBuffer} {base : Nat} {pending : List (List UInt8)} :
    ring.Represents base pending ↔ ring.Aligned ∧ ring.Held base pending := by
  constructor
  · rintro ⟨aligned, tail, head, fits, holds, short⟩
    exact ⟨aligned, aligned.backed, tail, head, fits, holds, short⟩
  · rintro ⟨aligned, _, tail, head, fits, holds, short⟩
    exact ⟨aligned, tail, head, fits, holds, short⟩

theorem new_represents {capacity : Nat} (divides : capacity ∣ 2 ^ 32) :
    (new capacity).Represents 0 [] :=
  represents_iff.mpr ⟨new_aligned divides, new_held capacity⟩

namespace Represents

variable {ring : RingBuffer} {base : Nat} {pending : List (List UInt8)}

theorem held (represents : ring.Represents base pending) : ring.Held base pending :=
  (represents_iff.mp represents).2

theorem used_toNat (represents : ring.Represents base pending) :
    (ring.head - ring.tail).toNat = (encodeAll pending).length :=
  represents.held.used_toNat

theorem unread_eq (represents : ring.Represents base pending) : ring.unread = encodeAll pending :=
  represents.held.unread_eq

theorem empty_iff (represents : ring.Represents base pending) :
    ring.tail = ring.head ↔ pending = [] :=
  represents.held.empty_iff

theorem push_result (represents : ring.Represents base pending) {data : List UInt8}
    (short : Short data) :
    (ring.push data).2 = true ↔
      encodedSize data ≤ ring.capacity.toNat - (encodeAll pending).length :=
  represents.held.push_result short

theorem push_full (represents : ring.Represents base pending) {data : List UInt8}
    (short : Short data)
    (full : ring.capacity.toNat - (encodeAll pending).length < encodedSize data) :
    ring.push data = (ring, false) :=
  represents.held.push_full short full

theorem push_accept (represents : ring.Represents base pending) {data : List UInt8}
    (short : Short data)
    (room : encodedSize data ≤ ring.capacity.toNat - (encodeAll pending).length) :
    (ring.push data).1.Represents base (pending ++ [data]) := by
  have fits := represents.fits
  obtain ⟨_, capacity, size⟩ := push_shape ring data
  refine represents_iff.mpr ⟨?_, represents.held.push_accept short room ?_⟩
  · simpa only [Aligned, capacity, size] using represents.aligned
  · exact represents.aligned.separate (by omega) base

theorem pop_empty (represents : ring.Represents base []) : ring.pop = (ring, none) :=
  represents.held.pop_empty

theorem pop_message {data : List UInt8} {rest : List (List UInt8)}
    (represents : ring.Represents base (data :: rest)) :
    ring.pop.2 = some data ∧ ring.pop.1.Represents (base + encodedSize data) rest := by
  obtain ⟨popped, held⟩ := represents.held.pop_message
  obtain ⟨_, capacity, buf⟩ := pop_shape ring
  refine ⟨popped, represents_iff.mpr ⟨?_, held⟩⟩
  simpa only [Aligned, capacity, buf] using represents.aligned

end Represents

end RingBuffer

end LeanAntenna
