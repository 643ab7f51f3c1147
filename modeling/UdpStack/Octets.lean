/-
Byte strings: regions of them, writing over a region, and words in network byte order. A region
that leaves the bytes has no value. A write inside keeps the length (`length_write?`), reads back
what it wrote (`slice?_write?_self`) and changes no byte outside its region (`getElem?_write?`).
-/

namespace UdpStack

/-- Bytes in the order in which they stand on the wire. -/
abbrev Octets := List UInt8

namespace Octets

/-! ## Regions -/

/-- The `len` bytes from `start` on, none unless all of them exist. -/
def slice? (b : Octets) (start len : Nat) : Option Octets :=
  if start + len ≤ b.length then some ((b.drop start).take len) else none

/-- The bytes from `start` up to but not including `stop`, none unless `start ≤ stop` and all of
them exist. -/
def range? (b : Octets) (start stop : Nat) : Option Octets :=
  if start ≤ stop then slice? b start (stop - start) else none

/-- Put `v` over the bytes from `start` on, none unless all of them exist. -/
def write? (b : Octets) (start : Nat) (v : Octets) : Option Octets :=
  if start + v.length ≤ b.length then some (b.take start ++ v ++ b.drop (start + v.length))
  else none

theorem length_slice? {b r : Octets} {start len : Nat} (h : slice? b start len = some r) :
    r.length = len := by
  unfold slice? at h
  split at h
  · cases h; simp; omega
  · cases h

theorem length_write? {b r v : Octets} {start : Nat} (h : write? b start v = some r) :
    r.length = b.length := by
  unfold write? at h
  split at h
  · cases h; simp; omega
  · cases h

theorem slice?_write?_self {b r v : Octets} {start : Nat} (h : write? b start v = some r) :
    slice? r start v.length = some v := by
  have hl := length_write? h
  unfold write? at h
  split at h
  · next hb =>
    cases h
    have hs : (b.take start).length = start := by simp; omega
    rw [slice?, if_pos (by omega), List.append_assoc, List.drop_append, hs]
    simp
  · cases h

/-- A write changes no byte outside its region. -/
theorem getElem?_write? {b r v : Octets} {start i : Nat} (h : write? b start v = some r)
    (hi : i < start ∨ start + v.length ≤ i) : r[i]? = b[i]? := by
  unfold write? at h
  split at h
  · next hb =>
    cases h
    have hs : (b.take start).length = start := by simp; omega
    rcases hi with hi | hi
    · rw [List.append_assoc, List.getElem?_append_left (by omega), List.getElem?_take_of_lt hi]
    · rw [List.getElem?_append_right (by simp; omega), List.getElem?_drop]
      congr 1
      simp
      omega
  · cases h

/-! ## Words in network byte order -/

/-- The word whose high byte is `hi`. -/
def word16 (hi lo : UInt8) : UInt16 := UInt16.ofNat (hi.toNat * 256 + lo.toNat)

/-- The two bytes of a word, high byte first. -/
def ofWord16 (w : UInt16) : Octets := [UInt8.ofNat (w.toNat / 256), UInt8.ofNat w.toNat]

/-- The word of four bytes, most significant first. -/
def word32 (a b c d : UInt8) : UInt32 :=
  UInt32.ofNat (((a.toNat * 256 + b.toNat) * 256 + c.toNat) * 256 + d.toNat)

/-- The four bytes of a word, most significant first. -/
def ofWord32 (w : UInt32) : Octets :=
  [UInt8.ofNat (w.toNat / 16777216), UInt8.ofNat (w.toNat / 65536), UInt8.ofNat (w.toNat / 256),
    UInt8.ofNat w.toNat]

/-- The word at `start`. -/
def word16? (b : Octets) (start : Nat) : Option UInt16 :=
  match b[start]?, b[start + 1]? with
  | some hi, some lo => some (word16 hi lo)
  | _, _ => none

theorem toNat_word16 (hi lo : UInt8) : (word16 hi lo).toNat = hi.toNat * 256 + lo.toNat := by
  have := hi.toNat_lt
  have := lo.toNat_lt
  simp [word16]
  omega

theorem toNat_word32 (a b c d : UInt8) : (word32 a b c d).toNat =
    ((a.toNat * 256 + b.toNat) * 256 + c.toNat) * 256 + d.toNat := by
  have := a.toNat_lt
  have := b.toNat_lt
  have := c.toNat_lt
  have := d.toNat_lt
  simp [word32]
  omega

@[simp] theorem length_ofWord16 (w : UInt16) : (ofWord16 w).length = 2 := rfl

@[simp] theorem length_ofWord32 (w : UInt32) : (ofWord32 w).length = 4 := rfl

theorem word16_ofWord16 (w : UInt16) :
    word16 (UInt8.ofNat (w.toNat / 256)) (UInt8.ofNat w.toNat) = w := by
  apply UInt16.toNat_inj.mp
  have := w.toNat_lt
  simp [toNat_word16]
  omega

theorem word32_ofWord32 (w : UInt32) :
    word32 (UInt8.ofNat (w.toNat / 16777216)) (UInt8.ofNat (w.toNat / 65536))
      (UInt8.ofNat (w.toNat / 256)) (UInt8.ofNat w.toNat) = w := by
  apply UInt32.toNat_inj.mp
  have := w.toNat_lt
  simp [toNat_word32]
  omega

end Octets

end UdpStack
