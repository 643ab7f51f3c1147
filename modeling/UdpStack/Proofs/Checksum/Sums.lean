/-
Sums of words that lose nothing. The words of a byte string are added up in 32 bits, in chunks of 32 bytes and
then two bytes at a time, and the carries are added back in with 16 bits. Here every one of these additions is
told to have no result if it overflows (`ofBytes?`, `combine?`). None of them does exactly if the words add up to
less than `2 ^ 32` (`ofBytes?_eq`, `combine?_eq`), and so it is for all byte strings of up to 131074 bytes but
not for all of 131075 (`ofBytes?_overflows`). As long as nothing overflows, a checksum is the ones' complement
sum, of a whole as of its parts (`sums_onesComplement`).
-/
import UdpStack.Proofs.Checksum

namespace UdpStack.Checksum

open Octets

/-! ## The words of a byte string -/

/-- The words in network byte order, an odd last byte being the high byte of a word. -/
def words : Octets → List UInt16
  | hi :: lo :: rest => word16 hi lo :: words rest
  | [hi] => [word16 hi 0]
  | [] => []

theorem words_append : ∀ {a : Octets} (b : Octets), a.length % 2 = 0 → words (a ++ b) = words a ++ words b
  | hi :: lo :: rest, b, h => by
    have ih := words_append (a := rest) b (by simp only [List.length_cons] at h; omega)
    simp only [List.cons_append, words, ih]
  | [_], _, h => by cases h
  | [], _, _ => rfl

theorem sum_words : ∀ b : Octets, ((words b).map (·.toNat)).sum = total b
  | hi :: lo :: rest => by
    simp only [words, List.map_cons, List.sum_cons, toNat_word16, sum_words rest, total]
  | [hi] => by simp [words, toNat_word16, total]
  | [] => rfl

theorem foldl_words : ∀ (b : Octets) (acc : UInt32),
    (words b).foldl (fun acc w => acc + w.toUInt32) acc = acc + wordSum b
  | hi :: lo :: rest, acc => by
    simp only [words, List.foldl_cons, foldl_words rest, wordSum, UInt32.add_assoc]
  | [hi], acc => rfl
  | [], acc => (UInt32.add_zero acc).symm

/-- A checksum is put together from the words as from checksums of parts. -/
theorem combine_words (b : Octets) : combine (words b) = ofBytes b := by
  unfold combine ofBytes
  rw [foldl_words, UInt32.zero_add]

/-! ## Additions that may overflow -/

/-- A sum of 32 bits, none if it takes more of them. -/
def add32? (x y : UInt32) : Option UInt32 := if x.toNat + y.toNat < 2 ^ 32 then some (x + y) else none

/-- A sum of 16 bits, none if it takes more of them. -/
def add16? (x y : UInt16) : Option UInt16 := if x.toNat + y.toNat < 2 ^ 16 then some (x + y) else none

/-- Add words to a sum, one after the other. -/
def addWords? (acc : UInt32) (ws : List UInt16) : Option UInt32 :=
  ws.foldlM (fun acc w => add32? acc w.toUInt32) acc

/-- Add the carries above sixteen bits back in, twice. -/
def fold? (w : UInt32) : Option UInt16 :=
  (add32? (w >>> 16) (w &&& 0xffff)).bind fun sum => add16? (sum >>> 16).toUInt16 sum.toUInt16

/-- The checksum of parts of even length from the checksums of the parts. -/
def combine? (sums : List UInt16) : Option UInt16 := (addWords? 0 sums).bind fold?

theorem addWords?_append (acc : UInt32) (vs ws : List UInt16) :
    addWords? acc (vs ++ ws) = (addWords? acc vs).bind fun acc => addWords? acc ws := by
  unfold addWords?
  rw [List.foldlM_append]
  rfl

/-- No step of a sum overflows unless the sum itself does. -/
theorem addWords?_eq : ∀ (ws : List UInt16) (acc : UInt32), addWords? acc ws =
    if acc.toNat + (ws.map (·.toNat)).sum < 2 ^ 32 then some (ws.foldl (fun acc w => acc + w.toUInt32) acc) else none
  | [], acc => (if_pos acc.toNat_lt).symm
  | w :: ws, acc => by
    have hcons : addWords? acc (w :: ws) = (add32? acc w.toUInt32).bind fun acc => addWords? acc ws :=
      List.foldlM_cons
    rw [hcons, List.map_cons, List.sum_cons, List.foldl_cons]
    unfold add32?
    rw [UInt16.toNat_toUInt32]
    by_cases hlt : acc.toNat + w.toNat < 2 ^ 32
    · have hacc : (acc + w.toUInt32).toNat = acc.toNat + w.toNat := by
        rw [UInt32.toNat_add, UInt16.toNat_toUInt32, Nat.mod_eq_of_lt hlt]
      rw [if_pos hlt, Option.bind_some, addWords?_eq ws, hacc, Nat.add_assoc]
    · rw [if_neg hlt, if_neg (by omega)]
      rfl

/-- With a carry the low half of a sum of two words is not all ones, so there is room for the carry. -/
theorem carry_add_lt {q r : Nat} (hq : q < 65536) (hr : r < 65536) : (q + r) / 65536 + (q + r) % 65536 < 65536 := by
  rcases Nat.lt_or_ge (q + r) 65536 with h | h
  · rw [Nat.div_eq_of_lt h]
    omega
  · have hd : (q + r) / 65536 = 1 := by omega
    omega

/-- Adding the carries back in never overflows. -/
theorem fold?_eq (w : UInt32) : fold? w = some (foldCarries w) := by
  have hw := w.toNat_lt
  have hfits : (w.toNat / 65536 + w.toNat % 65536) / 65536 + (w.toNat / 65536 + w.toNat % 65536) % 65536 < 65536 :=
    carry_add_lt (by omega) (by omega)
  have hfirst : add32? (w >>> 16) (w &&& 0xffff) = some ((w >>> 16) + (w &&& 0xffff)) := by
    refine if_pos ?_
    rw [toNat_high, toNat_low]
    omega
  unfold fold?
  rw [hfirst]
  refine if_pos ?_
  rw [UInt32.toNat_toUInt16, UInt32.toNat_toUInt16, toNat_high, toNat_high_add_low]
  omega

theorem combine?_eq (sums : List UInt16) :
    combine? sums = if (sums.map (·.toNat)).sum < 2 ^ 32 then some (combine sums) else none := by
  have hzero : (0 : UInt32).toNat + (sums.map (·.toNat)).sum = (sums.map (·.toNat)).sum := Nat.zero_add _
  unfold combine?
  rw [addWords?_eq, hzero]
  split
  · exact fold?_eq _
  · rfl

/-! ## The loops over the bytes -/

/-- Add words as long as there are two bytes. The bytes that are left come back with the sum. -/
def addPairs? : UInt32 → Octets → Option (UInt32 × Octets)
  | acc, hi :: lo :: rest => (add32? acc (word16 hi lo).toUInt32).bind fun acc => addPairs? acc rest
  | acc, rest => some (acc, rest)

/-- Add words in chunks of 32 bytes, as long as there are so many. -/
def addChunks? (acc : UInt32) (b : Octets) : Option (UInt32 × Octets) :=
  if 32 ≤ b.length then (addPairs? acc (b.take 32)).bind fun s => addChunks? s.1 (b.drop 32) else some (acc, b)
termination_by b.length
decreasing_by rw [List.length_drop]; omega

/-- Add an odd last byte, if there is one. -/
def addLast? : UInt32 → Octets → Option UInt32
  | acc, hi :: _ => add32? acc (word16 hi 0).toUInt32
  | acc, [] => some acc

/-- The checksum of a byte string, none if an addition on the way to it overflows. -/
def ofBytes? (b : Octets) : Option UInt16 :=
  (addChunks? 0 b).bind fun s => (addPairs? s.1 s.2).bind fun s => (addLast? s.1 s.2).bind fold?

theorem addPairs?_of_even : ∀ {b : Octets} (acc : UInt32), b.length % 2 = 0 →
    addPairs? acc b = (addWords? acc (words b)).map fun acc => (acc, [])
  | hi :: lo :: rest, acc, h => by
    have hrest : rest.length % 2 = 0 := by simp only [List.length_cons] at h; omega
    show (add32? acc _).bind _ = ((add32? acc _).bind _).map _
    cases add32? acc (word16 hi lo).toUInt32 with
    | none => rfl
    | some acc => exact addPairs?_of_even acc hrest
  | [_], _, h => by cases h
  | [], _, _ => rfl

/-- Behind the pairs at most one byte is left. -/
theorem addPairs?_addLast? : ∀ (b : Octets) (acc : UInt32),
    ((addPairs? acc b).bind fun s => addLast? s.1 s.2) = addWords? acc (words b)
  | hi :: lo :: rest, acc => by
    show ((add32? acc _).bind _).bind _ = (add32? acc _).bind _
    cases add32? acc (word16 hi lo).toUInt32 with
    | none => rfl
    | some acc => exact addPairs?_addLast? rest acc
  | [hi], acc => by
    exact (Option.bind_fun_some _).symm
  | [], _ => rfl

/-- Chunks of 32 bytes hold whole words, so they may be added up beforehand. -/
theorem addChunks?_bind (acc : UInt32) (b : Octets) :
    ((addChunks? acc b).bind fun s => (addPairs? s.1 s.2).bind fun s => addLast? s.1 s.2) =
      addWords? acc (words b) := by
  fun_induction addChunks? acc b with
  | case1 acc b hb ih =>
    have hchunk : (b.take 32).length % 2 = 0 := by rw [List.length_take, Nat.min_eq_left hb]
    have hsplit : words b = words (b.take 32) ++ words (b.drop 32) := by
      rw [← words_append _ hchunk, List.take_append_drop]
    rw [addPairs?_of_even acc hchunk, hsplit, addWords?_append]
    cases addWords? acc (words (b.take 32)) with
    | none => rfl
    | some acc => exact ih (acc, [])
  | case2 acc b _ => exact addPairs?_addLast? b acc

theorem ofBytes?_eq_combine? (b : Octets) : ofBytes? b = combine? (words b) := by
  unfold ofBytes? combine?
  rw [← addChunks?_bind, Option.bind_assoc]
  congr 1
  funext s
  rw [Option.bind_assoc]

theorem ofBytes?_eq (b : Octets) : ofBytes? b = if total b < 2 ^ 32 then some (ofBytes b) else none := by
  rw [ofBytes?_eq_combine?, combine?_eq, sum_words, combine_words]

theorem ofBytes?_of_le {b : Octets} (h : b.length ≤ 131074) : ofBytes? b = some (ofBytes b) := by
  rw [ofBytes?_eq, if_pos (total_lt h)]

theorem combine?_of_le {sums : List UInt16} (h : sums.length ≤ 65537) : combine? sums = some (combine sums) := by
  have hle := sum_toNat_le sums
  rw [combine?_eq, if_pos (by omega)]

/-! ## The longest byte strings -/

theorem total_ones : ∀ n : Nat, total (List.replicate (2 * n) 0xff) = 65535 * n
  | 0 => rfl
  | n + 1 => by
    have hn : List.replicate (2 * (n + 1)) (0xff : UInt8) = 0xff :: 0xff :: List.replicate (2 * n) 0xff := rfl
    rw [hn]
    show 255 * 256 + 255 + total (List.replicate (2 * n) 0xff) = _
    rw [total_ones n]
    omega

theorem sum_ones (n : Nat) : ((List.replicate n (0xffff : UInt16)).map (·.toNat)).sum = 65535 * n := by
  rw [List.map_replicate, List.sum_replicate, smul_eq_mul, Nat.mul_comm]
  rfl

/-- One more byte than 131074 may be too many. -/
theorem ofBytes?_overflows : ∃ b : Octets, b.length = 131075 ∧ ofBytes? b = none := by
  refine ⟨List.replicate (2 * 65537) 0xff ++ [1], ?_, ?_⟩
  · rw [List.length_append, List.length_replicate]
    rfl
  · have heven : (List.replicate (2 * 65537) (0xff : UInt8)).length % 2 = 0 := by rw [List.length_replicate]
    rw [ofBytes?_eq, if_neg]
    rw [total_append _ heven, total_ones]
    exact Nat.not_lt.2 (by decide)

/-! ## Parts of a byte string -/

theorem ofBytes_append {a b : Octets} (ha : a.length % 2 = 0) (h : total (a ++ b) < 2 ^ 32) :
    ofBytes (a ++ b) = combine [ofBytes a, ofBytes b] := by
  have hsum := total_append b ha
  rw [← UInt16.toNat_inj, toNat_ofBytes_of_lt h, toNat_combine (by simp), List.map_cons, List.map_singleton,
    List.sum_cons, List.sum_singleton, toNat_ofBytes_of_lt (by omega), toNat_ofBytes_of_lt (by omega),
    carried_add_left, carried_add_right, hsum]

/-- A checksum is the ones' complement sum. No addition overflows on the way to the checksum of a byte string of up
to 131074 bytes, and it is the sum of the words with the carries added back in; so it is with up to 65537 words.
As long as no addition overflows, the checksum of a byte string is put together from those of two parts, the first
one of even length. And a pseudo header is summed up like its bytes. -/
theorem sums_onesComplement :
    (∀ b : Octets, b.length ≤ 131074 →
      ofBytes? b = some (ofBytes b) ∧ (ofBytes b).toNat = if total b = 0 then 0 else (total b - 1) % 65535 + 1) ∧
    (∀ sums : List UInt16, sums.length ≤ 65537 →
      let s := (sums.map (·.toNat)).sum
      combine? sums = some (combine sums) ∧ (combine sums).toNat = if s = 0 then 0 else (s - 1) % 65535 + 1) ∧
    (∀ a b : Octets, a.length % 2 = 0 → ofBytes? (a ++ b) ≠ none →
      ofBytes (a ++ b) = combine [ofBytes a, ofBytes b]) ∧
    (∀ (src dst : Ipv4.Address) (protocol : UInt8) (len : UInt16),
      pseudoHeader src dst protocol len = ofBytes (src.octets ++ dst.octets ++ [0, protocol] ++ ofWord16 len)) := by
  refine ⟨fun b h => ⟨ofBytes?_of_le h, toNat_ofBytes_of_lt (total_lt h)⟩,
    fun sums h => ⟨combine?_of_le h, toNat_combine h⟩, fun a b ha h => ofBytes_append ha ?_, ?_⟩
  · by_contra hlt
    exact h (by rw [ofBytes?_eq, if_neg hlt])
  · intro src dst protocol len
    rw [← UInt16.toNat_inj, toNat_pseudoHeader, toNat_ofBytes (by simp)]
    rfl

/-- Bytes of all ones, as many as may be, add up to all ones; so do their words, and so they do in two parts. -/
theorem sums_onesComplement_longest :
    let b := List.replicate (2 * 65537) (0xff : UInt8)
    let sums := List.replicate 65537 (0xffff : UInt16)
    (b.length ≤ 131074 ∧ ofBytes? b = some 0xffff) ∧ (sums.length ≤ 65537 ∧ combine? sums = some 0xffff) ∧
      combine [ofBytes (b.take 2), ofBytes (b.drop 2)] = 0xffff := by
  intro b sums
  have hlen : b.length ≤ 131074 := by rw [List.length_replicate]
  have hlen' : sums.length ≤ 65537 := by rw [List.length_replicate]
  have heven : (b.take 2).length % 2 = 0 := by rw [List.length_take, List.length_replicate]; rfl
  obtain ⟨hbytes, hsums, happend, -⟩ := sums_onesComplement
  obtain ⟨hsum, hvalue⟩ := hbytes b hlen
  obtain ⟨hsum', hvalue'⟩ := hsums sums hlen'
  have hones : ofBytes b = 0xffff := by
    rw [← UInt16.toNat_inj, hvalue, total_ones]
    decide
  have hones' : combine sums = 0xffff := by
    rw [← UInt16.toNat_inj, hvalue', sum_ones]
    decide
  have hparts := happend (b.take 2) (b.drop 2) heven (by rw [List.take_append_drop, hsum]; nofun)
  rw [List.take_append_drop] at hparts
  exact ⟨⟨hlen, by rw [hsum, hones]⟩, ⟨hlen', by rw [hsum', hones']⟩, by rw [← hparts, hones]⟩

end UdpStack.Checksum
