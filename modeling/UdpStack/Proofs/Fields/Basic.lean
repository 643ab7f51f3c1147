/-
Bytes that are read as fields and written field by field. What stands outside a region that is written stays, bytes,
words and addresses alike (`getD_write?`, `word_write?`, `Ipv4.Address.stored_write?`), and what is written into the
region is read from it. A view is lawful if each of its edits does to the fields what its name says and nothing else;
then its fields are independent (`View.Lawful.independent`), and so they are after any edits in a row
(`View.Lawful.run`).
-/
import UdpStack.Packet
import UdpStack.Proofs.Octets

namespace UdpStack

open Octets

/-! ## Writing over a region -/

/-- Bytes of the same number that differ in a region at most. -/
structure Octets.AgreeOutside (b r : Octets) (region : Region) : Prop where
  length : r.length = b.length
  byte : ∀ i, i < region.start ∨ region.start + region.len ≤ i → r[i]? = b[i]?

namespace Octets

variable {b r v : Octets} {start i : Nat}

theorem AgreeOutside.of_write (h : write? b start v = some r) : AgreeOutside b r ⟨start, v.length⟩ :=
  ⟨length_write? h, fun _ => getElem?_write? h⟩

/-- A string that ends inside the bytes is written over them. -/
theorem agreeOutside_of_write {α : Type} {f : Octets → α} {x : α} (h : start + v.length ≤ b.length)
    (hx : ∀ {r}, write? b start v = some r → f r = x) :
    ∃ r, write? b start v = some r ∧ AgreeOutside b r ⟨start, v.length⟩ ∧ f r = x :=
  ⟨_, if_pos h, .of_write (if_pos h), hx (if_pos h)⟩

/-- One string after another is written in two steps. -/
theorem write?_append (b u v : Octets) (start : Nat) :
    write? b start (u ++ v) = (write? b start u).bind fun r => write? r (start + u.length) v := by
  by_cases h : start + u.length ≤ b.length
  · have hu : write? b start u = some (b.take start ++ u ++ b.drop (start + u.length)) := if_pos h
    have hlen : (b.take start ++ u).length = start + u.length := by
      rw [List.length_append, List.length_take]
      omega
    have hdrop : (b.take start ++ u ++ b.drop (start + u.length)).drop (start + u.length + v.length) =
        b.drop (start + u.length + v.length) := by
      rw [← List.drop_drop, List.drop_left' hlen, List.drop_drop]
    rw [hu, Option.bind_some]
    unfold write?
    rw [length_write? hu, List.take_left' hlen, hdrop, List.length_append, ← Nat.add_assoc, List.append_assoc _ u v]
  · have hu : write? b start u = none := if_neg h
    rw [hu]
    exact if_neg (by rw [List.length_append]; omega)

theorem getD_write? (h : write? b start v = some r) (hi : i < start ∨ start + v.length ≤ i) :
    r.getD i 0 = b.getD i 0 := by
  rw [List.getD_eq_getElem?_getD, List.getD_eq_getElem?_getD, getElem?_write? h hi]

theorem getD_write?_self (h : write? b start v = some r) {k : Nat} (hk : k < v.length) :
    r.getD (start + k) 0 = v.getD k 0 := by
  have hv := slice?_write?_self h
  unfold slice? at hv
  split at hv
  · have hbyte := congrArg (·[k]?) (Option.some.inj hv)
    simp only [List.getElem?_take_of_lt hk, List.getElem?_drop] at hbyte
    rw [List.getD_eq_getElem?_getD, List.getD_eq_getElem?_getD, hbyte]
  · cases hv

theorem getD_write?_byte {x : UInt8} (h : write? b start [x] = some r) : r.getD start 0 = x :=
  getD_write?_self (k := 0) h Nat.one_pos

theorem word_write? (h : write? b start v = some r) (hi : i + 2 ≤ start ∨ start + v.length ≤ i) :
    word r i = word b i := by
  unfold word byte
  rw [getD_write? h (by omega), getD_write? h (by omega)]

theorem word_write?_self {w : UInt16} (h : write? b start (ofWord16 w) = some r) : word r start = w.toNat := by
  unfold word byte
  rw [← toNat_ofWord16 w]
  exact congrArg₂ (fun hi lo : UInt8 => hi.toNat * 256 + lo.toNat) (getD_write?_self (k := 0) h (by simp))
    (getD_write?_self (k := 1) h (by simp))

end Octets

theorem Ipv4.Address.stored_write? {b r v : Octets} {start i : Nat} (h : write? b start v = some r)
    (hi : i + 4 ≤ start ∨ start + v.length ≤ i) : Ipv4.Address.stored r i = .stored b i := by
  unfold stored
  simp (disch := omega) only [getD_write? h]

theorem Ipv4.Address.stored_write?_self {b r : Octets} {start : Nat} {x : Ipv4.Address}
    (h : write? b start x.octets = some r) : Ipv4.Address.stored r start = x := by
  have hbyte (k : Nat) (hk : k < 4) : r.getD (start + k) 0 = x.octets.getD k 0 := getD_write?_self h hk
  have hfirst : r.getD start 0 = x.a := hbyte 0 (by decide)
  unfold stored
  rw [hfirst, hbyte 1 (by decide), hbyte 2 (by decide), hbyte 3 (by decide)]
  rfl

theorem Ethernet.Address.stored_write? {b r v : Octets} {start i : Nat} (h : write? b start v = some r)
    (hi : i + 6 ≤ start ∨ start + v.length ≤ i) : Ethernet.Address.stored r i = .stored b i := by
  unfold stored
  simp (disch := omega) only [getD_write? h]

theorem Ethernet.Address.stored_write?_self {b r : Octets} {start : Nat} {x : Ethernet.Address}
    (h : write? b start x.octets = some r) : Ethernet.Address.stored r start = x := by
  have hbyte (k : Nat) (hk : k < 6) : r.getD (start + k) 0 = x.octets.getD k 0 := getD_write?_self h hk
  have hfirst : r.getD start 0 = x.a := hbyte 0 (by decide)
  unfold stored
  rw [hfirst, hbyte 1 (by decide), hbyte 2 (by decide), hbyte 3 (by decide), hbyte 4 (by decide), hbyte 5 (by decide)]
  rfl

/-! ## Views -/

/-- Bytes that are read as fields and in which single fields are written. -/
structure View (Fields Edit : Type) where
  /-- Accept bytes. -/
  check : Octets → Except HeaderFault Unit
  /-- All fields. -/
  read? : Octets → Option Fields
  /-- Write a field. -/
  perform? : Octets → Edit → Option Octets
  /-- The bytes of a field. -/
  region : Edit → Region
  /-- What the fields are after one of them was written. -/
  apply : Fields → Edit → Fields
  /-- No field names a number as unknown that has a meaning. -/
  Canonical : Fields → Prop

namespace View

variable {Fields Edit : Type}

/-- Bytes that are accepted can be read and written. What is written into a field is read from it afterwards, and from
every other field what it held before. No byte changes but those of the field. -/
def Independent (v : View Fields Edit) : Prop :=
  ∀ b, v.check b = .ok () → ∃ x, v.read? b = some x ∧ v.Canonical x ∧
    ∀ e, ∃ r, v.perform? b e = some r ∧ v.read? r = some (v.apply x e) ∧ AgreeOutside b r (v.region e)

/-- A view whose fields are all in the first `size` bytes. -/
structure Lawful (v : View Fields Edit) (size : Nat) (fields : Octets → Fields) : Prop where
  complete : ∀ {b}, v.check b = .ok () → size ≤ b.length
  read : ∀ {b}, size ≤ b.length → v.read? b = some (fields b)
  canonical : ∀ b, v.Canonical (fields b)
  perform : ∀ {b}, size ≤ b.length → ∀ e, ∃ r, v.perform? b e = some r ∧ AgreeOutside b r (v.region e) ∧
    fields r = v.apply (fields b) e

namespace Lawful

variable {v : View Fields Edit} {size : Nat} {fields : Octets → Fields}

theorem independent (hv : v.Lawful size fields) : v.Independent := by
  intro b hb
  have hsize := hv.complete hb
  refine ⟨fields b, hv.read hsize, hv.canonical b, fun e => ?_⟩
  obtain ⟨r, hr, hagree, hfields⟩ := hv.perform hsize e
  exact ⟨r, hr, hfields ▸ hv.read (hagree.length ▸ hsize), hagree⟩

/-- Fields that are written one after another hold what was last written into them. -/
theorem run (hv : v.Lawful size fields) {b : Octets} (hb : size ≤ b.length) (es : List Edit) :
    ∃ r, es.foldlM v.perform? b = some r ∧ v.read? r = some (es.foldl v.apply (fields b)) ∧ r.length = b.length ∧
      ∀ i, (∀ e ∈ es, i < (v.region e).start ∨ (v.region e).start + (v.region e).len ≤ i) → r[i]? = b[i]? := by
  induction es generalizing b with
  | nil => exact ⟨b, rfl, hv.read hb, rfl, fun _ _ => rfl⟩
  | cons e es ih =>
    obtain ⟨c, hc, hagree, hfields⟩ := hv.perform hb e
    obtain ⟨r, hr, hread, hlen, hbyte⟩ := ih (hagree.length ▸ hb)
    refine ⟨r, ?_, ?_, hlen.trans hagree.length, fun i hi => ?_⟩
    · rw [List.foldlM_cons, hc]
      exact hr
    · rw [hread, hfields, List.foldl_cons]
    · rw [hbyte i fun e' he' => hi e' (.tail _ he'), hagree.byte i (hi e (.head _))]

end Lawful

end View

/-- Numbers that have a meaning are not named as unknown. -/
def Known {T N : Type} (unknown : N → T) (listed : List N) (t : T) : Prop := ∀ n, t = unknown n → n ∉ listed

end UdpStack
