import Mathlib.Tactic.IntervalCases
import Mathlib.Data.List.GetD
import QuicWorkbench.Lib.InternetChecksum

/-!
# Bit fields of byte strings

A field is so many bits of a byte string from some bit on, as the headers of protocols are laid out: the most significant bit
of a byte is its first. When a field is set (`Field.Sets`), fields that do not overlap with it keep their values
(`Field.Sets.get_of_disjoint`), and so do the bytes behind it. `Field.put` sets a field. The fields of a `Header` do not
overlap, so that fields which are set one after another have the values that they were set to last (`Header.setAll_spec`).
-/

namespace BitFields
open BigEndian

/-- Bit `k` of the bytes. Behind their end all bits are zero. -/
def bit (bytes : List UInt8) (k : Nat) : Nat := (bytes.getD (k / 8) 0).toNat / 2 ^ (7 - k % 8) % 2

/-- The number that the `width` bits from `offset` on are. -/
def bits (bytes : List UInt8) (offset : Nat) : Nat → Nat
  | 0 => 0
  | width + 1 => 2 * bits bytes offset width + bit bytes (offset + width)

variable {bytes bytes' : List UInt8} {offset width : Nat}

theorem bit_lt (bytes : List UInt8) (k : Nat) : bit bytes k < 2 := Nat.mod_lt _ (by omega)

theorem bits_congr (h : ∀ k, offset ≤ k → k < offset + width → bit bytes' k = bit bytes k) :
    bits bytes' offset width = bits bytes offset width := by
  induction width with
  | zero => rfl
  | succ width ih =>
    have hlast := h (offset + width) (by omega) (by omega)
    rw [bits, bits, hlast, ih fun k hk hlt => h k hk (by omega)]

/-- Two fields next to each other. -/
theorem bits_add (bytes : List UInt8) (offset width width' : Nat) :
    bits bytes offset (width + width') = bits bytes offset width * 2 ^ width' + bits bytes (offset + width) width' := by
  induction width' with
  | zero => simp [bits]
  | succ width' ih =>
    rw [← Nat.add_assoc, bits, ih, bits, Nat.pow_succ, Nat.add_assoc offset, ← Nat.mul_assoc]
    omega

/-- A byte is its bits. -/
theorem toNat_getD (bytes : List UInt8) (i : Nat) : (bytes.getD i 0).toNat = bits bytes (8 * i) 8 := by
  have hlt := (bytes.getD i 0).toNat_lt
  have hbit : ∀ j, j < 8 → bit bytes (8 * i + j) = (bytes.getD i 0).toNat / 2 ^ (7 - j) % 2 := by
    intro j hj
    rw [bit, show (8 * i + j) / 8 = i by omega, show (8 * i + j) % 8 = j by omega]
  simp only [bits, hbit 0 (by omega), hbit 1 (by omega), hbit 2 (by omega), hbit 3 (by omega), hbit 4 (by omega),
    hbit 5 (by omega), hbit 6 (by omega), hbit 7 (by omega)]
  omega

/-- Byte strings of one length are equal if their bits are. -/
theorem ext_bit (hlength : bytes'.length = bytes.length) (h : ∀ k, bit bytes' k = bit bytes k) : bytes' = bytes := by
  refine List.ext_getElem hlength fun i hi hi' => ?_
  have hbyte : (bytes'.getD i 0).toNat = (bytes.getD i 0).toNat := by
    rw [toNat_getD, toNat_getD]
    exact bits_congr fun k _ _ => h k
  rw [List.getD_eq_getElem _ _ hi, List.getD_eq_getElem _ _ hi'] at hbyte
  exact UInt8.toNat_inj.1 hbyte

/-! ### Parts -/

theorem bit_drop (bytes : List UInt8) (n k : Nat) : bit (bytes.drop n) k = bit bytes (8 * n + k) := by
  have hbyte : (bytes.drop n).getD (k / 8) 0 = bytes.getD (n + k / 8) 0 := by simp [List.getD_eq_getElem?_getD]
  rw [bit, bit, hbyte, show (8 * n + k) / 8 = n + k / 8 by omega, show (8 * n + k) % 8 = k % 8 by omega]

theorem bit_take {n k : Nat} (h : k < 8 * n) : bit (bytes.take n) k = bit bytes k := by
  have hbyte : (bytes.take n).getD (k / 8) 0 = bytes.getD (k / 8) 0 := by
    simp [List.getD_eq_getElem?_getD, show k / 8 < n by omega]
  rw [bit, bit, hbyte]

theorem bits_drop (bytes : List UInt8) (n offset width : Nat) :
    bits (bytes.drop n) offset width = bits bytes (8 * n + offset) width := by
  induction width with
  | zero => rfl
  | succ width ih => rw [bits, bits, ih, bit_drop, Nat.add_assoc]

theorem bits_take {n : Nat} (h : offset + width ≤ 8 * n) : bits (bytes.take n) offset width = bits bytes offset width :=
  bits_congr fun _ _ hk => bit_take (by omega)

theorem bits_append_left {front back : List UInt8} (h : offset + width ≤ 8 * front.length) :
    bits (front ++ back) offset width = bits front offset width := by
  rw [← bits_take h, List.take_left]

/-- The first word of the bytes, and the others. -/
theorem words_eq_cons (h : 2 ≤ bytes.length) : words bytes = bits bytes 0 16 :: words (bytes.drop 2) := by
  match bytes, h with
  | a :: b :: rest, _ =>
    have ha : a.toNat = bits (a :: b :: rest) 0 8 := toNat_getD (a :: b :: rest) 0
    have hb : b.toNat = bits (a :: b :: rest) 8 8 := toNat_getD (a :: b :: rest) 1
    rw [words, bits_add _ 0 8 8, ← ha, ← hb]
    rfl

/-! ### Fields -/

structure Field where
  offset : Nat
  width : Nat

def Field.get (f : Field) (bytes : List UInt8) : Nat := bits bytes f.offset f.width

/-- The field is set to a value, and nothing else changes. -/
structure Field.Sets (f : Field) (v : Nat) (bytes bytes' : List UInt8) : Prop where
  length : bytes'.length = bytes.length
  get : f.get bytes' = v % 2 ^ f.width
  others : ∀ k, k < f.offset ∨ f.offset + f.width ≤ k → bit bytes' k = bit bytes k

namespace Field
variable {f g : Field} {v : Nat}

theorem Sets.get_of_disjoint (h : f.Sets v bytes bytes')
    (hdisjoint : g.offset + g.width ≤ f.offset ∨ f.offset + f.width ≤ g.offset) : g.get bytes' = g.get bytes :=
  bits_congr fun k hk hlt => h.others k (by omega)

/-- The bytes behind a field stay. -/
theorem Sets.drop (h : f.Sets v bytes bytes') {n : Nat} (hn : f.offset + f.width ≤ 8 * n) : bytes'.drop n = bytes.drop n := by
  refine ext_bit (by rw [List.length_drop, List.length_drop, h.length]) fun k => ?_
  rw [bit_drop, bit_drop]
  exact h.others _ (by omega)

/-! ### Setting a field -/

/-- Bit `k` of the bytes when the field is set. -/
def bitAfter (f : Field) (v : Nat) (bytes : List UInt8) (k : Nat) : Nat :=
  if f.offset ≤ k ∧ k < f.offset + f.width then v / 2 ^ (f.offset + f.width - 1 - k) % 2 else bit bytes k

/-- The number of a byte, from its bits. -/
def byteOf (b : Nat → Nat) : Nat := (List.range 8).foldl (fun n j => 2 * n + b j) 0

def put (f : Field) (v : Nat) (bytes : List UInt8) : List UInt8 :=
  bytes.mapIdx fun i byte =>
    if 8 * i + 8 ≤ f.offset ∨ f.offset + f.width ≤ 8 * i then byte
    else (byteOf fun j => f.bitAfter v bytes (8 * i + j)).toUInt8

theorem bitAfter_lt (f : Field) (v : Nat) (bytes : List UInt8) (k : Nat) : f.bitAfter v bytes k < 2 := by
  unfold bitAfter
  split_ifs
  · exact Nat.mod_lt _ (by omega)
  · exact bit_lt bytes k

theorem byteOf_bit {b : Nat → Nat} (h : ∀ j, b j < 2) {j : Nat} (hj : j < 8) :
    (byteOf b).toUInt8.toNat / 2 ^ (7 - j) % 2 = b j := by
  have h₀ := h 0
  have h₁ := h 1
  have h₂ := h 2
  have h₃ := h 3
  have h₄ := h 4
  have h₅ := h 5
  have h₆ := h 6
  have h₇ := h 7
  have hbyte : (byteOf b).toUInt8.toNat =
      128 * b 0 + 64 * b 1 + 32 * b 2 + 16 * b 3 + 8 * b 4 + 4 * b 5 + 2 * b 6 + b 7 := by
    have hsum : byteOf b = 2 * (2 * (2 * (2 * (2 * (2 * (2 * (2 * 0 + b 0) + b 1) + b 2) + b 3) + b 4) + b 5) + b 6) + b 7 := rfl
    rw [hsum, Nat.toUInt8_eq, UInt8.toNat_ofNat']
    omega
  rw [hbyte]
  interval_cases j <;> omega

theorem bit_put (f : Field) (v : Nat) (bytes : List UInt8) {k : Nat} (hk : k < 8 * bytes.length) :
    bit (f.put v bytes) k = f.bitAfter v bytes k := by
  have hi : k / 8 < bytes.length := by omega
  have hbyte : (f.put v bytes).getD (k / 8) 0 =
      if 8 * (k / 8) + 8 ≤ f.offset ∨ f.offset + f.width ≤ 8 * (k / 8) then bytes.getD (k / 8) 0
      else (byteOf fun j => f.bitAfter v bytes (8 * (k / 8) + j)).toUInt8 := by
    rw [List.getD_eq_getElem _ _ (by simpa [put] using hi), List.getD_eq_getElem _ _ hi]
    simp [put]
  rw [bit, hbyte]
  split_ifs with hfar
  · rw [bitAfter, if_neg (by omega)]
    rfl
  · rw [byteOf_bit (fun j => bitAfter_lt f v bytes _) (Nat.mod_lt k (by omega)), Nat.div_add_mod]

theorem put_sets (f : Field) (v : Nat) (bytes : List UInt8) (h : f.offset + f.width ≤ 8 * bytes.length) :
    f.Sets v bytes (f.put v bytes) := by
  have hlength : (f.put v bytes).length = bytes.length := by simp [put]
  refine ⟨hlength, ?_, fun k hk => ?_⟩
  · -- the first bits of the field are the first bits of the number
    have hfirst : ∀ width, width ≤ f.width →
        bits (f.put v bytes) f.offset width = v / 2 ^ (f.width - width) % 2 ^ width := by
      intro width
      induction width with
      | zero => intro _; simp [bits, Nat.mod_one]
      | succ width ih =>
        intro hle
        have hbit : bit (f.put v bytes) (f.offset + width) = v / 2 ^ (f.width - (width + 1)) % 2 := by
          rw [bit_put f v bytes (by omega), bitAfter, if_pos (by omega)]
          congr 3
          omega
        have hhalf : v / 2 ^ (f.width - width) = v / 2 ^ (f.width - (width + 1)) / 2 := by
          rw [Nat.div_div_eq_div_mul, ← Nat.pow_succ]
          congr 2
          omega
        rw [bits, hbit, ih (by omega), hhalf, Nat.pow_succ', Nat.mod_mul]
        omega
    have hall := hfirst f.width (Nat.le_refl _)
    rwa [Nat.sub_self, Nat.pow_zero, Nat.div_one] at hall
  · by_cases hin : k < 8 * bytes.length
    · rw [bit_put f v bytes hin, bitAfter, if_neg (by omega)]
    · rw [bit, bit, List.getD_eq_default _ _ (by omega), List.getD_eq_default _ _ (by omega)]

end Field

/-! ### Headers -/

/-- The layout of a header: its fields do not overlap, and lie in its bytes. -/
structure Header (F : Type) where
  layout : F → Field
  size : Nat
  disjoint : ∀ f g, f ≠ g →
    (layout g).offset + (layout g).width ≤ (layout f).offset ∨ (layout f).offset + (layout f).width ≤ (layout g).offset
  fits : ∀ f, (layout f).offset + (layout f).width ≤ 8 * size

namespace Header
variable {F : Type}

def get (H : Header F) (f : F) (bytes : List UInt8) : Nat := (H.layout f).get bytes

/-- The function sets the fields of the header. -/
def SetBy (H : Header F) (set : F → Nat → List UInt8 → List UInt8) : Prop :=
  ∀ f v bytes, H.size ≤ bytes.length → (H.layout f).Sets v bytes (set f v bytes)

def put (H : Header F) (f : F) (v : Nat) (bytes : List UInt8) : List UInt8 := (H.layout f).put v bytes

theorem setBy_put (H : Header F) : H.SetBy H.put := by
  intro f v bytes hsize
  have hfits := H.fits f
  exact Field.put_sets _ v bytes (by omega)

theorem get_take {H : Header F} {n : Nat} (h : H.size ≤ n) (f : F) (bytes : List UInt8) :
    H.get f (bytes.take n) = H.get f bytes := by
  have hfits := H.fits f
  exact bits_take (by omega)

/-- Set fields one after another. -/
def setAll (set : F → Nat → List UInt8 → List UInt8) (settings : List (F × Nat)) (bytes : List UInt8) : List UInt8 :=
  settings.foldl (fun bytes x => set x.1 x.2 bytes) bytes

/-- The values of the fields behind that. -/
def valuesAfter [DecidableEq F] (H : Header F) (settings : List (F × Nat)) (values : F → Nat) : F → Nat :=
  settings.foldl (fun values x => Function.update values x.1 (x.2 % 2 ^ (H.layout x.1).width)) values

theorem get_set [DecidableEq F] {H : Header F} {set : F → Nat → List UInt8 → List UInt8} (hset : H.SetBy set) (f : F) (v : Nat)
    {bytes : List UInt8} (h : H.size ≤ bytes.length) :
    (fun g => H.get g (set f v bytes)) = Function.update (fun g => H.get g bytes) f (v % 2 ^ (H.layout f).width) := by
  have hsets := hset f v bytes h
  funext g
  by_cases hg : g = f
  · subst hg
    rw [Function.update_self]
    exact hsets.get
  · rw [Function.update_of_ne hg]
    exact hsets.get_of_disjoint (H.disjoint f g fun heq => hg heq.symm)

/-- The induction is on the settings: each of them gives its field a value, and none changes the bytes behind the header. -/
theorem setAll_spec [DecidableEq F] {H : Header F} {set : F → Nat → List UInt8 → List UInt8} (hset : H.SetBy set)
    (settings : List (F × Nat)) (bytes : List UInt8) (h : H.size ≤ bytes.length) :
    (setAll set settings bytes).length = bytes.length ∧
      (fun g => H.get g (setAll set settings bytes)) = H.valuesAfter settings (fun g => H.get g bytes) ∧
      (setAll set settings bytes).drop H.size = bytes.drop H.size := by
  induction settings generalizing bytes with
  | nil => exact ⟨rfl, rfl, rfl⟩
  | cons x settings ih =>
    have hsets := hset x.1 x.2 bytes h
    obtain ⟨hlength, hvalues, hdrop⟩ := ih (set x.1 x.2 bytes) (by rw [hsets.length]; exact h)
    refine ⟨hlength.trans hsets.length, ?_, hdrop.trans (hsets.drop (H.fits x.1))⟩
    rw [get_set hset x.1 x.2 h] at hvalues
    exact hvalues

end Header
end BitFields
