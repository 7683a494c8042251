import Mathlib.Data.List.Induction
import Mathlib.Tactic.Ring

/-! # Big-endian byte strings

Reading and writing unsigned numbers in network byte order.
-/

namespace Ugdr.Wire

abbrev Bytes := List UInt8

/-- The `width` low bytes of a number, most significant first. -/
def encode (width value : Nat) : Bytes :=
  match width with
  | 0 => []
  | width + 1 => UInt8.ofNat (value >>> (8 * width)) :: encode width value

def decode (bytes : Bytes) : Nat :=
  bytes.foldl (fun value byte => value * 256 + byte.toNat) 0

/-- Take a number of `size` bytes off the front. -/
def read (size : Nat) (bytes : Bytes) : Option (Nat × Bytes) :=
  if bytes.length < size then
    none
  else
    some (decode (bytes.take size), bytes.drop size)

/-! ## Reading what was written -/

@[simp] theorem length_encode (width value : Nat) : (encode width value).length = width := by
  induction width with
  | zero => rfl
  | succ width induction => rw [encode, List.length_cons, induction]

theorem foldl_encode (width value start : Nat) :
    (encode width value).foldl (fun value byte => value * 256 + byte.toNat) start =
      start * 256 ^ width + value % 256 ^ width := by
  induction width generalizing start with
  | zero => simp [encode, Nat.mod_one]
  | succ width induction =>
      have shifted : value >>> (8 * width) = value / 256 ^ width := by
        rw [Nat.shiftRight_eq_div_pow, Nat.pow_mul]
      rw [encode, List.foldl_cons, induction, UInt8.toNat_ofNat', shifted,
        Nat.mod_pow_succ (b := 256), Nat.pow_succ]
      ring

theorem decode_encode {width value : Nat} (fits : value < 256 ^ width) :
    decode (encode width value) = value := by
  rw [decode, foldl_encode, Nat.zero_mul, Nat.zero_add, Nat.mod_eq_of_lt fits]

/-- Skipping past a number. -/
theorem drop_encode {width size : Nat} (inside : width ≤ size) (value : Nat) (rest : Bytes) :
    (encode width value ++ rest).drop size = rest.drop (size - width) := by
  rw [List.drop_append, length_encode, List.drop_of_length_le (by rwa [length_encode]),
    List.nil_append]

/-- A number of known width is read back in front of what follows it. -/
theorem read_encode {width value : Nat} (fits : value < 256 ^ width) (rest : Bytes) :
    read width (encode width value ++ rest) = some (value, rest) := by
  have long : ¬ (encode width value ++ rest).length < width := by
    rw [List.length_append, length_encode]
    omega
  rw [read, if_neg long, List.take_left' (length_encode _ _),
    List.drop_left' (length_encode _ _), decode_encode fits]

theorem decode_append (bytes : Bytes) (byte : UInt8) :
    decode (bytes ++ [byte]) = decode bytes * 256 + byte.toNat := by
  rw [decode, List.foldl_append]
  rfl

theorem encode_split (left right value : Nat) :
    encode (left + right) value = encode left (value / 256 ^ right) ++ encode right value := by
  induction left with
  | zero => rw [Nat.zero_add, encode, List.nil_append]
  | succ left induction =>
      have shifted : value >>> (8 * (left + right)) =
          (value / 256 ^ right) >>> (8 * left) := by
        rw [Nat.shiftRight_eq_div_pow, Nat.shiftRight_eq_div_pow, Nat.div_div_eq_div_mul,
          Nat.mul_add, Nat.pow_add, Nat.pow_mul 2 8 right, Nat.mul_comm]
      rw [Nat.add_right_comm, encode, induction, encode, shifted, List.cons_append]

/-- Writing what was read. -/
theorem encode_decode (bytes : Bytes) : encode bytes.length (decode bytes) = bytes := by
  induction bytes using List.reverseRecOn with
  | nil => rfl
  | append_singleton bytes byte induction =>
      have small := byte.toNat_lt
      have quotient : (decode bytes * 256 + byte.toNat) / 256 = decode bytes := by omega
      have last : UInt8.ofNat (decode bytes * 256 + byte.toNat) = byte := by
        apply UInt8.toNat.inj
        rw [UInt8.toNat_ofNat']
        omega
      rw [List.length_append, List.length_singleton, decode_append, encode_split, Nat.pow_one,
        quotient, induction, encode, Nat.mul_zero, Nat.shiftRight_zero, last, encode]

theorem encode_decode_of_length {width : Nat} {bytes : Bytes} (size : bytes.length = width) :
    encode width (decode bytes) = bytes := by
  rw [← size, encode_decode]

theorem decode_lt (bytes : Bytes) : decode bytes < 256 ^ bytes.length := by
  induction bytes using List.reverseRecOn with
  | nil => exact Nat.one_pos
  | append_singleton bytes byte induction =>
      have small := byte.toNat_lt
      rw [decode_append, List.length_append, List.length_singleton, Nat.pow_succ]
      omega

/-! ## Byte order of the host

The hosts are little-endian: an object of some width is stored least significant byte
first, and the conversions to and from network byte order swap the bytes. -/

/-- The bytes of an object in memory. -/
def littleEndian (width value : Nat) : Bytes :=
  (encode width value).reverse

/-- The object that is stored in these bytes. -/
def fromLittleEndian (bytes : Bytes) : Nat :=
  decode bytes.reverse

/-- `htons`, `ntohs`, `htonl` and `ntohl` for their widths. -/
def swapBytes (width value : Nat) : Nat :=
  fromLittleEndian (encode width value)

/-- `host_to_network64` and `network_to_host64`, from two swaps of 32 bits. -/
def swapBytes64 (value : Nat) : Nat :=
  (swapBytes 4 (value % 2 ^ 32) <<< 32) ||| swapBytes 4 (value >>> 32)

/-- What is stored after a swap is in network byte order. -/
theorem littleEndian_swapBytes (width value : Nat) :
    littleEndian width (swapBytes width value) = encode width value := by
  have size : (encode width value).reverse.length = width := by simp
  rw [littleEndian, swapBytes, fromLittleEndian, encode_decode_of_length size,
    List.reverse_reverse]

theorem swapBytes_fromLittleEndian (bytes : Bytes) :
    swapBytes bytes.length (fromLittleEndian bytes) = decode bytes := by
  have size : bytes.reverse.length = bytes.length := List.length_reverse
  rw [swapBytes, fromLittleEndian, fromLittleEndian, encode_decode_of_length size,
    List.reverse_reverse]

theorem encode_mod (width value : Nat) :
    encode width (value % 256 ^ width) = encode width value := by
  have read : decode (encode width value) = value % 256 ^ width := by
    rw [decode, foldl_encode, Nat.zero_mul, Nat.zero_add]
  rw [← read, encode_decode_of_length (length_encode _ _)]

theorem swapBytes_lt (width value : Nat) : swapBytes width value < 256 ^ width := by
  have bound := decode_lt (encode width value).reverse
  rwa [List.length_reverse, length_encode] at bound

theorem swapBytes64_eq (value : Nat) :
    swapBytes64 value =
      swapBytes 4 (value % 2 ^ 32) * 256 ^ 4 + swapBytes 4 (value / 2 ^ 32) := by
  have low := swapBytes_lt 4 (value / 2 ^ 32)
  rw [swapBytes64, Nat.shiftRight_eq_div_pow, ← Nat.shiftLeft_add_eq_or_of_lt low,
    Nat.shiftLeft_eq]
  rfl

theorem littleEndian_swapBytes64 (value : Nat) :
    littleEndian 8 (swapBytes64 value) = encode 8 value := by
  have low := swapBytes_lt 4 (value / 2 ^ 32)
  have high : (swapBytes 4 (value % 2 ^ 32) * 256 ^ 4 + swapBytes 4 (value / 2 ^ 32)) / 256 ^ 4 =
      swapBytes 4 (value % 2 ^ 32) := by
    omega
  have rest : encode 4 (swapBytes 4 (value % 2 ^ 32) * 256 ^ 4 +
      swapBytes 4 (value / 2 ^ 32)) = encode 4 (swapBytes 4 (value / 2 ^ 32)) := by
    rw [← encode_mod, Nat.mul_add_mod_self_right, Nat.mod_eq_of_lt low]
  rw [littleEndian, swapBytes64_eq, encode_split 4 4, encode_split 4 4 value, high, rest,
    List.reverse_append, ← littleEndian, ← littleEndian, littleEndian_swapBytes,
    littleEndian_swapBytes, ← encode_mod 4 value]
  rfl

theorem swapBytes64_fromLittleEndian {bytes : Bytes} (size : bytes.length = 8) :
    swapBytes64 (fromLittleEndian bytes) = decode bytes := by
  have stored := littleEndian_swapBytes64 (fromLittleEndian bytes)
  have reversed : bytes.reverse.length = 8 := by rw [List.length_reverse, size]
  rw [littleEndian, fromLittleEndian, encode_decode_of_length reversed] at stored
  have fits : swapBytes64 (decode bytes.reverse) < 256 ^ 8 := by
    have high := swapBytes_lt 4 (decode bytes.reverse % 2 ^ 32)
    have low := swapBytes_lt 4 (decode bytes.reverse / 2 ^ 32)
    rw [swapBytes64_eq]
    omega
  rw [fromLittleEndian, ← decode_encode fits, List.reverse_inj.mp stored]

end Ugdr.Wire
