import Zc.Error
import Zc.Lib.Digits
import Zc.Str

/-!
# Lower-case hexadecimal

`hex` and `unhex` of `store.rs`; `fsutil::nonce` writes its bytes the same way.
-/

namespace zc

def hexPair (b : UInt8) : List Char :=
  [(b.toNat / 16).digitChar, (b.toNat % 16).digitChar]

def hex (bytes : List UInt8) : String :=
  String.ofList (bytes.flatMap hexPair)

/-- An ASCII digit or one of `a` to `f`. -/
def isHexDigit (c : Char) : Bool :=
  ('0' ≤ c && c ≤ '9') || ('a' ≤ c && c ≤ 'f')

/-- The bytes of a text of digit pairs. -/
def pairs : List Char → List UInt8
  | high :: low :: rest => UInt8.ofNat (Digits.value 16 [high, low]) :: pairs rest
  | _ => []

def unhex (text : String) (count : Nat) : Result (List UInt8) := do
  ensure (str.len text == count * 2 && text.toList.all isHexDigit) (.message "InvalidDigest")
  return pairs text.toList

theorem isHexDigit_digitChar {d : Nat} (hd : d < 16) : isHexDigit d.digitChar = true := by
  have hall : ∀ k < 16, isHexDigit k.digitChar = true := by decide
  exact hall d hd

theorem isHexDigit_of_mem_hex {bytes : List UInt8} {c : Char} (hc : c ∈ (hex bytes).toList) : isHexDigit c = true := by
  rw [hex, String.toList_ofList, List.mem_flatMap] at hc
  obtain ⟨b, _, hc⟩ := hc
  have hb : b.toNat < 256 := b.toNat_lt
  simp only [hexPair, List.mem_cons, List.not_mem_nil, or_false] at hc
  obtain rfl | rfl := hc
  · exact isHexDigit_digitChar (by omega)
  · exact isHexDigit_digitChar (by omega)

theorem toNat_lt_of_isHexDigit {c : Char} (hc : isHexDigit c = true) : c.toNat < 128 := by
  simp only [isHexDigit, Bool.or_eq_true, Bool.and_eq_true, decide_eq_true_eq, Char.le_def, UInt32.le_iff_toNat_le] at hc
  change c.val.toNat < 128
  obtain ⟨-, hc⟩ | ⟨-, hc⟩ := hc
  · exact Nat.lt_of_le_of_lt hc (by decide)
  · exact Nat.lt_of_le_of_lt hc (by decide)

theorem toDigit_digitChar_sixteen {d : Nat} (hd : d < 16) : Digits.toDigit 16 d.digitChar = some d :=
  Digits.toDigit_digitChar (Nat.le_refl _) hd

theorem pairs_hex (bytes : List UInt8) : pairs (hex bytes).toList = bytes := by
  rw [hex, String.toList_ofList]
  induction bytes with
  | nil => rfl
  | cons b bytes ih =>
    have hb : b.toNat < 256 := b.toNat_lt
    have hvalue : Digits.value 16 (hexPair b) = b.toNat := by
      simp only [Digits.value, hexPair, List.foldl_cons, List.foldl_nil,
        toDigit_digitChar_sixteen (show b.toNat / 16 < 16 by omega),
        toDigit_digitChar_sixteen (show b.toNat % 16 < 16 by omega), Option.getD_some]
      omega
    rw [List.flatMap_cons]
    change UInt8.ofNat (Digits.value 16 (hexPair b)) :: pairs (bytes.flatMap hexPair) = b :: bytes
    rw [ih, hvalue, UInt8.ofNat_toNat]

theorem length_hex (bytes : List UInt8) : (hex bytes).toList.length = bytes.length * 2 := by
  rw [hex, String.toList_ofList]
  induction bytes with
  | nil => rfl
  | cons b bytes ih =>
    rw [List.flatMap_cons, List.length_append, ih, List.length_cons]
    change 2 + bytes.length * 2 = _
    omega

theorem len_eq_length_of_ascii {text : String} (hascii : ∀ c ∈ text.toList, c.toNat < 128) :
    str.len text = text.toList.length := by
  obtain ⟨chars, rfl⟩ : ∃ chars, text = String.ofList chars := ⟨text.toList, String.ofList_toList.symm⟩
  rw [String.toList_ofList] at hascii ⊢
  rw [str.len, String.utf8ByteSize_ofList]
  induction chars with
  | nil => rfl
  | cons c chars ih =>
    have hsize : c.utf8Size = 1 := by
      rw [Char.utf8Size_eq_one_iff, UInt32.le_iff_toNat_le]
      exact Nat.le_of_lt_succ (hascii c List.mem_cons_self)
    rw [String.utf8Len_cons, ih fun c' hc' => hascii c' (List.mem_cons_of_mem _ hc'), hsize, List.length_cons]

theorem len_hex (bytes : List UInt8) : str.len (hex bytes) = bytes.length * 2 := by
  rw [len_eq_length_of_ascii fun c hc => toNat_lt_of_isHexDigit (isHexDigit_of_mem_hex hc), length_hex]

theorem unhex_hex (bytes : List UInt8) : unhex (hex bytes) bytes.length = .ok bytes := by
  have hall : (hex bytes).toList.all isHexDigit = true := by
    rw [List.all_eq_true]
    exact fun c hc => isHexDigit_of_mem_hex hc
  unfold unhex
  rw [bind_eq_ok_iff]
  refine ⟨(), ?_, congrArg Except.ok (pairs_hex bytes)⟩
  rw [ensure_eq_ok_iff, len_hex, hall, beq_self_eq_true, Bool.and_self]

end zc
