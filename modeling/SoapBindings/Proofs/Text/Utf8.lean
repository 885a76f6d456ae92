import Mathlib.Tactic.SplitIfs
-- The order of strings, which is that of their characters, is the order of their bytes in UTF-8.

namespace SoapBindings.Text

def utf8 (s : String) : List UInt8 :=
  s.toUTF8.data.toList

theorem utf8_eq (s : String) : utf8 s = s.toList.flatMap String.utf8EncodeChar := by
  have h : s.toUTF8 = (String.ofList s.toList).toByteArray := by
    rw [String.toUTF8_eq_toByteArray, String.ofList_toList]
  rw [utf8, h, String.toByteArray_ofList, List.utf8Encode, List.data_toByteArray]

theorem ofNat_lt_ofNat_iff {m n : Nat} (hm : m < 256) (hn : n < 256) :
    UInt8.ofNat m < UInt8.ofNat n ↔ m < n := by
  rw [UInt8.lt_iff_toNat_lt, UInt8.toNat_ofNat', UInt8.toNat_ofNat', Nat.mod_eq_of_lt hm,
    Nat.mod_eq_of_lt hn]

theorem ofNat_eq_ofNat_iff {m n : Nat} (hm : m < 256) (hn : n < 256) :
    UInt8.ofNat m = UInt8.ofNat n ↔ m = n := by
  rw [← UInt8.toNat_inj, UInt8.toNat_ofNat', UInt8.toNat_ofNat', Nat.mod_eq_of_lt hm,
    Nat.mod_eq_of_lt hn]

-- The bytes after the first one are the digits of the character in base 64.
theorem div_eq_add_digit (n b : Nat) : n / b = 64 * (n / (b * 64)) + n / b % 64 := by
  rw [← Nat.div_div_eq_div_mul, Nat.div_add_mod]

-- The first byte of a character tells how many there are, and the more there are, the greater it
-- is. With the same number of bytes, the digits decide from the first one on.
theorem utf8EncodeChar_append_lt {c d : Char} (h : c < d) (l m : List UInt8) :
    String.utf8EncodeChar c ++ l < String.utf8EncodeChar d ++ m := by
  have hd : d.toNat < 0x110000 := by
    have hv : d.toNat < 0xD800 ∨ 0xDFFF < d.toNat ∧ d.toNat < 0x110000 := d.valid
    omega
  have hn : c.toNat < d.toNat := h
  simp only [String.utf8EncodeChar, Char.toNat_val]
  generalize c.toNat = v at hn
  generalize d.toNat = w at hn hd
  have hv : v / 262144 < 8 := by omega
  have hw : w / 262144 < 8 := by omega
  rw [Nat.mod_eq_of_lt hv, Nat.mod_eq_of_lt hw]
  have hv₁ := div_eq_add_digit v 64
  have hw₁ := div_eq_add_digit w 64
  have hv₂ := div_eq_add_digit v 4096
  have hw₂ := div_eq_add_digit w 4096
  split_ifs <;>
    simp (disch := omega) only [List.cons_append, List.nil_append, List.cons_lt_cons_iff,
      ofNat_lt_ofNat_iff, ofNat_eq_ofNat_iff] <;>
    omega

theorem flatMap_utf8EncodeChar_lt {l m : List Char} (h : l < m) :
    l.flatMap String.utf8EncodeChar < m.flatMap String.utf8EncodeChar := by
  induction h
  case nil c m =>
    have hl : 0 < (String.utf8EncodeChar c).length := by
      rw [String.length_utf8EncodeChar]
      exact c.utf8Size_pos
    have ⟨b, bs, hb⟩ := List.exists_cons_of_length_pos hl
    rw [List.flatMap_nil, List.flatMap_cons, hb, List.cons_append]
    exact List.nil_lt_cons b _
  case rel c l d m hcd =>
    rw [List.flatMap_cons, List.flatMap_cons]
    exact utf8EncodeChar_append_lt hcd _ _
  case cons c l m _ hi =>
    rw [List.flatMap_cons, List.flatMap_cons]
    exact List.append_left_lt hi

theorem utf8_lt_of_lt {s t : String} (h : s < t) : utf8 s < utf8 t := by
  rw [utf8_eq, utf8_eq]
  exact flatMap_utf8EncodeChar_lt (String.lt_iff.mp h)

end SoapBindings.Text
