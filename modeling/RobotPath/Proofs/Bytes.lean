/-!
# The order of texts is that of their bytes

A character is encoded as a leading byte, which grows with the character, and as many
further bytes as the leading one says, which are its lower digits to the base 64. So of
two characters the greater has the greater bytes, and texts compare as their bytes do.
-/

namespace RobotPath

/-- The leading byte of a code point. -/
def leadingByte (code : Nat) : Nat :=
  if code ≤ 127 then code
  else if code ≤ 2047 then 192 + code / 64
  else if code ≤ 65535 then 224 + code / 4096
  else 240 + code / 262144

/-- How many bytes follow the leading one. -/
def furtherCount (code : Nat) : Nat :=
  if code ≤ 127 then 0 else if code ≤ 2047 then 1 else if code ≤ 65535 then 2 else 3

/-- The lower digits of a code point to the base 64, as bytes. -/
def furtherBytes (code : Nat) : Nat → List UInt8
  | 0 => []
  | count + 1 =>
      UInt8.ofNat (128 + code / Nat.pow 64 count % 64) :: furtherBytes code count

theorem codePoint_lt (c : Char) : c.val.toNat < 1114112 := by
  have hvalid := c.valid
  rw [UInt32.isValidChar, Nat.isValidChar] at hvalid
  omega

theorem utf8EncodeChar_eq (c : Char) :
    String.utf8EncodeChar c =
      UInt8.ofNat (leadingByte c.val.toNat) ::
        furtherBytes c.val.toNat (furtherCount c.val.toNat) := by
  have hvalid := codePoint_lt c
  generalize hcode : c.val.toNat = code at hvalid
  unfold String.utf8EncodeChar leadingByte furtherCount
  simp only [hcode]
  split
  · rfl
  · split
    · have hlead : code / 64 % 32 = code / 64 := by omega
      simp [furtherBytes, hlead, Nat.add_comm]
    · split
      · have hlead : code / 4096 % 16 = code / 4096 := by omega
        simp [furtherBytes, hlead, Nat.add_comm]
      · have hlead : code / 262144 % 8 = code / 262144 := by omega
        simp [furtherBytes, hlead, Nat.add_comm]

theorem ofNat_cons_lt {a b : Nat} {front back : List UInt8} (ha : a < b) (hb : b < 256) :
    UInt8.ofNat a :: front < UInt8.ofNat b :: back := by
  apply List.cons_lt_cons_iff.mpr
  left
  rw [UInt8.ofNat_lt_iff_lt (Nat.lt_trans ha hb) hb]
  exact ha

/-- Among code points that agree above some digits, the order is that of these digits. -/
theorem furtherBytes_append_lt {code other : Nat} (hlt : code < other) (front back : List UInt8)
    {count : Nat} (hhigh : code / Nat.pow 64 count = other / Nat.pow 64 count) :
    furtherBytes code count ++ front < furtherBytes other count ++ back := by
  induction count with
  | zero =>
      change code / 1 = other / 1 at hhigh
      omega
  | succ count ih =>
      change code / (Nat.pow 64 count * 64) = other / (Nat.pow 64 count * 64) at hhigh
      rw [← Nat.div_div_eq_div_mul, ← Nat.div_div_eq_div_mul] at hhigh
      have hle : code / Nat.pow 64 count ≤ other / Nat.pow 64 count :=
        Nat.div_le_div_right (Nat.le_of_lt hlt)
      rw [furtherBytes, furtherBytes, List.cons_append, List.cons_append]
      rcases Nat.lt_or_eq_of_le hle with hdigit | hdigit
      · apply ofNat_cons_lt <;> omega
      · rw [hdigit]
        exact List.cons_lt_cons_iff.mpr (.inr ⟨rfl, ih hdigit⟩)

/-- The leading byte does not fall, and where it stays the same, so does what it stands for. -/
theorem leadingByte_cases {code other : Nat} (hlt : code < other) (hvalid : other < 1114112) :
    leadingByte other < 256 ∧ (leadingByte code < leadingByte other ∨
      leadingByte code = leadingByte other ∧ furtherCount code = furtherCount other ∧
        code / Nat.pow 64 (furtherCount other) = other / Nat.pow 64 (furtherCount other)) := by
  have h0 : Nat.pow 64 0 = 1 := rfl
  have h1 : Nat.pow 64 1 = 64 := rfl
  have h2 : Nat.pow 64 2 = 4096 := rfl
  have h3 : Nat.pow 64 3 = 262144 := rfl
  unfold leadingByte furtherCount
  -- Each of the four lengths of an encoding against each other.
  repeat' split
  all_goals simp only [h0, h1, h2, h3, true_and]
  all_goals omega

/-- The bytes of a greater character are greater, whatever follows. -/
theorem utf8EncodeChar_append_lt {c d : Char} (h : c < d) (front back : List UInt8) :
    String.utf8EncodeChar c ++ front < String.utf8EncodeChar d ++ back := by
  have hlt : c.val.toNat < d.val.toNat := h
  rw [utf8EncodeChar_eq, utf8EncodeChar_eq, List.cons_append, List.cons_append]
  obtain ⟨hbyte, hlead | ⟨hlead, hcount, hhigh⟩⟩ := leadingByte_cases hlt (codePoint_lt d)
  · exact ofNat_cons_lt hlead hbyte
  · rw [hlead, hcount]
    exact List.cons_lt_cons_iff.mpr (.inr ⟨rfl, furtherBytes_append_lt hlt front back hhigh⟩)

theorem flatMap_utf8EncodeChar_lt {xs ys : List Char} (h : xs < ys) :
    xs.flatMap String.utf8EncodeChar < ys.flatMap String.utf8EncodeChar := by
  induction h with
  | @nil d ys =>
      rw [List.flatMap_cons, utf8EncodeChar_eq, List.cons_append]
      exact List.nil_lt_cons _ _
  | cons _ ih =>
      rw [List.flatMap_cons, List.flatMap_cons]
      exact List.append_left_lt ih
  | rel hlt =>
      rw [List.flatMap_cons, List.flatMap_cons]
      exact utf8EncodeChar_append_lt hlt _ _

theorem toList_toUTF8 (s : String) :
    s.toUTF8.data.toList = s.toList.flatMap String.utf8EncodeChar := by
  rw [← String.ofList_toList (s := s)]
  rw [String.toUTF8_eq_toByteArray, String.toByteArray_ofList, String.ofList_toList]
  exact List.toList_data_toByteArray

/-- Texts compare as their bytes do. -/
theorem lt_iff_toUTF8_lt {s t : String} :
    s < t ↔ s.toUTF8.data.toList < t.toUTF8.data.toList := by
  have hbytes {s t : String} (h : s < t) : s.toUTF8.data.toList < t.toUTF8.data.toList := by
    rw [toList_toUTF8, toList_toUTF8]
    exact flatMap_utf8EncodeChar_lt h
  constructor
  · exact hbytes
  · intro h
    rcases Std.lt_trichotomy s t with hlt | rfl | hgt
    · exact hlt
    · exact absurd h (List.lt_irrefl _)
    · exact absurd h (List.lt_asymm (hbytes hgt))

end RobotPath
