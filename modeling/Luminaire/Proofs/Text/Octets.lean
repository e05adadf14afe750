import Luminaire.Text.Bounded

/-!
# The bytes of a text

What a node is sent is UTF-8, and a text can be judged by its bytes or by its characters. Both come
to the same where only ASCII is allowed: the bytes of an ASCII text are the codes of its characters,
one for each, and every other character has bytes beyond ASCII only. So a condition on the bytes of
a text that no byte beyond ASCII meets is a condition on its characters (`forall_octets_iff`).
-/

namespace Luminaire

/-- The bytes of a text. -/
def octets (text : String) : List UInt8 := text.toUTF8.data.toList

theorem octets_eq_flatMap (text : String) :
    octets text = text.toList.flatMap String.utf8EncodeChar := by
  rw [octets, String.toUTF8_eq_toByteArray, ← String.utf8Encode_toList, List.utf8Encode,
    List.toList_data_toByteArray]

theorem length_octets (text : String) : (octets text).length = text.utf8ByteSize := by
  simp [octets]

/-- All characters of the text are ASCII. -/
def IsAscii (text : String) : Prop := ∀ c ∈ text.toList, c.toNat < 128

theorem toNat_octet {c : Char} (h : c.toNat < 128) : c.toUInt8.toNat = c.toNat := by
  show c.val.toUInt8.toNat = c.toNat
  rw [UInt32.toNat_toUInt8]
  exact Nat.mod_eq_of_lt (Nat.lt_trans h (by decide))

/-- A range of ASCII characters is a range of bytes. -/
theorem range_iff_octet (low high : Char) (hlow : low.toNat < 128) (hhigh : high.toNat < 128)
    (c : Char) :
    low ≤ c ∧ c ≤ high ↔
      c.toNat < 128 ∧ low.toUInt8 ≤ c.toUInt8 ∧ c.toUInt8 ≤ high.toUInt8 := by
  have hle : ∀ a b : Char, a ≤ b ↔ a.toNat ≤ b.toNat := fun _ _ => UInt32.le_iff_toNat_le
  rw [hle, hle, UInt8.le_iff_toNat_le, UInt8.le_iff_toNat_le, toNat_octet hlow, toNat_octet hhigh]
  constructor
  · intro h
    have hc : c.toNat < 128 := by omega
    rw [toNat_octet hc]
    exact ⟨hc, h⟩
  · rintro ⟨hc, h⟩
    rwa [toNat_octet hc] at h

theorem toNat_lt_of_le_octet {high : Char} (hhigh : high.toNat < 128) {b : UInt8}
    (h : b ≤ high.toUInt8) : b.toNat < 128 := by
  rw [UInt8.le_iff_toNat_le, toNat_octet hhigh] at h
  exact Nat.lt_of_le_of_lt h hhigh

theorem utf8Size_of_ascii {c : Char} (h : c.toNat < 128) : c.utf8Size = 1 := by
  rw [Char.utf8Size_eq_one_iff, UInt32.le_iff_toNat_le]
  exact Nat.le_of_lt_succ h

theorem utf8Length_of_ascii {cs : List Char} (h : ∀ c ∈ cs, c.toNat < 128) :
    utf8Length cs = cs.length := by
  induction cs with
  | nil => rfl
  | cons c cs ih =>
      obtain ⟨hc, hcs⟩ := List.forall_mem_cons.1 h
      rw [utf8Length_cons, utf8Size_of_ascii hc, ih hcs, List.length_cons, Nat.add_comm]

theorem utf8EncodeChar_of_ascii {c : Char} (h : c.toNat < 128) :
    String.utf8EncodeChar c = [c.toUInt8] := by
  rw [String.utf8EncodeChar_eq_singleton (utf8Size_of_ascii h), Char.toUInt8_val]

theorem le_toNat_of_mem_utf8EncodeChar {c : Char} (h : 128 ≤ c.toNat) {b : UInt8}
    (hb : b ∈ String.utf8EncodeChar c) : 128 ≤ b.toNat := by
  have hval : ¬ c.val.toNat ≤ 127 := Nat.not_le_of_lt h
  rw [String.utf8EncodeChar, if_neg hval] at hb
  -- the bytes are 128 or more plus the lower bits of the code
  split at hb
  · simp only [List.mem_cons, List.not_mem_nil, or_false] at hb
    rcases hb with rfl | rfl <;> rw [UInt8.toNat_ofNat'] <;> omega
  · split at hb
    · simp only [List.mem_cons, List.not_mem_nil, or_false] at hb
      rcases hb with rfl | rfl | rfl <;> rw [UInt8.toNat_ofNat'] <;> omega
    · simp only [List.mem_cons, List.not_mem_nil, or_false] at hb
      rcases hb with rfl | rfl | rfl | rfl <;> rw [UInt8.toNat_ofNat'] <;> omega

theorem octets_of_isAscii {text : String} (h : IsAscii text) :
    octets text = text.toList.map Char.toUInt8 := by
  rw [octets_eq_flatMap, List.flatMap_def,
    List.map_congr_left fun c hc => utf8EncodeChar_of_ascii (h c hc), ← List.flatMap_def,
    ← List.map_eq_flatMap]

/-- A text with a character beyond ASCII has a byte beyond ASCII. -/
theorem exists_octet_of_mem {text : String} {c : Char} (hc : c ∈ text.toList)
    (h : 128 ≤ c.toNat) : ∃ b ∈ octets text, 128 ≤ b.toNat := by
  obtain ⟨b, hb⟩ := List.exists_mem_of_ne_nil _ (String.utf8EncodeChar_ne_nil (c := c))
  refine ⟨b, ?_, le_toNat_of_mem_utf8EncodeChar h hb⟩
  rw [octets_eq_flatMap]
  exact List.mem_flatMap_of_mem hc hb

section

variable {p : UInt8 → Prop} {q : Char → Prop} (hp : ∀ b, p b → b.toNat < 128)
  (hq : ∀ c, q c ↔ c.toNat < 128 ∧ p c.toUInt8)

include hp hq

/-- A condition that only ASCII meets holds of the bytes of a text as it holds of its characters. -/
theorem forall_octets_iff (text : String) :
    (∀ b ∈ octets text, p b) ↔ ∀ c ∈ text.toList, q c := by
  constructor
  · intro h
    have hascii : IsAscii text := by
      intro c hc
      refine Nat.lt_of_not_le fun hle => ?_
      obtain ⟨b, hb, hbeyond⟩ := exists_octet_of_mem hc hle
      exact Nat.not_lt_of_le hbeyond (hp b (h b hb))
    rw [octets_of_isAscii hascii, List.forall_mem_map] at h
    exact fun c hc => (hq c).2 ⟨hascii c hc, h c hc⟩
  · intro h
    rw [octets_of_isAscii fun c hc => ((hq c).1 (h c hc)).1, List.forall_mem_map]
    exact fun c hc => ((hq c).1 (h c hc)).2

/-- Such a text has as many bytes as characters. -/
theorem length_and_forall_octets_iff (r : Nat → Prop) (text : String) :
    (r (octets text).length ∧ ∀ b ∈ octets text, p b) ↔
      r text.toList.length ∧ ∀ c ∈ text.toList, q c := by
  rw [forall_octets_iff hp hq text]
  refine and_congr_left fun h => ?_
  rw [octets_of_isAscii fun c hc => ((hq c).1 (h c hc)).1, List.length_map]

end

end Luminaire
