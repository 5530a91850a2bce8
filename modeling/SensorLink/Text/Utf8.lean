/-! Text as UTF-8 bytes. Reading accepts exactly what writing produces: `decode?_eq_some_iff`. -/

namespace SensorLink

abbrev Bytes := List UInt8

namespace Text

def encode (s : String) : Bytes := s.toByteArray.data.toList

/-- The text that `b` spells, if `b` is well formed UTF-8. -/
def decode? (b : Bytes) : Option String := String.fromUTF8? ⟨b.toArray⟩

theorem decode?_encode (s : String) : decode? (encode s) = some s := by
  simp only [decode?, encode, Array.toArray_toList, String.fromUTF8?]
  exact dif_pos s.isValidUTF8

theorem eq_encode_of_decode? {b : Bytes} {s : String} (h : decode? b = some s) : b = encode s := by
  unfold decode? String.fromUTF8? at h
  split at h
  · simp only [Option.some.injEq] at h
    subst h
    simp [encode, String.fromUTF8]
  · cases h

theorem decode?_eq_some_iff {b : Bytes} {s : String} : decode? b = some s ↔ b = encode s :=
  ⟨eq_encode_of_decode?, fun h => h ▸ decode?_encode s⟩

theorem length_encode (s : String) : (encode s).length = s.utf8ByteSize := by
  rw [encode, Array.length_toList]; rfl

theorem encode_eq_flatMap (s : String) : encode s = s.toList.flatMap String.utf8EncodeChar := by
  rw [encode, ← String.utf8Encode_toList, List.utf8Encode, List.data_toByteArray]

/-- A byte below 128 spells a character on its own, and is part of no other. -/
theorem mem_utf8EncodeChar {b : UInt8} (hb : b < 128) (c : Char) :
    b ∈ String.utf8EncodeChar c ↔ c.toNat = b.toNat := by
  have hb' : b.toNat < 128 := hb
  show _ ↔ c.val.toNat = b.toNat
  fun_cases String.utf8EncodeChar c <;> rename_i v h <;>
    simp only [List.mem_cons, List.not_mem_nil, or_false, ← UInt8.toNat_inj, UInt8.toNat_ofNat'] <;> omega

theorem mem_encode_iff {b : UInt8} (hb : b < 128) (s : String) :
    b ∈ encode s ↔ ∃ c ∈ s.toList, c.toNat = b.toNat := by
  simp only [encode_eq_flatMap, List.mem_flatMap, mem_utf8EncodeChar hb]

end Text
end SensorLink
