import RulesText.Proofs.Text.Slices

/-!
# Bytes of texts

The characters of ASCII are bytes of their own in the UTF-8 form of a text: no byte of another
character is one of them.

## Main definitions

* `Text.bytes`: the UTF-8 form of a text.
-/

namespace RulesText

namespace Text

variable {a c : Char} {t : Text} {byte : UInt8} {i : Nat}

/-! ## Single characters -/

theorem toNat_toUInt8 (ascii : a.toNat < 128) : a.toUInt8.toNat = a.toNat := by
  rw [Char.toUInt8, UInt32.toNat_toUInt8]
  exact Nat.mod_eq_of_lt (Nat.lt_trans ascii (by decide))

theorem utf8EncodeChar_of_ascii (ascii : a.toNat < 128) :
    String.utf8EncodeChar a = [a.toUInt8] := by
  have le : a.val.toNat ≤ 0x7F := Nat.le_of_lt_succ ascii
  rw [String.utf8EncodeChar, if_pos le]
  rfl

/-- All bytes of a character beyond ASCII are beyond it. -/
theorem le_of_mem_utf8EncodeChar (large : 128 ≤ c.toNat)
    (mem : byte ∈ String.utf8EncodeChar c) : 128 ≤ byte.toNat := by
  have first : ¬c.val.toNat ≤ 0x7F := Nat.not_le_of_lt large
  have marked (n mark : Nat) (le : 128 ≤ mark) (small : n + mark < 256) :
      128 ≤ (UInt8.ofNat (n + mark)).toNat := by
    rw [UInt8.toNat_ofNat']
    omega
  rw [String.utf8EncodeChar, if_neg first] at mem
  split at mem
  · simp only [List.mem_cons, List.not_mem_nil, or_false] at mem
    rcases mem with rfl | rfl <;> exact marked _ _ (by omega) (by omega)
  · split at mem
    · simp only [List.mem_cons, List.not_mem_nil, or_false] at mem
      rcases mem with rfl | rfl | rfl <;> exact marked _ _ (by omega) (by omega)
    · simp only [List.mem_cons, List.not_mem_nil, or_false] at mem
      rcases mem with rfl | rfl | rfl | rfl <;> exact marked _ _ (by omega) (by omega)

/-- A byte of ASCII is the whole character that it belongs to. -/
theorem eq_of_mem_utf8EncodeChar (ascii : a.toNat < 128)
    (mem : a.toUInt8 ∈ String.utf8EncodeChar c) : c = a := by
  have code := toNat_toUInt8 ascii
  rcases Nat.lt_or_ge c.toNat 128 with small | large
  · rw [utf8EncodeChar_of_ascii small, List.mem_singleton] at mem
    rw [← Char.toNat_inj, ← code, mem, toNat_toUInt8 small]
  · have := le_of_mem_utf8EncodeChar large mem
    omega

/-! ## Texts -/

/-- The UTF-8 form of a text. -/
def bytes (t : Text) : List UInt8 :=
  t.flatMap String.utf8EncodeChar

@[simp] theorem bytes_append (s t : Text) : bytes (s ++ t) = bytes s ++ bytes t :=
  List.flatMap_append

@[simp] theorem bytes_cons (c : Char) (t : Text) :
    bytes (c :: t) = String.utf8EncodeChar c ++ bytes t :=
  List.flatMap_cons

@[simp] theorem length_bytes (t : Text) : (bytes t).length = byteSize t := by
  induction t with
  | nil => rfl
  | cons c t ih => simp [ih]

/-- Inside a character, the bytes of a text are those of the character. -/
theorem getElem?_bytes (front back : Text) (lt : i < c.utf8Size) :
    (bytes (front ++ c :: back))[byteSize front + i]? = (String.utf8EncodeChar c)[i]? := by
  rw [bytes_append, ← length_bytes, List.getElem?_append_right (Nat.le_add_right _ _),
    Nat.add_sub_cancel_left, bytes_cons, List.getElem?_append_left (by simpa using lt)]

/-- In front of a place stands the last byte of the text before it. -/
theorem getElem?_bytes_pred {front : Text} (ne : front ≠ []) (back : Text) :
    (bytes (front ++ back))[byteSize front - 1]? = (bytes front).getLast? := by
  have size := byteSize_pos ne
  rw [bytes_append, List.getLast?_eq_getElem?, length_bytes]
  exact List.getElem?_append_left (by rw [length_bytes]; omega)

/-- The last byte of a text is one of ASCII if its last character is. -/
theorem getLast?_bytes_eq_some_iff (ascii : a.toNat < 128) :
    (bytes t).getLast? = some a.toUInt8 ↔ t.getLast? = some a := by
  rcases List.eq_nil_or_concat' t with rfl | ⟨init, c, rfl⟩
  · simp [bytes]
  · have last : (bytes (init ++ [c])).getLast? = (String.utf8EncodeChar c).getLast? := by
      rw [bytes_append, bytes_cons, List.getLast?_append_of_ne_nil] <;> simp [bytes]
    rw [last, List.getLast?_concat]
    constructor
    · exact fun h => congrArg some (eq_of_mem_utf8EncodeChar ascii (List.mem_of_getLast? h))
    · intro h
      rw [Option.some.inj h, utf8EncodeChar_of_ascii ascii]
      rfl

end Text

end RulesText
