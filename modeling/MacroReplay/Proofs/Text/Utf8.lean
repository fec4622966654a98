/-!
# Texts as bytes

* `utf8EncodeChar_cases` — which bytes a character is made of;
* `toList_toUTF8`, `fromUTF8?_encode` — a text is stored as its bytes and is read from them again;
* `eq_mark_of_encoded` — which texts begin with the bytes of the mark that a file of text may begin with.
-/

namespace MacroReplay.Text

def encode (cs : List Char) : List UInt8 :=
  cs.flatMap String.utf8EncodeChar

/-- A character of a single byte is that byte, and the bytes of any other are above all of these. -/
theorem utf8EncodeChar_cases (c : Char) :
    (c.val.toNat < 128 ∧ String.utf8EncodeChar c = [UInt8.ofNat c.val.toNat]) ∨
      (128 ≤ c.val.toNat ∧ ∀ b ∈ String.utf8EncodeChar c, 128 ≤ b.toNat) := by
  unfold String.utf8EncodeChar
  dsimp only
  split
  · next h => exact .inl ⟨by omega, rfl⟩
  · next h =>
      refine .inr ⟨by omega, ?_⟩
      split
      · intro b hb
        simp at hb
        rcases hb with rfl | rfl <;> simp <;> omega
      · split
        · intro b hb
          simp at hb
          rcases hb with rfl | rfl | rfl <;> simp <;> omega
        · intro b hb
          simp at hb
          rcases hb with rfl | rfl | rfl | rfl <;> simp <;> omega

/-- Characters of a single byte differ in it. -/
theorem ofNat_beq_eq_false {c e : Char} (hc : c.val.toNat < 128) (he : e.val.toNat < 128)
    (hne : c ≠ e) : (UInt8.ofNat c.val.toNat == UInt8.ofNat e.val.toNat) = false := by
  rw [beq_eq_false_iff_ne]
  intro heq
  have hnat : c.val.toNat = e.val.toNat := by
    have := congrArg UInt8.toNat heq
    simp only [UInt8.toNat_ofNat'] at this
    omega
  exact hne (Char.ext (UInt32.toNat_inj.1 hnat))

theorem toList_loop_eq (bytes : ByteArray) (i : Nat) (front : List UInt8) :
    ByteArray.toList.loop bytes i front = front.reverse ++ bytes.data.toList.drop i := by
  fun_induction ByteArray.toList.loop bytes i front with
  | case1 i front h ih =>
      have hi : i < bytes.data.toList.length := by simpa using h
      rw [ih, List.drop_eq_getElem_cons hi]
      simp [ByteArray.get!, h]
  | case2 i front h =>
      have hi : bytes.data.toList.length ≤ i := by simpa using h
      simp [List.drop_eq_nil_of_le hi]

/-- A text is stored as its bytes. -/
theorem toList_toUTF8 (s : String) : s.toUTF8.toList = encode s.toList := by
  have hbytes : s.toUTF8 = (encode s.toList).toByteArray := String.utf8Encode_toList.symm
  rw [ByteArray.toList, toList_loop_eq, hbytes, List.data_toByteArray]
  simp

/-- Its bytes give the text again. -/
theorem fromUTF8?_encode (s : String) : String.fromUTF8? ⟨(encode s.toList).toArray⟩ = some s := by
  have hbytes : (⟨(encode s.toList).toArray⟩ : ByteArray) = s.toByteArray := by
    rw [← String.utf8Encode_toList]
    exact ByteArray.ext List.data_toByteArray.symm
  rw [hbytes, String.fromUTF8?, dif_pos s.isValidUTF8]
  rfl

/-- The bytes of the mark are those of one character only. -/
theorem eq_mark_of_encoded {c : Char} {rest rest' : List UInt8}
    (hbytes : String.utf8EncodeChar c ++ rest = 0xEF :: 0xBB :: 0xBF :: rest') : c = '\uFEFF' := by
  have hvalue : c.val.toNat = 0xFEFF := by
    unfold String.utf8EncodeChar at hbytes
    generalize c.val.toNat = v at hbytes ⊢
    have hnat : ∀ {n : Nat} {b : UInt8}, UInt8.ofNat n = b → n % 256 = b.toNat := by
      rintro n b rfl
      simp
    dsimp only at hbytes
    -- The first byte says how many there are.
    split at hbytes
    · have hfirst := hnat (List.cons.inj hbytes).1
      simp at hfirst
      omega
    · split at hbytes
      · have hfirst := hnat (List.cons.inj hbytes).1
        simp at hfirst
        omega
      · split at hbytes
        · simp only [List.cons_append, List.nil_append, List.cons.injEq] at hbytes
          obtain ⟨hfirst, hsecond, hthird, -⟩ := hbytes
          have hfirst := hnat hfirst
          have hsecond := hnat hsecond
          have hthird := hnat hthird
          simp at hfirst hsecond hthird
          omega
        · have hfirst := hnat (List.cons.inj hbytes).1
          simp at hfirst
          omega
  exact Char.ext (UInt32.toNat_inj.1 hvalue)

end MacroReplay.Text
