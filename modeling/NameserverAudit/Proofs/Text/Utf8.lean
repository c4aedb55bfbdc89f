import NameserverAudit.Text.Utf8

/-! Characters as bytes and back. Main statement: every text reads back from its bytes.
-/

namespace NameserverAudit.Text.Utf8

/-- One character is read from a first byte and the bytes that continue it. -/
theorem decodeFrom_of_lead {b : UInt8} {more rest : List UInt8}
    {payload count low high code : Nat}
    (lead : lead? b = some (payload, count, low, high))
    (complete : tail low high count 0 payload more = .complete code rest) (position : Nat)
    : decodeFrom position (b :: more)
      = (decodeFrom (position + count + 1) rest).map (Char.ofNat code :: ·) := by
  rw [decodeFrom]
  simp only [lead]
  split
  · next refused => cases complete.symm.trans refused
  · next ended => cases complete.symm.trans ended
  · next same =>
    cases complete.symm.trans same
    rfl

theorem toNat_ofNat_of_lt {n : Nat} (h : n < 256) : (UInt8.ofNat n).toNat = n :=
  UInt8.toNat_ofNat_of_lt' h

/-- A byte that continues a character gives six more bits. -/
theorem tail_follow {low high count seen code k : Nat} {rest : List UInt8}
    (bounds : low ≤ 0x80 + k % 64 ∧ 0x80 + k % 64 ≤ high)
    : tail low high (count + 1) seen code (UInt8.ofNat (0x80 + k % 64) :: rest)
      = tail 0x80 0xbf count (seen + 1) (code * 64 + k % 64) rest := by
  have byte : (UInt8.ofNat (0x80 + k % 64)).toNat = 0x80 + k % 64 :=
    toNat_ofNat_of_lt (by omega)
  rw [tail, byte, if_pos bounds]
  congr 1
  omega

-----------------------------------------------------------------------------------------
-- First bytes
-----------------------------------------------------------------------------------------

theorem lead?_one : ∀ n < 0x80, lead? (UInt8.ofNat n) = some (n, 0, 0x80, 0xbf) := by decide

theorem lead?_two
    : ∀ m < 0x20, m < 2 ∨ lead? (UInt8.ofNat (0xc0 + m)) = some (m, 1, 0x80, 0xbf) := by
  decide

/-- The second byte of three does not write a smaller number nor a surrogate. -/
theorem lead?_three
    : ∀ m < 0x10,
        lead? (UInt8.ofNat (0xe0 + m))
          = some (m, 2, if m = 0 then 0xa0 else 0x80, if m = 0xd then 0x9f else 0xbf) := by
  decide

/-- The second byte of four does not write a smaller number nor one above all characters. -/
theorem lead?_four
    : ∀ m < 5,
        lead? (UInt8.ofNat (0xf0 + m))
          = some (m, 3, if m = 0 then 0x90 else 0x80, if m = 4 then 0x8f else 0xbf) := by
  decide

-----------------------------------------------------------------------------------------
-- Characters and texts
-----------------------------------------------------------------------------------------

/-- The bytes of a character are read as the character, one case for each number of bytes. -/
theorem decodeFrom_encodeChar (c : Char) (rest : List UInt8) (position : Nat)
    : ∃ next,
        decodeFrom position (encodeChar c ++ rest)
          = (decodeFrom next rest).map (c :: ·) := by
  have valid : c.toNat < 0xd800 ∨ 0xdfff < c.toNat ∧ c.toNat < 0x110000 := c.valid
  have read {b : UInt8} {more : List UInt8} {payload count low high : Nat}
      (lead : lead? b = some (payload, count, low, high))
      (complete : tail low high count 0 payload more = .complete c.toNat rest)
      : ∃ next, decodeFrom position (b :: more) = (decodeFrom next rest).map (c :: ·) := by
    rw [decodeFrom_of_lead lead complete, Char.ofNat_toNat]
    exact ⟨_, rfl⟩
  simp only [encodeChar]
  generalize c.toNat = n at valid read ⊢
  split
  · next one => exact read (lead?_one n one) rfl
  · split
    · next two =>
      have lead := (lead?_two (n / 64) (by omega)).resolve_left (by omega)
      simp only [List.cons_append, List.nil_append]
      refine read lead ?_
      rw [tail_follow (by omega), tail]
      congr 1
      omega
    · split
      · next three =>
        have lead := lead?_three (n / 4096) (by omega)
        simp only [List.cons_append, List.nil_append]
        refine read lead ?_
        rw [tail_follow (by split <;> split <;> omega), tail_follow (by omega), tail]
        congr 1
        omega
      · next four =>
        have lead := lead?_four (n / 262144) (by omega)
        simp only [List.cons_append, List.nil_append]
        refine read lead ?_
        rw [tail_follow (by split <;> split <;> omega), tail_follow (by omega),
          tail_follow (by omega), tail]
        congr 1
        omega

/-- The bytes of a text are read as the text, by induction on it. -/
theorem decodeFrom_encode (cs : List Char) (position : Nat)
    : decodeFrom position (encode cs) = .ok cs := by
  induction cs generalizing position with
  | nil => rw [encode, List.flatMap_nil, decodeFrom]
  | cons c cs ih =>
      obtain ⟨next, h⟩ := decodeFrom_encodeChar c (encode cs) position
      rw [encode, List.flatMap_cons, ← encode, h, ih]
      rfl

theorem decode_encode (cs : List Char) : decode (encode cs) = .ok cs :=
  decodeFrom_encode cs 0

end NameserverAudit.Text.Utf8
