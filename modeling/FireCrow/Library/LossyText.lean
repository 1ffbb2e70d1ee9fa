import FireCrow.Library.Utf8

/-!
# Lossy decoding around a byte of ASCII

A byte of ASCII is never part of a longer sequence, so that a lossy decoding
falls apart at it, whatever the bytes before and behind it.
-/

namespace FireCrow.Library.Bytes

variable {byte : UInt8}

theorem continuation_ascii (small : byte.toNat < 0x80) :
    continuation byte = none := by
  rw [continuation, if_neg (by omega)]

theorem secondAllowed_ascii (first : UInt8)
    (small : byte.toNat < 0x80) : secondAllowed first byte = false := by
  rw [Bool.eq_false_iff]
  intro allowed
  have bounds := secondAllowed_bounds allowed
  omega

/-- The character at the head does not depend on what a byte of ASCII ends. -/
theorem decodeChar_append (small : byte.toNat < 0x80)
    (first : UInt8) (rest back : Bytes) :
    decodeChar first (rest ++ byte :: back) =
      ((decodeChar first rest).1, (decodeChar first rest).2 ++ byte :: back) := by
  have none := continuation_ascii small
  have refused := secondAllowed_ascii first small
  rcases rest with _ | ⟨second, _ | ⟨third, _ | ⟨fourth, rest⟩⟩⟩
  · simp only [decodeChar, List.nil_append, none, refused, Bool.false_eq_true,
      if_false]
    split_ifs <;> rfl
  · simp only [decodeChar, List.nil_append, List.cons_append, none]
    split_ifs <;> try rfl
    cases continuation second <;> rfl
  · simp only [decodeChar, List.nil_append, List.cons_append, none]
    split_ifs <;> try rfl
    · cases continuation second <;> rfl
    · cases continuation third <;> rfl
    · cases continuation third <;> rfl
  · simp only [decodeChar, List.cons_append]
    split_ifs <;> try rfl
    · cases continuation second <;> rfl
    · cases continuation third <;> rfl
    · cases continuation third with
      | none => rfl
      | some middle => cases continuation fourth <;> rfl

theorem decodeChar_suffix (first : UInt8) (rest : Bytes) :
    (decodeChar first rest).2 <:+ rest := by
  rcases rest with _ | ⟨second, _ | ⟨third, _ | ⟨fourth, rest⟩⟩⟩
  · simp only [decodeChar]
    split_ifs <;> exact List.suffix_refl _
  · have one := List.suffix_cons second []
    simp only [decodeChar]
    split_ifs <;> try first | exact List.suffix_refl _ | exact one
    cases continuation second
    · exact List.suffix_refl _
    · exact one
  · have one := List.suffix_cons second [third]
    have two := (List.suffix_cons third []).trans one
    simp only [decodeChar]
    split_ifs <;> try first | exact List.suffix_refl _ | exact one
    · cases continuation second
      · exact List.suffix_refl _
      · exact one
    · cases continuation third
      · exact one
      · exact two
    · cases continuation third
      · exact one
      · exact two
  · have one := List.suffix_cons second (third :: fourth :: rest)
    have two := (List.suffix_cons third (fourth :: rest)).trans one
    have three := (List.suffix_cons fourth rest).trans two
    simp only [decodeChar]
    split_ifs <;> try first | exact List.suffix_refl _ | exact one
    · cases continuation second
      · exact List.suffix_refl _
      · exact one
    · cases continuation third
      · exact one
      · exact two
    · cases continuation third with
      | none => exact one
      | some middle =>
          cases continuation fourth
          · exact two
          · exact three

/-- More fuel than bytes changes nothing. -/
theorem fromUtf8LossyAfter_congr (fuel : Nat) :
    ∀ (other : Nat) (bytes : Bytes), bytes.length ≤ fuel → bytes.length ≤ other →
      fromUtf8LossyAfter fuel bytes = fromUtf8LossyAfter other bytes := by
  induction fuel with
  | zero =>
      intro other bytes short _
      rw [List.length_eq_zero_iff.1 (Nat.le_zero.1 short)]
      cases other <;> rfl
  | succ fuel ih =>
      intro other bytes short long
      cases bytes with
      | nil => cases other <;> rfl
      | cons first rest =>
          have shorter := (decodeChar_suffix first rest).length_le
          rw [List.length_cons] at short long
          cases other with
          | zero => omega
          | succ other =>
              rw [fromUtf8LossyAfter, fromUtf8LossyAfter]
              exact congrArg ((decodeChar first rest).1 :: ·)
                (ih other (decodeChar first rest).2
                  (shorter.trans (Nat.le_of_succ_le_succ short))
                  (shorter.trans (Nat.le_of_succ_le_succ long)))

theorem fromUtf8Lossy_cons (first : UInt8) (rest : Bytes) :
    fromUtf8Lossy (first :: rest) =
      (decodeChar first rest).1 :: fromUtf8Lossy (decodeChar first rest).2 := by
  have shorter := (decodeChar_suffix first rest).length_le
  exact congrArg ((decodeChar first rest).1 :: ·)
    (fromUtf8LossyAfter_congr _ _ _ shorter le_rfl)

/-- A lossy decoding falls apart at a byte of ASCII. -/
theorem fromUtf8Lossy_append_cons (small : byte.toNat < 0x80)
    (front back : Bytes) :
    fromUtf8Lossy (front ++ byte :: back) =
      fromUtf8Lossy front ++ Char.ofNat byte.toNat :: fromUtf8Lossy back := by
  induction size : front.length using Nat.strong_induction_on
    generalizing front with
  | _ length ih =>
      cases front with
      | nil =>
          rw [List.nil_append, fromUtf8Lossy_cons, decodeChar_of_lt small]
          rfl
      | cons first rest =>
          have shorter := (decodeChar_suffix first rest).length_le
          rw [List.length_cons] at size
          rw [List.cons_append, fromUtf8Lossy_cons, decodeChar_append small,
            ih _ (by omega) _ rfl, fromUtf8Lossy_cons, List.cons_append]

/-- A character of ASCII is decoded from its byte. -/
theorem mem_of_mem_fromUtf8Lossy {character : Char} {bytes : Bytes}
    (ascii : Text.isAscii character = true)
    (member : character ∈ fromUtf8Lossy bytes) :
    character.val.toUInt8 ∈ bytes := by
  induction size : bytes.length using Nat.strong_induction_on
    generalizing bytes with
  | _ length ih =>
      cases bytes with
      | nil => cases member
      | cons first rest =>
          have suffix := decodeChar_suffix first rest
          have shorter := suffix.length_le
          rw [List.length_cons] at size
          rw [fromUtf8Lossy_cons, List.mem_cons] at member
          rcases member with here | later
          · have read : Text.isAscii (decodeChar first rest).1 = true := here ▸ ascii
            have small : first.toNat < 0x80 := decodeChar_ascii read
            rw [decodeChar_of_lt small] at here
            rw [← (decode_ascii_iff ascii).1 ⟨small, here.symm⟩]
            exact List.mem_cons_self
          · exact List.mem_cons_of_mem _
              (suffix.subset (ih _ (by omega) later rfl))

end FireCrow.Library.Bytes
