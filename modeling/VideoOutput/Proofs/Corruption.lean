import VideoOutput.Proofs.LastWrites
import VideoOutput.Proofs.RoundTrip

/-!
# One wrong byte

What becomes of a valid blob when one of its bytes is replaced by another. In the header it no
longer is a header. Behind it, in the base block, the sum changes by exactly the difference of the
two bytes (`sum_set`), which is not zero, so the checksum tells. The extension blocks are not
covered by anything: there the validator notices nothing.

The strict policy refuses what the validator refuses, for the same reason, before it looks at
anything else. So it does not matter to it that the wrong byte may be one that declares the number
of extension blocks or describes the display.

The lenient policy looks at neither, and what it makes of a wrong byte depends on what the byte
says: it may go unnoticed, change what is read, or make an extension block unreadable. The modules
on the grammar and on what a reader ignores say which. Here only the header is common ground: both
policies refuse a blob without it.
-/

namespace VideoOutput

namespace Bytes

/-- Another byte changes the sum by the difference. -/
theorem sum_set {bytes : List UInt8} {i : Nat} (hi : i < bytes.length) (b : UInt8) :
    sum (bytes.set i b) = sum bytes + (b - bytes[i]) := by
  induction bytes generalizing i with
  | nil => exact absurd hi (by simp)
  | cons c rest ih =>
    cases i with
    | zero =>
      show sum (b :: rest) = sum (c :: rest) + (b - c)
      rw [sum_cons, sum_cons, UInt8.add_comm (c + sum rest), ← UInt8.add_assoc,
        UInt8.sub_add_cancel]
    | succ i =>
      have hi' : i < rest.length := Nat.lt_of_succ_lt_succ hi
      show sum (c :: rest.set i b) = sum (c :: rest) + (b - rest[i])
      rw [sum_cons, sum_cons, ih hi', UInt8.add_assoc]

/-- Bytes with one of them replaced are other bytes. -/
theorem set_ne {bytes : List UInt8} {i : Nat} (hi : i < bytes.length) {b : UInt8}
    (hb : b ≠ bytes[i]) : bytes.set i b ≠ bytes := by
  intro heq
  have hnew : (bytes.set i b)[i]? = some b := List.getElem?_set_self hi
  rw [heq, List.getElem?_eq_getElem hi] at hnew
  exact hb (Option.some.inj hnew).symm

/-- Bytes wrap around, and still their difference is zero only for equal ones. -/
theorem sub_ne_zero {b c : UInt8} (h : b ≠ c) : b - c ≠ 0 := by
  intro hzero
  have hsum := UInt8.sub_add_cancel b c
  rw [hzero, UInt8.zero_add] at hsum
  exact h hsum.symm

end Bytes

namespace Edid

variable {blob : List UInt8} {i : Nat} {b : UInt8}

/-! ## The validator -/

/-- What the validator has accepted starts with a header and sums to zero. -/
theorem of_validate_eq_ok (h : validate blob = .ok ()) :
    128 ≤ blob.length ∧ blob.take 8 = header ∧ Bytes.sum (blob.take 128) = 0 := by
  obtain ⟨hbase, hsum⟩ := validate_eq_ok_iff.mp h
  rcases baseBlock_cases blob with ⟨-, hb⟩ | ⟨-, -, hb⟩ | ⟨hlen, hheader, -⟩
  · rw [hb] at hbase
    exact absurd hbase (by simp)
  · rw [hb] at hbase
    exact absurd hbase (by simp)
  · exact ⟨hlen, hheader, hsum⟩

/-- A blob that is long enough and begins in another way has a bad header. -/
theorem validate_of_header_ne (hlen : 128 ≤ blob.length) (hheader : blob.take 8 ≠ header) :
    validate blob = .error .badHeader := by
  rcases baseBlock_cases blob with ⟨hshort, -⟩ | ⟨-, -, hb⟩ | ⟨-, hmagic, -⟩
  · exact absurd hlen (Nat.not_le.mpr hshort)
  · exact validate_of_baseBlock_error hb
  · exact absurd hmagic hheader

/-- Behind a header the sum of the base block decides. -/
theorem validate_of_header (hlen : 128 ≤ blob.length) (hheader : blob.take 8 = header) :
    validate blob =
      if Bytes.sum (blob.take 128) = 0 then .ok ()
      else .error (.badChecksum 0 (Bytes.sum (blob.take 128))) := by
  rcases baseBlock_cases blob with ⟨hshort, -⟩ | ⟨-, hwrong, -⟩ | ⟨-, -, hb⟩
  · exact absurd hlen (Nat.not_le.mpr hshort)
  · exact absurd hheader hwrong
  · unfold validate
    rw [hb]
    rfl

/-- The strict policy refuses what the validator refuses. -/
theorem decode_strict_of_validate_error {e : ReadError} (h : validate blob = .error e)
    (currentYear : Nat) : decode .strict currentYear blob = .error e := by
  rw [decode_strict_eq, h]

/-! ## Where the wrong byte is -/

/-- A wrong byte in the header is seen as a bad header. -/
theorem validate_set_header (h : validate blob = .ok ()) (hi : i < blob.length)
    (hb : b ≠ blob[i]) (hheader : i < 8) : validate (blob.set i b) = .error .badHeader := by
  obtain ⟨hlen, hstart, -⟩ := of_validate_eq_ok h
  have hin : i < (blob.take 8).length := by
    rw [List.length_take]
    omega
  refine validate_of_header_ne (by rw [List.length_set]; exact hlen) ?_
  rw [List.take_set, ← hstart]
  exact Bytes.set_ne hin (by rw [List.getElem_take]; exact hb)

/-- Behind the header the header stays, and the sum of the base block decides. -/
theorem validate_set_of_le (h : validate blob = .ok ()) (hbehind : 8 ≤ i) :
    validate (blob.set i b) =
      if Bytes.sum ((blob.take 128).set i b) = 0 then .ok ()
      else .error (.badChecksum 0 (Bytes.sum ((blob.take 128).set i b))) := by
  obtain ⟨hlen, hstart, -⟩ := of_validate_eq_ok h
  have hstart' : (blob.set i b).take 8 = header := by
    rw [List.take_set_of_le hbehind]
    exact hstart
  rw [validate_of_header (by rw [List.length_set]; exact hlen) hstart', List.take_set]

/-- A wrong byte behind it is seen as a bad sum of the base block, off by what the byte is off. -/
theorem validate_set_base (h : validate blob = .ok ()) (hi : i < blob.length) (hb : b ≠ blob[i])
    (hbehind : 8 ≤ i) (hbase : i < 128) :
    validate (blob.set i b) = .error (.badChecksum 0 (b - blob[i])) := by
  obtain ⟨hlen, -, hsum⟩ := of_validate_eq_ok h
  have hin : i < (blob.take 128).length := by
    rw [List.length_take]
    omega
  have hdifference : Bytes.sum ((blob.take 128).set i b) = b - blob[i] := by
    rw [Bytes.sum_set hin, hsum, UInt8.zero_add, List.getElem_take]
  rw [validate_set_of_le h hbehind, hdifference, if_neg (Bytes.sub_ne_zero hb)]

/-- A wrong byte in an extension block is not seen. -/
theorem validate_set_extension (h : validate blob = .ok ()) (hextension : 128 ≤ i) :
    validate (blob.set i b) = .ok () := by
  obtain ⟨-, -, hsum⟩ := of_validate_eq_ok h
  have hsame : (blob.take 128).set i b = blob.take 128 := by
    apply List.set_eq_of_length_le
    rw [List.length_take]
    omega
  rw [validate_set_of_le h (by omega), hsame, hsum, if_pos rfl]

/-- **One wrong byte is caught**, wherever it is in the base block of a valid blob and whatever it
is: in the header as a bad header, and behind it as a bad checksum, whose sum is the difference to
the right byte. Validator and strict policy give the same reason. Of a wrong byte behind the base
block the validator does not know. -/
theorem wrong_byte_caught (h : validate blob = .ok ()) (hi : i < blob.length) (hb : b ≠ blob[i])
    (currentYear : Nat) :
    (i < 8 → validate (blob.set i b) = .error .badHeader ∧
      decode .strict currentYear (blob.set i b) = .error .badHeader) ∧
    (8 ≤ i → i < 128 → b - blob[i] ≠ 0 ∧
      validate (blob.set i b) = .error (.badChecksum 0 (b - blob[i])) ∧
      decode .strict currentYear (blob.set i b) = .error (.badChecksum 0 (b - blob[i]))) ∧
    (128 ≤ i → validate (blob.set i b) = .ok ()) := by
  refine ⟨?header, ?base, ?extension⟩
  case header =>
    intro hheader
    have hrefused := validate_set_header h hi hb hheader
    exact ⟨hrefused, decode_strict_of_validate_error hrefused currentYear⟩
  case base =>
    intro hbehind hbase
    have hrefused := validate_set_base h hi hb hbehind hbase
    exact ⟨Bytes.sub_ne_zero hb, hrefused, decode_strict_of_validate_error hrefused currentYear⟩
  case extension => exact validate_set_extension h

/-- A blob with one extension block that claims to have four. The strict policy would complain about
the missing ones, but the checksum comes first. -/
theorem wrong_byte_caught_in_declared_number :
    ∃ blob, validate blob = .ok () ∧ blob.length = 256 ∧ Bytes.get blob 0x7E = 1 ∧
      validate (blob.set 0x7E 4) = .error (.badChecksum 0 3) ∧
      decode .strict 2025 (blob.set 0x7E 4) = .error (.badChecksum 0 3) := by
  obtain ⟨blob, hblob⟩ :
      ∃ blob, blob = (Draft.ofSteps [.extension (CeaDraft.ofSteps []).block]).blob := ⟨_, rfl⟩
  have hvalid : validate blob = .ok () := by
    rw [hblob, Draft.validate_blob]
    rfl
  have hlen : blob.length = 256 := by
    rw [hblob, Draft.length_blob]
    rfl
  have hdeclared : Bytes.get blob 0x7E = 1 := by
    apply UInt8.toNat_inj.mp
    rw [hblob, Draft.get_blob_declared]
    rfl
  have hi : 0x7E < blob.length := by omega
  have hbyte : blob[0x7E] = 1 := (get_eq_getElem hi).symm.trans hdeclared
  have hne : (4 : UInt8) ≠ blob[0x7E] := by
    rw [hbyte]
    decide
  obtain ⟨-, hrefused⟩ := (wrong_byte_caught hvalid hi hne 2025).2.1 (by decide) (by decide)
  rw [hbyte] at hrefused
  exact ⟨blob, hvalid, hlen, hdeclared, hrefused⟩

end Edid

end VideoOutput
