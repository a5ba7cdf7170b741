/-
# Corrupted headers are rejected

An accepted header and the same header with some bits flipped cannot both
carry their CRC unless the CRC's generator divides the flipped bits, in the
order in which the CRC sees them: the 24 bytes with the CRC field zero, and
behind them the CRC field, high byte first (`codeword`). It divides no odd
number of bits, no two bits and no burst of 16 bits in front of the CRC field.

Key definitions: `codeword`, `flip`, `Burst`.
Key theorems: `dvd_of_accepted`, `corruption_detected`.
-/
import UsbMux.Codec
import UsbMux.Checksum

namespace UsbMux

open LittleEndian Polynomial

/-! ### What the CRC sees -/

/-- The header with its CRC field cleared, and the CRC behind it. -/
def codeword (e : Bytes) : Bytes := e.take 20 ++ [0, 0] ++ e.drop 22 ++ [e.getD 21 0, e.getD 20 0]

/-- The header with the bits of `e` flipped. -/
def flip (src e : Bytes) : Bytes := List.zipWith (· ^^^ ·) src e

theorem length_flip {src e : Bytes} (h : src.length = e.length) : (flip src e).length = e.length := by
  rw [flip, List.length_zipWith, h, Nat.min_self]

/-- A header is its parts around the CRC field. -/
theorem split_header : ∀ {src : Bytes}, src.length = 24 →
    src = src.take 20 ++ [src.getD 20 0, src.getD 21 0] ++ src.drop 22
  | [_, _, _, _, _, _, _, _, _, _, _, _, _, _, _, _, _, _, _, _, _, _, _, _], _ => rfl

/-- The decoder's copy with its CRC bytes cleared. -/
theorem clear_eq : ∀ {src : Bytes}, src.length = 24 →
    (src.set HDR_CRC16_OFFSET 0).set (HDR_CRC16_OFFSET + 1) 0 = src.take 20 ++ [0, 0] ++ src.drop 22
  | [_, _, _, _, _, _, _, _, _, _, _, _, _, _, _, _, _, _, _, _, _, _, _, _], _ => rfl

/-- An accepted header carries the CRC of itself. -/
theorem crc_of_accepted {src : Bytes} (hs : src.length = 24) {n : ℕ} {h : Header} (hd : decodeHeader src n = .ok h) :
    crc16 (src.take 20 ++ [0, 0] ++ src.drop 22) 24 = word16 (src.getD 20 0) (src.getD 21 0) := by
  obtain ⟨-, htake, hsealed⟩ := (decodeHeader_eq_ok hs.ge).mp hd
  rw [List.take_of_length_le hs.le] at htake
  have hcrc : readLe16 src HDR_CRC16_OFFSET = h.headerCrc16 :=
    congrArg Header.headerCrc16 (deserializeHeader_of_decode hd)
  have hclear : (src.set HDR_CRC16_OFFSET 0).set (HDR_CRC16_OFFSET + 1) 0 = h.image 0 := by rw [htake, image_clear]
  rw [← clear_eq hs, hclear, hsealed.2]
  exact hcrc.symm

theorem toBitVec_word16 (lo hi : UInt8) : (word16 lo hi).toBitVec = hi.toBitVec ++ lo.toBitVec := by
  apply BitVec.eq_of_toNat_eq
  have hlo : lo.toNat < 2 ^ 8 := lo.toNat_lt
  rw [BitVec.toNat_append, UInt16.toNat_toBitVec, toNat_word16, UInt8.toNat_toBitVec, UInt8.toNat_toBitVec,
    Nat.or_comm, or_shiftLeft hlo]
  omega

/-- A word is the polynomial of its bytes, the high one first. -/
theorem poly_word16 (lo hi : UInt8) : Crc.poly (word16 lo hi).toBitVec = Crc.ofBits (messageBits [hi, lo]) := by
  rw [toBitVec_word16, Crc.poly_append, messageBits, List.map_cons, Crc.bits_cons, Crc.ofBits_append, Crc.ofBits_bitsOf,
    List.map_cons, Crc.bits_cons, Crc.ofBits_append, Crc.ofBits_bitsOf]
  simp [Crc.bits, Crc.ofBits]

/-! ### Flipped bits -/

theorem getD_flip : ∀ {src e : Bytes}, src.length = e.length → ∀ i,
    (flip src e).getD i 0 = src.getD i 0 ^^^ e.getD i 0
  | [], [], _, i => by simp [flip]
  | _ :: _, _ :: _, _, 0 => rfl
  | _ :: _, _ :: _, h, i + 1 => getD_flip (Nat.succ.inj h) i

/-- Clearing the CRC field goes through a flip. -/
theorem flip_clear {src e : Bytes} (hs : src.length = 24) (he : e.length = 24) :
    (flip src e).take 20 ++ [0, 0] ++ (flip src e).drop 22 =
      flip (src.take 20 ++ [0, 0] ++ src.drop 22) (e.take 20 ++ [0, 0] ++ e.drop 22) := by
  have hfront : (src.take 20 ++ [(0 : UInt8), 0]).length = (e.take 20 ++ [(0 : UInt8), 0]).length := by simp [hs, he]
  have htake : (src.take 20).length = (e.take 20).length := by simp [hs, he]
  unfold flip
  rw [List.zipWith_append hfront, List.zipWith_append htake, List.take_zipWith, List.drop_zipWith]
  rfl

theorem map_flip (d e : Bytes) : (flip d e).map UInt8.toBitVec =
    List.zipWith (· ^^^ ·) (d.map UInt8.toBitVec) (e.map UInt8.toBitVec) := by
  rw [flip, List.map_zipWith, List.zipWith_map]
  rfl

theorem ofBits_flip (d e : Bytes) (h : d.length = e.length) :
    Crc.ofBits (messageBits (flip d e)) = Crc.ofBits (messageBits d) + Crc.ofBits (messageBits e) := by
  rw [messageBits, map_flip, Crc.ofBits_bits_xor (by simpa using h)]
  rfl

/-- The CRC fields differ by the bits flipped in them. -/
theorem poly_field_flip {src e : Bytes} (h : src.length = e.length) :
    Crc.poly (word16 (src.getD 20 0) (src.getD 21 0)).toBitVec +
        Crc.poly (word16 ((flip src e).getD 20 0) ((flip src e).getD 21 0)).toBitVec =
      Crc.ofBits (messageBits [e.getD 21 0, e.getD 20 0]) := by
  have hfield : [(flip src e).getD 21 0, (flip src e).getD 20 0] =
      flip [src.getD 21 0, src.getD 20 0] [e.getD 21 0, e.getD 20 0] := by
    rw [getD_flip h, getD_flip h]
    rfl
  rw [poly_word16, poly_word16, hfield, ofBits_flip [src.getD 21 0, src.getD 20 0] [e.getD 21 0, e.getD 20 0] rfl,
    ← add_assoc, CharTwo.add_self_eq_zero, zero_add]

/-- **Two accepted headers** differ by bits that the generator divides. -/
theorem dvd_of_accepted {src e : Bytes} (hs : src.length = 24) (he : e.length = 24) {n m : ℕ} {h h' : Header}
    (hd : decodeHeader src n = .ok h) (hd' : decodeHeader (flip src e) m = .ok h') :
    Crc.generator 0x1021#16 ∣ Crc.ofBits (messageBits (codeword e)) := by
  have hflip : (flip src e).length = 24 := by rw [length_flip (hs.trans he.symm), he]
  have hcrc := crc_of_accepted hs hd
  have hcrc' := crc_of_accepted hflip hd'
  rw [flip_clear hs he] at hcrc'
  set D := src.take 20 ++ [0, 0] ++ src.drop 22 with hD
  set E := e.take 20 ++ [0, 0] ++ e.drop 22 with hE
  have hlenD : D.length = 24 := by simp [hD, hs]
  have hlenE : E.length = 24 := by simp [hE, he]
  have hlenDE : (flip D E).length = 24 := by rw [length_flip (hlenD.trans hlenE.symm), hlenE]
  have hdvd := Crc.dvd_of_undetected (show 8 ≤ 16 by decide) 0x1021#16 0xFFFF#16 (d := D.map UInt8.toBitVec)
    (e := E.map UInt8.toBitVec) (by simp [hlenD, hlenE])
  rw [← map_flip, ← toBitVec_crc16, ← toBitVec_crc16, hlenD, hlenDE, hcrc, hcrc',
    poly_field_flip (hs.trans he.symm)] at hdvd
  have hword : messageBits (codeword e) = messageBits E ++ messageBits [e.getD 21 0, e.getD 20 0] :=
    messageBits_append E _
  rw [hword, Crc.ofBits_append, length_messageBits]
  exact hdvd

/-! ### Errors that are detected -/

/-- The flipped bits stand within 16 consecutive ones in front of the CRC
field. -/
def Burst (e : Bytes) : Prop :=
  ∃ i j mid, messageBits e = List.replicate i false ++ mid ++ List.replicate j false ∧ mid.length ≤ 16 ∧
    true ∈ mid ∧ i + mid.length ≤ 160

/-- The CRC sees as many flipped bits as there are. -/
theorem count_codeword {e : Bytes} (he : e.length = 24) :
    (messageBits (codeword e)).count true = (messageBits e).count true := by
  have hzero : (messageBits [0]).count true = 0 := by decide
  have hpair : ∀ x y : UInt8,
      (messageBits [x, y]).count true = (messageBits [x]).count true + (messageBits [y]).count true :=
    fun x y => by rw [← List.count_append, ← messageBits_append]; rfl
  have hsplit := congrArg (fun b => (messageBits b).count true) (split_header he)
  simp only [messageBits_append, List.count_append, hpair] at hsplit
  unfold codeword
  simp only [messageBits_append, List.count_append, hpair, hzero]
  omega

/-- A burst in front of the CRC field is a burst for the CRC. -/
theorem codeword_of_burst {e : Bytes} (he : e.length = 24) (h : Burst e) :
    ∃ i j mid, messageBits (codeword e) = List.replicate i false ++ mid ++ List.replicate j false ∧
      mid.length ≤ 16 ∧ true ∈ mid := by
  obtain ⟨i, j, mid, hbits, hmid, htrue, hfront⟩ := h
  set field := [e.getD 20 0, e.getD 21 0] ++ e.drop 22 with hfield
  set back := [0, 0] ++ e.drop 22 ++ [e.getD 21 0, e.getD 20 0] with hback
  have he' : e = e.take 20 ++ field := by
    rw [hfield, ← List.append_assoc]
    exact split_header he
  have hcode : codeword e = e.take 20 ++ back := by simp only [codeword, hback, List.append_assoc]
  have hlen := length_messageBits e
  rw [hbits, he] at hlen
  simp only [List.length_append, List.length_replicate] at hlen
  -- the first 20 bytes hold the burst, and the rest no bit
  have hsplit : messageBits (e.take 20) = List.replicate i false ++ mid ++ List.replicate (j - 32) false ∧
      messageBits field = List.replicate 32 false := by
    apply List.append_inj
    · rw [← messageBits_append, ← he', hbits, List.append_assoc _ (List.replicate (j - 32) false),
        List.replicate_append_replicate, Nat.sub_add_cancel (by omega)]
    · simp only [length_messageBits, List.length_take, he, List.length_append, List.length_replicate]
      omega
  obtain ⟨hpre, hrest⟩ := hsplit
  have hcount : (messageBits (codeword e)).count true = (messageBits (e.take 20 ++ field)).count true := by
    rw [count_codeword he, ← he']
  have hzero : (messageBits back).count true = 0 := by
    rw [hcode, messageBits_append (e.take 20) back, messageBits_append (e.take 20) field, List.count_append,
      List.count_append, hrest, List.count_replicate] at hcount
    simpa using hcount
  refine ⟨i, j - 32 + (messageBits back).length, mid, ?_, hmid, htrue⟩
  calc messageBits (codeword e) = messageBits (e.take 20) ++ messageBits back := by rw [hcode, messageBits_append]
    _ = List.replicate i false ++ mid ++ List.replicate (j - 32) false ++
          List.replicate (messageBits back).length false := by rw [hpre, ← Crc.eq_replicate_false hzero]
    _ = List.replicate i false ++ mid ++ List.replicate (j - 32 + (messageBits back).length) false := by
        rw [List.append_assoc _ (List.replicate (j - 32) false), List.replicate_append_replicate]

/-- The generator has the root 1. -/
theorem eval_one_generator : (Crc.generator 0x1021#16).eval 1 = 0 := by
  rw [generator_crc16]
  simp
  decide

/-- The order of `X` modulo the generator is beyond the length of a header with
its CRC. -/
theorem order_crc16 : ∀ n < 208, 0 < n → (Crc.step 0x1021#16)^[n] 1 ≠ 1 := by decide +kernel

theorem length_codeword {e : Bytes} (he : e.length = 24) : (messageBits (codeword e)).length = 208 := by
  rw [length_messageBits, codeword]
  simp [he]

/-- **Header corruption is detected.** Whatever accepted header is altered by
an odd number of bits, by two bits or by a burst of up to 16 bits in front of
its CRC field, the decoder rejects what results. -/
theorem corruption_detected (src e : Bytes) (hs : src.length = 24) (he : e.length = 24) (h : Header)
    (hd : decodeHeader src src.length = .ok h)
    (herr : Odd ((messageBits e).count true) ∨ (messageBits e).count true = 2 ∨ Burst e) :
    ∃ ret, ret ≠ .ok ∧ decodeHeader (flip src e) (flip src e).length = .error ret := by
  cases hd' : decodeHeader (flip src e) (flip src e).length with
  | error ret => exact ⟨ret, decodeHeader_error_ne_ok hd', rfl⟩
  | ok h' =>
    have hdvd := dvd_of_accepted hs he hd hd'
    have hcount := count_codeword he
    rcases herr with hodd | htwo | hburst
    · exact absurd hdvd (Crc.not_dvd_of_odd eval_one_generator (hcount ▸ hodd))
    · refine absurd hdvd (Crc.not_dvd_of_two (by decide) (fun n h0 hn => ?_) (hcount.trans htwo))
      rw [length_codeword he] at hn
      exact order_crc16 n hn h0
    · obtain ⟨i, j, mid, hbits, hmid, htrue⟩ := codeword_of_burst he hburst
      rw [hbits] at hdvd
      exact absurd hdvd (Crc.not_dvd_of_burst (Crc.isCoprime_X (by decide)) hmid htrue i j)

/-- Four bits within 16, behind the fields whose shape is checked. -/
def burstBits : Bytes := List.replicate 12 0 ++ [0x04, 0x81, 0x08] ++ List.replicate 9 0

/-- The shape of the altered header is accepted: only its CRC is wrong. -/
theorem corruption_detected_burst :
    let src := frameBytes (Header.zero.forPayload []) []
    checkHeaderShape (deserializeHeader (flip src burstBits)) = .ok ∧
      ∃ ret, ret ≠ .ok ∧ decodeHeader (flip src burstBits) (flip src burstBits).length = .error ret := by
  refine ⟨by decide +kernel, corruption_detected _ _ (by decide) (by decide) (Header.zero.forPayload [])
    (by decide +kernel) (.inr (.inr ?_))⟩
  refine ⟨101, 75, [true, false, false, true, false, false, false, false, false, false, true, false, false, false,
    false, true], ?_, by decide, by decide, by decide⟩
  decide +kernel

end UsbMux
