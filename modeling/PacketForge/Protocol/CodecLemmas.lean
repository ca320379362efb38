import PacketForge.Protocol.Codec

set_option autoImplicit false

/-! # What the codec computes

`encode_of_isValid` and `decode_eq` give the encoder and the decoder in closed form, without byte
orders: the encoder writes `wireFormat`, the decoder checks size, magic number, version and
announced length in this order and returns `packetAt`. From them follow the two results of this
file:

* `encode_decode`: the round trip between any two hosts;
* `decode_accepts_encodings`: the decoder accepts the image of the encoder and nothing else.

## How the proofs go

* A field is a big-endian number at an offset (`fieldAt`). Writing and reading one are inverse to
  each other (`fieldAt_bigEndian`, `bigEndian_fieldAt`), and this is proved once, for any offset
  and any width.
* `packetAt_wireFormat` and `wireFormat_packetAt` put the fields together: the two functions are
  inverse to each other, where the magic number and the announced length are right.
* The code comes in through the exactness of the byte-order conversions (`Endian`): what is copied
  out of memory and converted is the big-endian number, on either host.
* The size check is arithmetic with overflow. When the sum of the header and the announced length
  wraps, it is smaller than a header, and the vector is not; so the check never accepts by
  accident (`size_check`).
-/

namespace PacketForge.Protocol

open Common Bytes

/-! ## Fields of a byte string

A field is looked at through the bytes in front of it and behind it, so that the six fields of the
header are six instances of one lemma.
-/

theorem fieldAt_lt (data : List UInt8) (offset n : Nat) : fieldAt data offset n < 256 ^ n := by
  have hlen : ((data.drop offset).take n).length ≤ n := List.length_take_le _ _
  exact lt_of_lt_of_le (bigEndianValue_lt _) (Nat.pow_le_pow_right (by decide) hlen)

/-- A frame has at least its header. -/
theorem not_complete_nil : ¬ packetFraming.Complete [] :=
  fun hcomplete => absurd hcomplete (not_le.mpr (Framing.size_pos []))

/-- A field behind `pre.length` bytes, written in big-endian order, is read back. -/
theorem fieldAt_bigEndian (pre post : List UInt8) {data : List UInt8} {offset n x : Nat}
    (hdata : data = pre ++ (bigEndian n x ++ post)) (hpre : pre.length = offset)
    (hx : x < 256 ^ n) : fieldAt data offset n = x := by
  subst hdata hpre
  rw [fieldAt, List.drop_left, List.take_append_of_le_length (by simp),
    List.take_of_length_le (by simp), bigEndianValue_bigEndian, Nat.mod_eq_of_lt hx]

/-- The bytes of a field are the big-endian bytes of its value. -/
theorem bigEndian_fieldAt {data : List UInt8} {offset n : Nat} (h : offset + n ≤ data.length) :
    bigEndian n (fieldAt data offset n) = (data.drop offset).take n := by
  have hlen : ((data.drop offset).take n).length = n := by
    rw [List.length_take, List.length_drop]
    omega
  have hval := bigEndian_bigEndianValue ((data.drop offset).take n)
  rwa [hlen] at hval

theorem fieldAt_of_isPrefix {s t : List UInt8} {offset n : Nat} (hp : s <+: t)
    (h : offset + n ≤ s.length) : fieldAt t offset n = fieldAt s offset n := by
  obtain ⟨u, rfl⟩ := hp
  rw [fieldAt, fieldAt, List.drop_append_of_le_length (by omega),
    List.take_append_of_le_length (by rw [List.length_drop]; omega)]

/-! ## The wire format -/

@[simp] theorem wireFormat_length (p : Packet) :
    (wireFormat p).length = HEADER_SIZE + p.payload.length := by
  simp [wireFormat, HEADER_SIZE]
  omega

theorem wireFormat_ne_nil (p : Packet) : wireFormat p ≠ [] := by
  refine List.ne_nil_of_length_pos ?_
  rw [wireFormat_length]
  exact Nat.add_pos_left (by decide) _

theorem wireFormat_magic (p : Packet) : fieldAt (wireFormat p) 0 4 = MagicNumber.toNat := by
  rw [← p.magicNumber_eq]
  exact fieldAt_bigEndian [] _ (by simp only [wireFormat, List.append_assoc]; rfl) rfl
    p.magicNumber.toNat_lt

/-- The two fields of a single byte, version and flags. -/
theorem wireFormat_getElem? (p : Packet) :
    (wireFormat p)[4]? = some p.version ∧ (wireFormat p)[5]? = some p.flags := by
  have hsplit : wireFormat p = bigEndian 4 p.magicNumber.toNat ++ ([p.version, p.flags] ++
      (bigEndian 2 p.opcode.toNat ++ (bigEndian 4 p.sequenceId.toNat ++
        (bigEndian 4 p.payload.length ++ p.payload)))) := by
    simp only [wireFormat, List.append_assoc]
  constructor
  · rw [hsplit, List.getElem?_append_right (by simp)]
    simp
  · rw [hsplit, List.getElem?_append_right (by simp)]
    simp

theorem wireFormat_opcode (p : Packet) : fieldAt (wireFormat p) 6 2 = p.opcode.toNat :=
  fieldAt_bigEndian (bigEndian 4 p.magicNumber.toNat ++ [p.version, p.flags]) _
    (by simp only [wireFormat, List.append_assoc]; rfl) (by simp) p.opcode.toNat_lt

theorem wireFormat_sequenceId (p : Packet) : fieldAt (wireFormat p) 8 4 = p.sequenceId.toNat :=
  fieldAt_bigEndian (bigEndian 4 p.magicNumber.toNat ++ [p.version, p.flags] ++
      bigEndian 2 p.opcode.toNat) _
    (by simp only [wireFormat, List.append_assoc]; rfl) (by simp) p.sequenceId.toNat_lt

theorem wireFormat_length_field {p : Packet} (h : p.payload.length ≤ 2 ^ 32 - 1) :
    fieldAt (wireFormat p) 12 4 = p.payload.length :=
  fieldAt_bigEndian (bigEndian 4 p.magicNumber.toNat ++ [p.version, p.flags] ++
      bigEndian 2 p.opcode.toNat ++ bigEndian 4 p.sequenceId.toNat) _
    (by simp only [wireFormat, List.append_assoc]; rfl) (by simp) (by omega)

theorem wireFormat_payload (p : Packet) : (wireFormat p).drop HEADER_SIZE = p.payload :=
  List.drop_left' (by simp [HEADER_SIZE])

/-- The fields found in the wire format of a packet are the packet's. -/
theorem packetAt_wireFormat (p : Packet) : packetAt (wireFormat p) = p := by
  obtain ⟨hversion, hflags⟩ := wireFormat_getElem? p
  ext1
  · exact p.magicNumber_eq.symm
  · simp [packetAt, List.getD_eq_getElem?_getD, hversion]
  · simp [packetAt, List.getD_eq_getElem?_getD, hflags]
  · simp [packetAt, wireFormat_opcode]
  · simp [packetAt, wireFormat_sequenceId]
  · exact wireFormat_payload p

/-- Conversely, bytes whose magic number and announced length are right are the wire format of
the packet with their fields. -/
theorem wireFormat_packetAt {data : List UInt8} (hmagic : fieldAt data 0 4 = MagicNumber.toNat)
    (hlen : data.length = HEADER_SIZE + fieldAt data 12 4) : wireFormat (packetAt data) = data := by
  have h16 : 16 ≤ data.length := by rw [hlen]; exact Nat.le_add_right _ _
  have hop : (packetAt data).opcode.toNat = fieldAt data 6 2 :=
    Nat.mod_eq_of_lt (fieldAt_lt data 6 2)
  have hseq : (packetAt data).sequenceId.toNat = fieldAt data 8 4 :=
    Nat.mod_eq_of_lt (fieldAt_lt data 8 4)
  have hpay : (packetAt data).payload.length = fieldAt data 12 4 := by
    simp only [packetAt, List.length_drop]
    omega
  have hmid : [(packetAt data).version, (packetAt data).flags] = (data.drop 4).take 2 := by
    rw [List.drop_eq_getElem_cons (show 4 < data.length by omega),
      List.drop_eq_getElem_cons (show 4 + 1 < data.length by omega)]
    simp only [packetAt, List.getD_eq_getElem?_getD, List.take_succ_cons, List.take_zero,
      List.getElem?_eq_getElem (show 4 < data.length by omega),
      List.getElem?_eq_getElem (show 4 + 1 < data.length by omega), Option.getD_some]
  have hglue : ∀ i n, (data.drop i).take n ++ data.drop (i + n) = data.drop i := fun i n => by
    rw [← List.drop_drop, List.take_append_drop]
  rw [wireFormat, hop, hseq, hpay, hmid, show (packetAt data).magicNumber.toNat = fieldAt data 0 4
    from hmagic.symm, bigEndian_fieldAt (by omega), bigEndian_fieldAt (by omega),
    bigEndian_fieldAt (by omega), bigEndian_fieldAt (by omega)]
  simp only [List.append_assoc]
  rw [show (packetAt data).payload = data.drop (12 + 4) from rfl, hglue 12 4, hglue 8 4, hglue 6 2,
    hglue 4 2, hglue 0 4, List.drop_zero]

theorem wireFormat_isFrame {p : Packet} (h : p.payload.length ≤ 2 ^ 32 - 1) :
    packetFraming.IsFrame (wireFormat p) := by
  have hbody : packetFraming.bodyLength ((wireFormat p).take HEADER_SIZE) = p.payload.length := by
    rw [← wireFormat_length_field h]
    exact (fieldAt_of_isPrefix (List.take_prefix _ _) (by simp [HEADER_SIZE])).symm
  rw [Framing.IsFrame, wireFormat_length, Framing.size, show packetFraming.header = HEADER_SIZE
    from rfl, hbody]

/-- For bytes that hold a header, being a frame is having the announced length. -/
theorem isFrame_iff {data : List UInt8} (h : HEADER_SIZE ≤ data.length) :
    packetFraming.IsFrame data ↔ data.length = HEADER_SIZE + fieldAt data 12 4 := by
  have hbody : packetFraming.bodyLength (data.take HEADER_SIZE) = fieldAt data 12 4 :=
    (fieldAt_of_isPrefix (List.take_prefix _ _) (by simp [HEADER_SIZE] at h ⊢; omega)).symm
  rw [Framing.IsFrame, Framing.size, show packetFraming.header = HEADER_SIZE from rfl, hbody]
  exact eq_comm

/-! ## The encoder -/

theorem encode_of_not_isValid (host : Platform) {p : Packet} (h : p.isValid = false) :
    Encoder.encode host p = .error (.invalid_argument "Cannot encode invalid packet") := by
  simp [Encoder.encode, h]

theorem encode_of_isValid {host : Platform} {p : Packet} (h : p.isValid = true)
    (hfits : host.fits (HEADER_SIZE + p.payload.length) = true) :
    Encoder.encode host p = .ok (wireFormat p) := by
  have hlen := ((Packet.isValid_iff p).mp h).2
  simp only [Encoder.encode, h, hfits, Encoder.appendValue, image_hostToNetwork32,
    image_hostToNetwork16, Packet.toNat_payloadLength hlen, Bool.not_true, Bool.false_eq_true,
    if_false, List.nil_append, List.append_assoc, wireFormat]
  rfl

theorem encode_of_not_fits {host : Platform} {p : Packet} (h : p.isValid = true)
    (hfits : host.fits (HEADER_SIZE + p.payload.length) = false) :
    Encoder.encode host p = .error .bad_alloc := by
  simp [Encoder.encode, h, hfits]

/-- Whatever the encoder returns is the wire format of a valid packet. -/
theorem encode_eq_ok {host : Platform} {p : Packet} {data : List UInt8}
    (h : Encoder.encode host p = .ok data) : p.isValid = true ∧ data = wireFormat p := by
  cases hv : p.isValid with
  | false => simp [encode_of_not_isValid host hv] at h
  | true =>
      cases hf : host.fits (HEADER_SIZE + p.payload.length) with
      | false => simp [encode_of_not_fits hv hf] at h
      | true =>
          rw [encode_of_isValid hv hf] at h
          exact ⟨rfl, (Except.ok.inj h).symm⟩

/-! ## The decoder

The checks are gone through in the order of the source, since the order decides which error is
reported when several things are wrong.
-/

theorem readUint32_eq (host : Platform) {data : List UInt8} {offset : Nat}
    (h : offset + 4 ≤ data.length) :
    Decoder.readUint32 host data offset = .ok (UInt32.ofNat (fieldAt data offset 4)) := by
  rw [Decoder.readUint32, if_pos h, networkToHost32_ofImage, fieldAt]
  rw [List.length_take, List.length_drop]
  omega

theorem readUint16_eq (host : Platform) {data : List UInt8} {offset : Nat}
    (h : offset + 2 ≤ data.length) :
    Decoder.readUint16 host data offset = .ok (UInt16.ofNat (fieldAt data offset 2)) := by
  rw [Decoder.readUint16, if_pos h, networkToHost16_ofImage, fieldAt]
  rw [List.length_take, List.length_drop]
  omega

theorem readByte_eq {data : List UInt8} {index : Nat} (h : index < data.length) :
    Decoder.readByte data index = .ok (data.getD index 0) := by
  simp [Decoder.readByte, List.getD_eq_getElem?_getD, List.getElem?_eq_getElem h]

theorem uint32_ofNat_fieldAt_eq (data : List UInt8) (offset : Nat) (v : UInt32) :
    UInt32.ofNat (fieldAt data offset 4) = v ↔ fieldAt data offset 4 = v.toNat := by
  have hlt : fieldAt data offset 4 < 2 ^ 32 := fieldAt_lt data offset 4
  rw [← UInt32.toNat_inj, UInt32.toNat_ofNat', Nat.mod_eq_of_lt hlt]

theorem uint16_ofNat_fieldAt_eq (data : List UInt8) (offset : Nat) (v : UInt16) :
    UInt16.ofNat (fieldAt data offset 2) = v ↔ fieldAt data offset 2 = v.toNat := by
  have hlt : fieldAt data offset 2 < 2 ^ 16 := fieldAt_lt data offset 2
  rw [← UInt16.toNat_inj, UInt16.toNat_ofNat', Nat.mod_eq_of_lt hlt]

theorem ok_bind {ε α β : Type} (a : α) (f : α → Except ε β) : (Except.ok a >>= f) = f a := rfl

/-- The announced size as the decoder computes it, in `std::size_t` arithmetic: when it wraps
around, it is smaller than a header. -/
theorem size_check {w n len : Nat} (hw : 32 ≤ w) (hn : n < 2 ^ w) (hheader : HEADER_SIZE ≤ n)
    (hlen : len < 2 ^ 32) : n = (HEADER_SIZE + len) % 2 ^ w ↔ n = HEADER_SIZE + len := by
  have hpow : 2 ^ 32 ≤ 2 ^ w := Nat.pow_le_pow_right (by decide) hw
  simp only [HEADER_SIZE] at hheader ⊢
  by_cases hwrap : 16 + len < 2 ^ w
  · rw [Nat.mod_eq_of_lt hwrap]
  · have hmod : (16 + len) % 2 ^ w = 16 + len - 2 ^ w := by
      rw [Nat.mod_eq_sub_mod (by omega), Nat.mod_eq_of_lt (by omega)]
    rw [hmod]
    omega

/-- **The decoder in closed form.** The checks in the order of the code: the size of the header,
the magic number, the version, and the announced length against the number of bytes. If all
succeed, the packet has the fields that are found in the bytes. -/
theorem decode_eq {host : Platform} {data : List UInt8} (hw : 32 ≤ host.sizeBits)
    (halloc : host.Allocates data.length) :
    Decoder.decode host data =
      if data.length < HEADER_SIZE then
        .error (.throws (.ProtocolDecodeError .InvalidPacket "Invalid packet size"))
      else if fieldAt data 0 4 ≠ MagicNumber.toNat then
        .error (.throws (.ProtocolDecodeError .InvalidPacket "Invalid magic number"))
      else if data.getD 4 0 ≠ VERSION then
        .error (.throws (.ProtocolDecodeError .UnsupportedVersion "Unsupported protocol version"))
      else if data.length ≠ HEADER_SIZE + fieldAt data 12 4 then
        .error (.throws (.ProtocolDecodeError .InvalidPayload "Payload size mismatch"))
      else .ok (packetAt data) := by
  by_cases hheader : data.length < HEADER_SIZE
  · simp only [Decoder.decode, hheader, if_true]
  have h16 : 16 ≤ data.length := Nat.le_of_not_lt hheader
  have hL : fieldAt data 12 4 < 2 ^ 32 := fieldAt_lt data 12 4
  have hLval : (UInt32.ofNat (fieldAt data 12 4)).toNat = fieldAt data 12 4 :=
    Nat.mod_eq_of_lt hL
  have hpos : UInt32.ofNat (fieldAt data 12 4) > 0 ↔ 0 < fieldAt data 12 4 := by
    rw [gt_iff_lt, UInt32.lt_iff_toNat_lt, hLval]
    rfl
  simp only [Decoder.decode, hheader, if_false,
    readUint32_eq host (show 0 + 4 ≤ data.length by omega),
    readByte_eq (show 4 < data.length by omega), readByte_eq (show 5 < data.length by omega),
    readUint16_eq host (show 6 + 2 ≤ data.length by omega),
    readUint32_eq host (show 8 + 4 ≤ data.length by omega),
    readUint32_eq host (show 12 + 4 ≤ data.length by omega), ok_bind, hLval, hpos, ne_eq,
    uint32_ofNat_fieldAt_eq, size_check hw halloc.lt h16 hL]
  have hfits : host.fits (data.drop HEADER_SIZE).length = true := halloc _ (by simp)
  simp only [hfits, Bool.not_true, Bool.false_eq_true, if_false]
  split_ifs with hmagic hversion hlen hpay <;> try rfl
  -- an announced length of zero: the code leaves the payload of the new packet alone
  have hnil : data.drop HEADER_SIZE = [] := List.drop_eq_nil_of_le (by omega)
  simp only [packetAt, hnil]
  rfl

/-- The decoder on a frame: the announced length is right. -/
theorem decode_frame {host : Platform} {data : List UInt8} (hw : 32 ≤ host.sizeBits)
    (halloc : host.Allocates data.length) (hframe : packetFraming.IsFrame data) :
    Decoder.decode host data =
      if fieldAt data 0 4 ≠ MagicNumber.toNat then
        .error (.throws (.ProtocolDecodeError .InvalidPacket "Invalid magic number"))
      else if data.getD 4 0 ≠ VERSION then
        .error (.throws (.ProtocolDecodeError .UnsupportedVersion "Unsupported protocol version"))
      else .ok (packetAt data) := by
  have hheader : HEADER_SIZE ≤ data.length := hframe.complete.header_le
  rw [decode_eq hw halloc, if_neg (not_lt.mpr hheader)]
  simp only [(isFrame_iff hheader).mp hframe, ne_eq, not_true_eq_false, if_false]

theorem decode_wireFormat {host : Platform} {p : Packet} (hw : 32 ≤ host.sizeBits)
    (halloc : host.Allocates (HEADER_SIZE + p.payload.length)) (h : p.isValid = true) :
    Decoder.decode host (wireFormat p) = .ok p := by
  obtain ⟨hversion, hlen⟩ := (Packet.isValid_iff p).mp h
  have hgetD : (wireFormat p).getD 4 0 = p.version := by
    rw [List.getD_eq_getElem?_getD, (wireFormat_getElem? p).1, Option.getD_some]
  rw [decode_eq hw (by rwa [wireFormat_length]), wireFormat_length, wireFormat_magic, hgetD,
    hversion,
    wireFormat_length_field hlen, packetAt_wireFormat]
  simp

/-- Whatever the decoder returns is a valid packet whose wire format it was given. -/
theorem decode_eq_ok {host : Platform} {data : List UInt8} {p : Packet}
    (hw : 32 ≤ host.sizeBits) (halloc : host.Allocates data.length)
    (h : Decoder.decode host data = .ok p) : p.isValid = true ∧ data = wireFormat p := by
  rw [decode_eq hw halloc] at h
  split_ifs at h with hheader hmagic hversion hlen
  obtain rfl : packetAt data = p := Except.ok.inj h
  have hL : fieldAt data 12 4 < 2 ^ 32 := fieldAt_lt data 12 4
  refine ⟨(Packet.isValid_iff _).mpr ⟨not_not.mp hversion, ?_⟩,
    (wireFormat_packetAt (not_not.mp hmagic) (not_not.mp hlen)).symm⟩
  simp only [packetAt, List.length_drop]
  omega

/-! ## The round trip and the image of the encoder -/

/-- **The codec round trip across hosts.** The encoder rejects a packet exactly for its
version or for the size of its payload. Otherwise there are bytes, with the fields of the
packet at their offsets, that every host encodes the packet to and every host decodes to the
packet. -/
theorem encode_decode (p : Packet) :
    (∀ host : Platform, (∃ what, Encoder.encode host p = .error (.invalid_argument what)) ↔
      p.version ≠ 1 ∨ p.payload.length > 2 ^ 32 - 1) ∧
    (p.version = 1 → p.payload.length ≤ 2 ^ 32 - 1 → ∃ bytes : List UInt8,
      bytes.length = 16 + p.payload.length ∧
      fieldAt bytes 0 4 = MagicNumber.toNat ∧
      bytes[4]? = some p.version ∧
      bytes[5]? = some p.flags ∧
      fieldAt bytes 6 2 = p.opcode.toNat ∧
      fieldAt bytes 8 4 = p.sequenceId.toNat ∧
      fieldAt bytes 12 4 = p.payload.length ∧
      bytes.drop 16 = p.payload ∧
      (∀ hostA : Platform, hostA.Allocates (16 + p.payload.length) →
        Encoder.encode hostA p = .ok bytes) ∧
      ∀ hostB : Platform, 32 ≤ hostB.sizeBits → hostB.Allocates (16 + p.payload.length) →
        Decoder.decode hostB bytes = .ok p) := by
  constructor
  · intro host
    have hiff := Packet.isValid_iff p
    cases hv : p.isValid with
    | false =>
        rw [hv] at hiff
        refine iff_of_true ⟨_, encode_of_not_isValid host hv⟩ ?_
        by_contra hcon
        rw [not_or, not_not, not_lt] at hcon
        exact absurd (hiff.mpr hcon) (by decide)
    | true =>
        obtain ⟨hversion, hlen⟩ := hiff.mp hv
        refine iff_of_false ?_ (by rintro (h | h); exacts [h hversion, absurd hlen (by omega)])
        rintro ⟨what, h⟩
        -- without memory for it the encoding fails too, with another exception
        cases hf : host.fits (HEADER_SIZE + p.payload.length) with
        | true => simp [encode_of_isValid hv hf] at h
        | false => simp [encode_of_not_fits hv hf] at h
  · intro hversion hlen
    have hv : p.isValid = true := (Packet.isValid_iff p).mpr ⟨hversion, hlen⟩
    exact ⟨wireFormat p, wireFormat_length p, wireFormat_magic p, (wireFormat_getElem? p).1,
      (wireFormat_getElem? p).2, wireFormat_opcode p, wireFormat_sequenceId p,
      wireFormat_length_field hlen, wireFormat_payload p,
      fun hostA hA => encode_of_isValid hv (hA _ le_rfl),
      fun hostB hw hB => decode_wireFormat hw hB hv⟩

/-- A one-byte packet, encoded on a big-endian and decoded on a little-endian machine. -/
theorem encode_decode_ping : ∃ bytes : List UInt8,
    Encoder.encode (.ample .Big 64) ((Packet.new.setSequenceId 7).setPayload [42]) = .ok bytes ∧
    Decoder.decode (.ample .Little 32) bytes
      = .ok ((Packet.new.setSequenceId 7).setPayload [42]) := by
  obtain ⟨bytes, -, -, -, -, -, -, -, -, hencode, hdecode⟩ :=
    (encode_decode ((Packet.new.setSequenceId 7).setPayload [42])).2 rfl (by decide)
  exact ⟨bytes, hencode _ (Platform.ample_allocates (by decide)),
    hdecode _ (by decide) (Platform.ample_allocates (by decide))⟩

/-- **The decoder accepts exactly the encoder's image**, and each rejection names the first
check that fails. On a 32-bit machine the announced size may wrap around; the check still
compares the number of bytes with the unbounded sum. -/
theorem decode_accepts_encodings (endianness : Endianness) (w : Nat) (hw : w = 32 ∨ w = 64)
    (data : List UInt8) (hdata : data.length < 2 ^ w) :
    Decoder.decode (.ample endianness w) data ≠ .error .outOfBounds ∧
    (∀ p, Decoder.decode (.ample endianness w) data = .ok p ↔
      p.isValid = true ∧ Encoder.encode (.ample endianness w) p = .ok data) ∧
    (∀ a, Decoder.decode (.ample endianness w) data = .error a →
      ∃ e what, a = .throws (.ProtocolDecodeError e what)) ∧
    ((∃ what, Decoder.decode (.ample endianness w) data
        = .error (.throws (.ProtocolDecodeError .InvalidPacket what))) ↔
      data.length < HEADER_SIZE ∨ fieldAt data 0 4 ≠ MagicNumber.toNat) ∧
    ((∃ what, Decoder.decode (.ample endianness w) data
        = .error (.throws (.ProtocolDecodeError .UnsupportedVersion what))) ↔
      ¬ (data.length < HEADER_SIZE ∨ fieldAt data 0 4 ≠ MagicNumber.toNat) ∧
         data.getD 4 0 ≠ VERSION) ∧
    ((∃ what, Decoder.decode (.ample endianness w) data
        = .error (.throws (.ProtocolDecodeError .InvalidPayload what))) ↔
      ¬ (data.length < HEADER_SIZE ∨ fieldAt data 0 4 ≠ MagicNumber.toNat) ∧
         ¬ data.getD 4 0 ≠ VERSION ∧
        data.length ≠ HEADER_SIZE + fieldAt data 12 4) := by
  have hw32 : 32 ≤ (Platform.ample endianness w).sizeBits := by
    show 32 ≤ w
    omega
  have halloc : (Platform.ample endianness w).Allocates data.length :=
    Platform.ample_allocates hdata
  have hok : ∀ p, Decoder.decode (.ample endianness w) data = .ok p ↔
      p.isValid = true ∧ Encoder.encode (.ample endianness w) p = .ok data := by
    intro p
    constructor
    · intro h
      obtain ⟨hv, hwire⟩ := decode_eq_ok hw32 halloc h
      refine ⟨hv, ?_⟩
      rw [hwire, wireFormat_length] at halloc
      rw [hwire]
      exact encode_of_isValid hv (halloc _ le_rfl)
    · rintro ⟨hv, h⟩
      obtain ⟨-, rfl⟩ := encode_eq_ok h
      rw [wireFormat_length] at halloc
      exact decode_wireFormat hw32 halloc hv
  refine ⟨?_, hok, ?_⟩
  · rw [decode_eq hw32 halloc]
    split_ifs <;> simp
  · rw [decode_eq hw32 halloc]
    -- one case for each check of the decoder, in its order
    generalize data.getD 4 0 = version
    by_cases hheader : data.length < HEADER_SIZE
    · simp [hheader]
    by_cases hmagic : fieldAt data 0 4 ≠ MagicNumber.toNat
    · simp [hheader, hmagic]
    by_cases hversion : version ≠ VERSION
    · rw [if_neg hheader, if_neg hmagic, if_pos hversion]
      simp [hheader, hmagic, hversion]
    by_cases hlen : data.length ≠ HEADER_SIZE + fieldAt data 12 4
    · rw [if_neg hheader, if_neg hmagic, if_neg hversion, if_pos hlen]
      simp [hheader, hmagic, hversion, hlen]
    · rw [if_neg hheader, if_neg hmagic, if_neg hversion, if_neg hlen]
      simp [hheader, hmagic, hversion, hlen]

/-- A frame whose announced length is one too large, on a little-endian 32-bit machine. -/
theorem decode_accepts_encodings_truncated :
    ∃ what, Decoder.decode (.ample .Little 32)
        [0x50, 0x46, 0x4B, 0x54, 1, 0, 0, 1, 0, 0, 0, 7, 0, 0, 0, 1]
      = .error (.throws (.ProtocolDecodeError .InvalidPayload what)) :=
  (decode_accepts_encodings .Little 32 (.inl rfl) _ (by decide)).2.2.2.2.2.mpr
    ⟨by decide +kernel, by decide +kernel, by decide +kernel⟩

end PacketForge.Protocol
