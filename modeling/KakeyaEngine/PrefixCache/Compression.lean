import KakeyaEngine.Capability
import KakeyaEngine.Proto
import KakeyaEngine.Lib.Endian
import KakeyaEngine.Lib.Fallible
import KakeyaEngine.Lib.Sha256

/-!
# Compressed payloads

A payload goes on the wire as it is, or in a frame that begins with `KPC1` and names the codec, the size of the payload
and a digest.  Both are told apart by the first four bytes.  A payload without a frame is returned as it is, so one that
begins like a frame is not (`unframed_magic_lost`); every other payload, and every compressed one, is returned
(`payload_contract`).  The digest of a frame is that of what was compressed, which for `KAKEYA_LATTICE_D4` is the encoded
snapshot and not the payload.

zlib and the codec of snapshots are parameters.
-/

namespace KakeyaEngine

/-- What compressing and decompressing raise. -/
inductive PayloadError
  | valueError (message : String)
  | structError (message : String)
  | zlibError (message : String)
  | snapshotError (message : String)
deriving DecidableEq

/-- A `zlib.decompressobj()` after `decompress(data, max_length)`: the output, `unconsumed_tail`, and what `flush(n)` gives,
with `unused_data` after it. -/
structure Decompressing where
  output : Bytes
  unconsumedTail : Bytes
  flush : Nat → Except PayloadError (Bytes × Bytes)

/-- zlib and the codec of snapshots. -/
structure PayloadCodecs where
  /-- `zlib.compress(data, level)`. -/
  compress : Bytes → Int → Bytes
  /-- `zlib.decompressobj().decompress(data, max_length)`. -/
  decompress : Bytes → Nat → Except PayloadError Decompressing
  /-- `encode_snapshot`. -/
  encodeSnapshot : Bytes → Except PayloadError Bytes
  /-- `decode_snapshot`. -/
  decodeSnapshot : Bytes → Except PayloadError Bytes

/-- zlib's decompression inverts its compression: of a compressed text that is shorter than `max_length`, `decompress` and
`flush` give the text, and nothing is left. -/
def PayloadCodecs.Inverts (z : PayloadCodecs) : Prop :=
  ∀ data level n, 0 ≤ level → level ≤ 9 → data.length < n → ∃ d rest, z.decompress (z.compress data level) n = .ok d ∧
    d.unconsumedTail = [] ∧ d.output ++ rest = data ∧ ∀ k, 0 < k → d.flush k = .ok (rest, [])

namespace CompressionCodec

/-- `CompressionCodec(n)`. -/
def ofByte (n : Nat) : Option CompressionCodec :=
  if n = 0 then some .unspecified
  else if n = 1 then some .none
  else if n = 2 then some .zlib
  else if n = 3 then some .kakeyaLatticeD4
  else Option.none

/-- `name`. -/
def name : CompressionCodec → String
  | .unspecified => "UNSPECIFIED"
  | .none => "NONE"
  | .zlib => "ZLIB"
  | .kakeyaLatticeD4 => "KAKEYA_LATTICE_D4"

theorem ofByte_toNat (c : CompressionCodec) : ofByte c.toNat = some c := by
  cases c <;> rfl

theorem of_ofByte {n : Nat} {c : CompressionCodec} (h : ofByte n = some c) : n = c.toNat := by
  unfold ofByte at h
  split at h
  · obtain rfl := Option.some.inj h
    assumption
  · split at h
    · obtain rfl := Option.some.inj h
      assumption
    · split at h
      · obtain rfl := Option.some.inj h
        assumption
      · split at h
        · obtain rfl := Option.some.inj h
          assumption
        · cases h

end CompressionCodec

namespace Payload

/-- `_MAGIC`. -/
def magic : Bytes := [0x4B, 0x50, 0x43, 0x31]

/-- The size of `_HEADER`. -/
def headerSize : Nat := 45

/-- The fields of a header. -/
structure Header where
  codec : Nat
  expectedSize : Nat
  expectedSha : Bytes
deriving DecidableEq

/-- `_HEADER.pack`. -/
def packHeader (h : Header) : Bytes :=
  magic ++ UInt8.ofNat h.codec :: (LittleEndian.bytes 8 h.expectedSize ++ h.expectedSha)

/-- `_HEADER.unpack`. -/
def unpackHeader (data : Bytes) : Header where
  codec := (data.getD 4 0).toNat
  expectedSize := LittleEndian.value ((data.drop 5).take 8)
  expectedSha := (data.drop 13).take 32

variable (z : PayloadCodecs)

/-- What is compressed for a payload. -/
def encodeFramed (codec : CompressionCodec) (payload : Bytes) : Except PayloadError Bytes :=
  if codec = .kakeyaLatticeD4 then z.encodeSnapshot payload else .ok payload

/-- The payload of what was decompressed. -/
def decodeFramed (codec : CompressionCodec) (framed : Bytes) : Except PayloadError Bytes :=
  if codec = .kakeyaLatticeD4 then z.decodeSnapshot framed else .ok framed

/-- `compress_payload`. -/
def compressPayload (payload : Bytes) (codec : CompressionCodec) (level : Int := 3) : Except PayloadError Bytes :=
  match codec with
  | .unspecified | .none => .ok payload
  | .zlib | .kakeyaLatticeD4 =>
    if ¬ (0 ≤ level ∧ level ≤ 9) then .error (.valueError "zlib level must be in [0, 9]")
    else do
      let framed ← encodeFramed z codec payload
      if 2 ^ 64 ≤ payload.length then .error (.structError "argument out of range")
      else pure (packHeader ⟨codec.toNat, payload.length, Sha256.sha256 framed⟩ ++ z.compress framed level)

/-- The decompression of a frame, which stops beyond the budget. -/
def inflate (data : Bytes) (maxUncompressedBytes : Int) : Except PayloadError Bytes := do
  let d ← z.decompress data (maxUncompressedBytes + 1).toNat
  if d.unconsumedTail ≠ [] ∨ maxUncompressedBytes < d.output.length then
    .error (.valueError "decompressed payload exceeds import budget")
  else do
    let (rest, unusedData) ← d.flush (maxUncompressedBytes - d.output.length + 1).toNat
    if maxUncompressedBytes < (d.output ++ rest).length then
      .error (.valueError "decompressed payload exceeds import budget")
    else if unusedData ≠ [] then .error (.valueError "compressed prefill payload has trailing data")
    else pure (d.output ++ rest)

/-- What is decompressed and checked against its header. -/
def unframe (codec : CompressionCodec) (h : Header) (data : Bytes) (maxUncompressedBytes : Int) :
    Except PayloadError Bytes := do
  let framed ← inflate z data maxUncompressedBytes
  if Sha256.sha256 framed ≠ h.expectedSha then .error (.valueError "decompressed prefill payload checksum mismatch")
  else do
    let raw ← decodeFramed z codec framed
    if raw.length ≠ h.expectedSize then
      .error (.valueError
        ("decompressed payload size " ++ toString raw.length ++ " != expected " ++ toString h.expectedSize))
    else pure raw

/-- `decompress_payload`. -/
def decompressPayload (data : Bytes) (maxUncompressedBytes : Int) : Except PayloadError Bytes :=
  if ¬ magic.isPrefixOf data then
    if maxUncompressedBytes < data.length then
      .error (.valueError "uncompressed prefill payload exceeds import budget")
    else .ok data
  else if data.length < headerSize then .error (.valueError "truncated compressed prefill payload header")
  else
    let h := unpackHeader data
    if maxUncompressedBytes < h.expectedSize then
      .error (.valueError "prefill payload exceeds uncompressed import budget")
    else
      match CompressionCodec.ofByte h.codec with
      | none => .error (.valueError ("unsupported compression codec " ++ toString h.codec))
      | some codec =>
        if codec = .zlib ∨ codec = .kakeyaLatticeD4 then unframe z codec h (data.drop headerSize) maxUncompressedBytes
        else .error (.valueError ("unsupported framed compression codec " ++ codec.name))

variable {z}

/-! ### The header -/

theorem length_packHeader {h : Header} (hsha : h.expectedSha.length = 32) : (packHeader h).length = headerSize := by
  simp [packHeader, magic, headerSize, hsha]

/-- A header is read back, whatever follows it. -/
theorem unpackHeader_pack {h : Header} (hcodec : h.codec < 256) (hsize : h.expectedSize < 2 ^ 64)
    (hsha : h.expectedSha.length = 32) (data : Bytes) : unpackHeader (packHeader h ++ data) = h := by
  obtain ⟨codec, expectedSize, expectedSha⟩ := h
  have hfive : (packHeader ⟨codec, expectedSize, expectedSha⟩ ++ data).drop 5 =
      LittleEndian.bytes 8 expectedSize ++ (expectedSha ++ data) := by
    rw [← List.append_assoc]
    rfl
  have hthirteen : (packHeader ⟨codec, expectedSize, expectedSha⟩ ++ data).drop 13 = expectedSha ++ data := by
    rw [show 13 = 5 + 8 from rfl, ← List.drop_drop, hfive]
    exact List.drop_left' (LittleEndian.length_bytes 8 expectedSize)
  have hbyte : (packHeader ⟨codec, expectedSize, expectedSha⟩ ++ data).getD 4 0 = UInt8.ofNat codec := rfl
  unfold unpackHeader
  rw [hfive, hthirteen, hbyte, List.take_left' (LittleEndian.length_bytes 8 expectedSize), List.take_left' hsha,
    LittleEndian.value_bytes hsize, UInt8.toNat_ofNat_of_lt' hcodec]

theorem isPrefixOf_pack (h : Header) (data : Bytes) : magic.isPrefixOf (packHeader h ++ data) = true := rfl

/-! ### Compressing and decompressing -/

theorem decompressPayload_raw {data : Bytes} {maxUncompressedBytes : Int} (hraw : magic.isPrefixOf data = false)
    (hlen : data.length ≤ maxUncompressedBytes) : decompressPayload z data maxUncompressedBytes = .ok data := by
  unfold decompressPayload
  rw [hraw, if_pos (by simp), if_neg (by omega)]

/-- A frame with a codec that is framed is decompressed and checked. -/
theorem decompressPayload_pack {h : Header} {codec : CompressionCodec} (hcodec : h.codec = codec.toNat)
    (hframed : codec = .zlib ∨ codec = .kakeyaLatticeD4) (hsha : h.expectedSha.length = 32) {maxUncompressedBytes : Int}
    (hsize : h.expectedSize < 2 ^ 64) (hlen : h.expectedSize ≤ maxUncompressedBytes) (data : Bytes) :
    decompressPayload z (packHeader h ++ data) maxUncompressedBytes = unframe z codec h data maxUncompressedBytes := by
  have hlt : h.codec < 256 := by
    rw [hcodec]
    cases codec <;> decide
  have hlength := length_packHeader hsha
  unfold decompressPayload
  rw [isPrefixOf_pack, if_neg (by simp), if_neg (by rw [List.length_append]; omega)]
  dsimp only
  rw [unpackHeader_pack hlt hsize hsha, if_neg (by omega), hcodec, CompressionCodec.ofByte_toNat]
  dsimp only
  rw [if_pos hframed, List.drop_left' hlength]

/-- What was compressed is decompressed, within the budget. -/
theorem inflate_compress (hz : z.Inverts) {data : Bytes} {level maxUncompressedBytes : Int} (hlow : 0 ≤ level)
    (hhigh : level ≤ 9) (hlen : data.length ≤ maxUncompressedBytes) :
    inflate z (z.compress data level) maxUncompressedBytes = .ok data := by
  obtain ⟨d, rest, hdecompress, htail, hdata, hflush⟩ :=
    hz data level (maxUncompressedBytes + 1).toNat hlow hhigh (by omega)
  have houtput : d.output.length + rest.length = data.length := by rw [← hdata, List.length_append]
  unfold inflate
  rw [hdecompress]
  show (if _ then _ else _ : Except PayloadError Bytes) = _
  rw [if_neg (by rw [htail]; simp only [ne_eq, not_true_eq_false, false_or]; omega), hflush _ (by omega)]
  show (if _ then _ else _ : Except PayloadError Bytes) = _
  rw [hdata, if_neg (by omega), if_neg (by simp)]
  rfl

/-- What `inflate` returns is within the budget. -/
theorem length_inflate {data raw : Bytes} {maxUncompressedBytes : Int} (h : inflate z data maxUncompressedBytes = .ok raw) :
    raw.length ≤ maxUncompressedBytes := by
  unfold inflate at h
  obtain ⟨d, -, h⟩ := Fallible.bind_eq_ok.1 h
  split at h
  · cases h
  · obtain ⟨⟨rest, unusedData⟩, -, h⟩ := Fallible.bind_eq_ok.1 h
    dsimp only at h
    split at h
    · cases h
    · split at h
      · cases h
      · obtain rfl := Except.ok.inj h
        omega

/-- What `unframe` returns has the size of the header, and what was decompressed for it has its digest. -/
theorem of_unframe_ok {codec : CompressionCodec} {h : Header} {data raw : Bytes} {maxUncompressedBytes : Int}
    (hok : unframe z codec h data maxUncompressedBytes = .ok raw) :
    raw.length = h.expectedSize ∧ ∃ framed, framed.length ≤ maxUncompressedBytes ∧ Sha256.sha256 framed = h.expectedSha ∧
      decodeFramed z codec framed = .ok raw := by
  unfold unframe at hok
  obtain ⟨framed, hinflate, hok⟩ := Fallible.bind_eq_ok.1 hok
  split at hok
  · cases hok
  · rename_i hsha
    obtain ⟨raw', hdecode, hok⟩ := Fallible.bind_eq_ok.1 hok
    split at hok
    · cases hok
    · rename_i hsize
      obtain rfl := Except.ok.inj hok
      exact ⟨by simpa using hsize, framed, length_inflate hinflate, by simpa using hsha, hdecode⟩

/-- What is returned for a frame was checked against its header. -/
theorem of_decompressPayload_framed {data raw : Bytes} {maxUncompressedBytes : Int} (hframe : magic.isPrefixOf data = true)
    (hok : decompressPayload z data maxUncompressedBytes = .ok raw) :
    (unpackHeader data).expectedSize ≤ maxUncompressedBytes ∧
      ∃ codec, CompressionCodec.ofByte (unpackHeader data).codec = some codec ∧ (codec = .zlib ∨ codec = .kakeyaLatticeD4) ∧
        unframe z codec (unpackHeader data) (data.drop headerSize) maxUncompressedBytes = .ok raw := by
  unfold decompressPayload at hok
  rw [hframe, if_neg (by simp)] at hok
  split at hok
  · cases hok
  · dsimp only at hok
    split at hok
    · cases hok
    · rename_i hsize
      cases hcodec : CompressionCodec.ofByte (unpackHeader data).codec with
      | none =>
        rw [hcodec] at hok
        cases hok
      | some codec =>
        rw [hcodec] at hok
        dsimp only at hok
        split at hok
        · rename_i hframed
          exact ⟨by omega, codec, rfl, hframed, hok⟩
        · cases hok

/-- What `compress_payload` and `decompress_payload` keep.  A payload without a codec that does not begin like a frame comes
back, and so does every payload with zlib.  What is returned is within the budget; of a frame it has the size in the
header, and the digest in the header is that of what was decompressed, which for zlib is what is returned. -/
theorem payload_contract (z : PayloadCodecs) (hz : z.Inverts) (maxUncompressedBytes : Int) :
    (∀ payload : Bytes, payload.length ≤ maxUncompressedBytes → magic.isPrefixOf payload = false →
      ∃ wire, compressPayload z payload .none = .ok wire ∧ decompressPayload z wire maxUncompressedBytes = .ok payload) ∧
    (∀ (payload : Bytes) (level : Int), payload.length ≤ maxUncompressedBytes → payload.length < 2 ^ 64 → 0 ≤ level →
      level ≤ 9 → ∃ wire, compressPayload z payload .zlib level = .ok wire ∧
        decompressPayload z wire maxUncompressedBytes = .ok payload) ∧
    ∀ data raw : Bytes, decompressPayload z data maxUncompressedBytes = .ok raw →
      raw.length ≤ maxUncompressedBytes ∧
      (magic.isPrefixOf data = true →
        raw.length = (unpackHeader data).expectedSize ∧
        ((unpackHeader data).codec = CompressionCodec.zlib.toNat ∧ Sha256.sha256 raw = (unpackHeader data).expectedSha ∨
          (unpackHeader data).codec = CompressionCodec.kakeyaLatticeD4.toNat ∧
            ∃ framed, z.decodeSnapshot framed = .ok raw ∧ Sha256.sha256 framed = (unpackHeader data).expectedSha)) := by
  refine ⟨fun payload hlen hraw => ?_, fun payload level hlen hlt hlow hhigh => ?_, fun data raw hok => ?_⟩
  · exact ⟨payload, rfl, decompressPayload_raw hraw hlen⟩
  · have hcompress : compressPayload z payload .zlib level =
        .ok (packHeader ⟨CompressionCodec.zlib.toNat, payload.length, Sha256.sha256 payload⟩ ++ z.compress payload level) := by
      unfold compressPayload
      dsimp only
      rw [if_neg (by simp [hlow, hhigh])]
      show (if _ then _ else _ : Except PayloadError Bytes) = _
      rw [if_neg (by omega)]
      rfl
    refine ⟨_, hcompress, ?_⟩
    rw [decompressPayload_pack rfl (Or.inl rfl) (Sha256.length_sha256 payload) hlt hlen]
    unfold unframe
    rw [inflate_compress hz hlow hhigh hlen]
    show (if _ then _ else _ : Except PayloadError Bytes) = _
    rw [if_neg (by simp)]
    show (if _ then _ else _ : Except PayloadError Bytes) = _
    rw [if_neg (by simp)]
    rfl
  · cases hframe : magic.isPrefixOf data with
    | false =>
      refine ⟨?_, fun h => by cases h⟩
      unfold decompressPayload at hok
      rw [hframe, if_pos (by simp)] at hok
      split at hok
      · cases hok
      · obtain rfl := Except.ok.inj hok
        omega
    | true =>
      obtain ⟨hsize, codec, hcodec, hframed, hunframe⟩ := of_decompressPayload_framed hframe hok
      obtain ⟨hlen, framed, -, hsha, hdecode⟩ := of_unframe_ok hunframe
      refine ⟨by omega, fun _ => ⟨hlen, ?_⟩⟩
      unfold decodeFramed at hdecode
      rcases hframed with rfl | rfl
      · obtain rfl := Except.ok.inj hdecode
        exact Or.inl ⟨CompressionCodec.of_ofByte hcodec, hsha⟩
      · exact Or.inr ⟨CompressionCodec.of_ofByte hcodec, framed, hdecode, hsha⟩

/-- A codec that agrees with zlib on the letter `a` at level 3, and stands in for it elsewhere; a snapshot is encoded by
adding a byte. -/
def letterCodecs : PayloadCodecs where
  compress data _ := if data = [97] then [0x78, 0x5E, 0x4B, 0x04, 0x00, 0x00, 0x62, 0x00, 0x62] else 0 :: data
  decompress data _ :=
    .ok ⟨if data = [0x78, 0x5E, 0x4B, 0x04, 0x00, 0x00, 0x62, 0x00, 0x62] then [97] else data.tail, [], fun _ => .ok ([], [])⟩
  encodeSnapshot data := .ok (data ++ [0])
  decodeSnapshot data := .ok data.dropLast

theorem letterCodecs_inverts : letterCodecs.Inverts := by
  intro data level n _ _ _
  refine ⟨_, [], rfl, rfl, ?_, fun _ _ => rfl⟩
  by_cases hdata : data = [97]
  · subst hdata
    rfl
  · simp [letterCodecs, hdata]

/-- The letter `a` comes back from its frame. -/
theorem letter_round_trip :
    letterCodecs.Inverts ∧ ∃ wire, compressPayload letterCodecs [97] .zlib 3 = .ok wire ∧
      decompressPayload letterCodecs wire 1 = .ok [97] :=
  ⟨letterCodecs_inverts,
    (payload_contract letterCodecs letterCodecs_inverts 1).2.1 [97] 3 (by decide) (by decide) (by decide) (by decide)⟩

/-- A payload without a codec that begins like a frame is refused; and of a frame with the codec of snapshots the digest in
the header is not that of the payload. -/
theorem unframed_magic_lost :
    letterCodecs.Inverts ∧
    compressPayload letterCodecs magic .none = .ok magic ∧
    decompressPayload letterCodecs magic 100 = .error (.valueError "truncated compressed prefill payload header") ∧
    ∃ wire, compressPayload letterCodecs [97] .kakeyaLatticeD4 = .ok wire ∧
      decompressPayload letterCodecs wire 100 = .ok [97] ∧ magic.isPrefixOf wire = true ∧
      Sha256.sha256 [97] ≠ (unpackHeader wire).expectedSha := by
  refine ⟨letterCodecs_inverts, rfl, rfl, _, rfl, ?_⟩
  decide +kernel

end Payload

end KakeyaEngine
